import Laredo.Lib.WriteBuffer
import Laredo.SourceTable

/-!
# Buffer

The diff buffer of the snapshot writer (`snapshotter/writer.go`, `snapshotter/keys.go`), and what a
diff made from it means to a reader (`snapshotter/reader.go`).
-/

namespace Laredo.Snapshotter

open KeyedMap Std List Option

variable {V : Type}

structure Change (V : Type) where
  action : ChangeAction
  key : String
  old : Option (Row V)
  new : Option (Row V)

def Change.apply (state : Store V) (ch : Change V) : Store V :=
  match ch.action with
  | .delete => state.erase ch.key
  | .truncate => ∅
  | .insert | .update => state.insert ch.key (Row.orEmpty ch.new)

def foldChanges (state : Store V) (changes : List (Change V)) : Store V :=
  changes.foldl Change.apply state

@[simp] lemma foldChanges_append (state : Store V) (changes changes' : List (Change V)) :
    foldChanges state (changes ++ changes') = foldChanges (foldChanges state changes) changes' :=
  foldl_append

def Change.value (ch : Change V) : Option (Row V) :=
  match ch.action with
  | .delete | .truncate => none
  | .insert | .update => some (Row.orEmpty ch.new)

def Change.overwrite (ch : Change V) : Overwrite String (Row V) :=
  match ch.action with
  | .truncate => { hits := fun _ => true, value := fun _ => none }
  | _ => WriteBuffer.overwrite Change.key Change.value ch

lemma Change.overwrite_of_ne {ch : Change V} (h : ch.action ≠ .truncate) :
    ch.overwrite = WriteBuffer.overwrite Change.key Change.value ch := by
  unfold Change.overwrite
  cases hch : ch.action with
  | truncate => exact absurd hch h
  | insert | update | delete => rfl

lemma Change.getElem?_apply (state : Store V) (ch : Change V) (k : String) :
    (ch.apply state)[k]? = ch.overwrite.apply (fun k => state[k]?) k := by
  unfold Change.apply Change.overwrite WriteBuffer.overwrite Change.value Overwrite.apply
  cases ch.action with
  | insert | update => simp [ExtTreeMap.getElem?_insert]
  | delete => simp [ExtTreeMap.getElem?_erase]
  | truncate => simp

lemma getElem?_foldChanges (state : Store V) (changes : List (Change V)) (k : String) :
    (foldChanges state changes)[k]? =
      Overwrite.replay (changes.map Change.overwrite) (fun k => state[k]?) k := by
  induction changes generalizing state with
  | nil => rfl
  | cons ch changes ih =>
    show (foldChanges (ch.apply state) changes)[k]? = _
    rw [ih, map_cons, Overwrite.replay_cons]
    congr 1
    funext a
    exact ch.getElem?_apply state a

variable {changes : List (Change V)}

lemma getElem?_foldChanges_of_ne
    (h : ∀ ch ∈ changes, ch.action ≠ .truncate) (state : Store V) (k : String) :
    (foldChanges state changes)[k]? = Overwrite.replay
      (changes.map (WriteBuffer.overwrite Change.key Change.value)) (fun k => state[k]?) k := by
  rw [getElem?_foldChanges, map_congr_left fun ch hch => Change.overwrite_of_ne (h ch hch)]

lemma foldChanges_drop_iff {bef after : List (Change V)}
    (h : ∀ ch ∈ bef ++ after, ch.action ≠ .truncate)
    (hnd : ((bef ++ after).map Change.key).Nodup) :
    foldChanges ∅ after = foldChanges ∅ (bef ++ after) ↔ ∀ ch ∈ bef, ch.action = .delete := by
  have haft : ∀ ch ∈ after, ch.action ≠ .truncate := fun ch hch =>
    h ch (mem_append_right _ hch)
  have hdisj := hnd
  rw [map_append, nodup_append] at hdisj
  obtain ⟨-, hnd', hdisj⟩ := hdisj
  have hfst : ∀ ch ∈ bef, (foldChanges ∅ after)[ch.key]? = none := by
    intro ch hch
    rw [getElem?_foldChanges_of_ne haft, WriteBuffer.replay_of_miss, ExtTreeMap.getElem?_empty]
    intro d hd hkey
    exact hdisj _ (List.mem_map_of_mem hch) _ (List.mem_map_of_mem hd) hkey.symm
  have hall : ∀ ch ∈ bef ++ after, (foldChanges ∅ (bef ++ after))[ch.key]? = ch.value := by
    intro ch hch
    rw [getElem?_foldChanges_of_ne h, WriteBuffer.replay_of_mem hnd hch]
  constructor
  · intro heq ch hch
    have hvalue := hall ch (mem_append_left _ hch)
    rw [← heq, hfst ch hch] at hvalue
    cases ha : ch.action with
    | delete => rfl
    | truncate => exact absurd ha (h ch (mem_append_left _ hch))
    | insert | update => simp [Change.value, ha] at hvalue
  · intro hdl
    refine ExtTreeMap.ext_getElem? fun k => ?_
    by_cases hk : ∃ ch ∈ bef ++ after, ch.key = k
    · obtain ⟨ch, hch, rfl⟩ := hk
      rw [hall ch hch]
      rcases mem_append.mp hch with hin | hin
      · rw [hfst ch hin, Change.value, hdl ch hin]
      · rw [getElem?_foldChanges_of_ne haft, WriteBuffer.replay_of_mem hnd' hin]
    · have hmiss : ∀ ch ∈ bef ++ after, ch.key ≠ k := fun ch hch hkey => hk ⟨ch, hch, hkey⟩
      rw [getElem?_foldChanges_of_ne h, getElem?_foldChanges_of_ne haft,
        WriteBuffer.replay_of_miss hmiss,
        WriteBuffer.replay_of_miss fun ch hch => hmiss ch (mem_append_right _ hch)]

/-- The buffered changes by row key. -/
abbrev Buffer (V : Type) := ExtTreeMap String (Change V)

def Buffer.Bridges (buffer : Buffer V) (state state' : Store V) : Prop :=
  WriteBuffer.Bridges Change.value buffer (fun k => state[k]?) (fun k => state'[k]?)

structure Buffer.Plain (buffer : Buffer V) : Prop where
  keyed : Keyed Change.key buffer
  action : ∀ (k : String) (ch : Change V), buffer[k]? = some ch → ch.action ≠ .truncate

lemma Buffer.Plain.empty : Buffer.Plain (∅ : Buffer V) := by
  refine ⟨Keyed.empty, ?_⟩
  intro k ch hch
  simp at hch

variable {buffer : Buffer V}

lemma Buffer.Plain.put (h : buffer.Plain) {ch : Change V}
    (hch : ch.action ≠ .truncate) : Buffer.Plain (put Change.key buffer ch) := by
  refine ⟨h.keyed.put ch, ?_⟩
  intro k c hc
  rw [getElem?_put] at hc
  by_cases hk : ch.key = k
  · rw [if_pos hk] at hc
    rwa [← some.inj hc]
  · rw [if_neg hk] at hc
    exact h.action k c hc

lemma Buffer.Plain.getElem?_foldChanges (hpl : buffer.Plain)
    (hperm : changes.Perm (buffer.toList.map Prod.snd))
    (state : Store V) (k : String) :
    (foldChanges state changes)[k]? = buffer[k]?.elim state[k]? Change.value := by
  have hne : ∀ ch ∈ changes, ch.action ≠ .truncate := fun ch hch =>
    hpl.action _ ch ((mem_values hpl.keyed hperm ch).mp hch)
  rw [getElem?_foldChanges_of_ne hne]
  exact congrFun (WriteBuffer.Bridges.replay (fun _ => rfl) hpl.keyed hperm) k

lemma Buffer.Bridges.foldChanges_eq {state state' : Store V}
    (h : buffer.Bridges state state') (hpl : buffer.Plain)
    (hperm : changes.Perm (buffer.toList.map Prod.snd)) :
    foldChanges state changes = state' := by
  refine ExtTreeMap.ext_getElem? fun k => ?_
  rw [hpl.getElem?_foldChanges hperm]
  exact (h k).symm

/-- `remerge(drained)`: what was drained is put back under the newer changes. -/
def Buffer.remerge (buffer drained : Buffer V) : Buffer V :=
  drained.toList.foldl (fun buffer c => buffer.insertIfNew c.1 c.2) buffer

lemma Buffer.getElem?_remerge (buffer drained : Buffer V) (k : String) :
    (buffer.remerge drained)[k]? = buffer[k]?.or drained[k]? := by
  have hlist : ∀ (l : List (String × Change V)) (buffer : Buffer V),
      (∀ c ∈ l, drained[c.1]? = some c.2) →
      (l.foldl (fun buffer c => buffer.insertIfNew c.1 c.2) buffer)[k]? =
        buffer[k]?.or (if ∃ c ∈ l, c.1 = k then drained[k]? else none) := by
    intro l
    induction l with
    | nil =>
      intro buffer _
      simp
    | cons c l ih =>
      intro buffer hl
      rw [foldl_cons, ih _ fun d hd => hl d (mem_cons_of_mem _ hd),
        getElem?_insertIfNew, Option.or_assoc]
      congr 1
      by_cases hk : c.1 = k
      · subst hk
        have hin : ∃ d ∈ c :: l, d.1 = c.1 := ⟨c, mem_cons_self, rfl⟩
        rw [if_pos rfl, some_or, if_pos hin, hl c mem_cons_self]
      · rw [if_neg hk, none_or]
        simp only [mem_cons, exists_eq_or_imp, hk, false_or]
  unfold Buffer.remerge
  rw [hlist _ _ fun c hc => ExtTreeMap.mem_toList_iff_getElem?_eq_some.mp hc]
  cases hd : drained[k]? with
  | none => simp
  | some ch => rw [if_pos ⟨(k, ch), ExtTreeMap.mem_toList_iff_getElem?_eq_some.mpr hd, rfl⟩]

variable {drained : Buffer V}

lemma Buffer.Plain.remerge (h : buffer.Plain)
    (hdrn : drained.Plain) : (buffer.remerge drained).Plain := by
  have hcas : ∀ (k : String) (ch : Change V), (buffer.remerge drained)[k]? = some ch →
      buffer[k]? = some ch ∨ drained[k]? = some ch := by
    intro k ch hch
    rw [Buffer.getElem?_remerge, or_eq_some_iff] at hch
    exact hch.imp_right And.right
  refine ⟨fun k ch hch => ?_, fun k ch hch => ?_⟩
  · exact (hcas k ch hch).elim (h.keyed k ch) (hdrn.keyed k ch)
  · exact (hcas k ch hch).elim (h.action k ch) (hdrn.action k ch)

lemma Buffer.remerge_ne_empty (h : drained ≠ ∅) : buffer.remerge drained ≠ ∅ := by
  intro hemp
  refine h (ExtTreeMap.ext_getElem? fun k => ?_)
  have hk := buffer.getElem?_remerge drained k
  rw [hemp, ExtTreeMap.getElem?_empty, eq_comm, or_eq_none_iff] at hk
  rw [hk.2, ExtTreeMap.getElem?_empty]

lemma Buffer.Bridges.remerge {state state' state'' : Store V}
    (hdrn : drained.Bridges state state') (h : buffer.Bridges state' state'') :
    (buffer.remerge drained).Bridges state state'' :=
  WriteBuffer.Bridges.merge hdrn h (buffer.getElem?_remerge drained)

variable [GoValue V]

/-- `RowKey(row, keyFields)`: one field is printed as it is, several as a list. -/
def rowKey (keyFields : List String) (row : Option (Row V)) : String :=
  let keyFields := if keyFields.isEmpty then ["id"] else keyFields
  match keyFields with
  | [f] => GoValue.sprint ((Row.orEmpty row).get f)
  | fields =>
      "[" ++ " ".intercalate (fields.map fun f => GoValue.sprint ((Row.orEmpty row).get f)) ++ "]"

lemma bracket_inj {s t : String} : "[" ++ s ++ "]" = "[" ++ t ++ "]" ↔ s = t := by
  simp [← String.toList_inj]

/-- The change `onChange` records for the pair of rows it is called with. -/
def Change.of (keyFields : List String) (old new : Option (Row V)) : Change V :=
  let row := match new with
    | some row => some row
    | none => old
  let key := rowKey keyFields row
  match new, old with
  | some new, none => ⟨.insert, key, none, some new⟩
  | some new, some old => ⟨.update, key, some old, some new⟩
  | none, some old => ⟨.delete, key, some old, none⟩
  | none, none => ⟨.truncate, key, none, none⟩

def Buffer.onChange (keyFields : List String) (buffer : Buffer V) (old new : Option (Row V)) :
    Buffer V :=
  let ch := Change.of keyFields old new
  match ch.action with
  | .truncate => (∅ : Buffer V).insert ch.key ch
  | _ => buffer.insert ch.key ch

lemma Change.of_truncate_iff (kf : List String) (old new : Option (Row V)) :
    (Change.of kf old new).action = .truncate ↔ old = none ∧ new = none := by
  unfold Change.of
  cases old <;> cases new <;> simp

lemma Buffer.onChange_of_ne {kf : List String} {old new : Option (Row V)}
    (h : (Change.of kf old new).action ≠ .truncate) (buffer : Buffer V) :
    buffer.onChange kf old new = put Change.key buffer (Change.of kf old new) := by
  unfold Buffer.onChange
  generalize Change.of kf old new = ch at h
  cases hch : ch.action with
  | truncate => exact absurd hch h
  | insert | update | delete => simp only [hch, put]

lemma Buffer.onChange_ne_empty (kf : List String) (buffer : Buffer V)
    (old new : Option (Row V)) : buffer.onChange kf old new ≠ ∅ := by
  intro hemp
  have hat : (buffer.onChange kf old new)[(Change.of kf old new).key]? =
      some (Change.of kf old new) := by
    by_cases htr : (Change.of kf old new).action = .truncate
    · unfold Buffer.onChange
      simp [htr]
    · rw [Buffer.onChange_of_ne htr, getElem?_put, if_pos rfl]
  rw [hemp, ExtTreeMap.getElem?_empty] at hat
  cases hat

end Laredo.Snapshotter
