import Laredo.Snapshotter.Buffer

/-!
# Diff

A sequence of calls of `onChange` against the diff that is flushed after it, and what a reader makes
of the diff.
-/

namespace Laredo.Snapshotter

open Change KeyedMap Buffer Std List Option

structure Edit (V : Type) where
  old : Option (Row V)
  new : Option (Row V)

variable {V : Type}

namespace Edit

def tableChange : Edit V → TableChange V
  | ⟨none, some new⟩ => .insert new
  | ⟨some old, some new⟩ => .update new (some old)
  | ⟨some old, none⟩ => .delete (some old)
  | ⟨none, none⟩ => .truncate

def isTruncate (e : Edit V) : Bool := e.old.isNone && e.new.isNone

lemma eq_of_isTruncate {e : Edit V} (h : e.isTruncate = true) : e = ⟨none, none⟩ := by
  obtain ⟨old, new⟩ := e
  cases old <;> cases new <;> first | rfl | cases h

def afterTruncate : List (Edit V) → Option (List (Edit V))
  | [] => none
  | e :: edits =>
      match afterTruncate edits with
      | some post => some post
      | none => if e.isTruncate then some edits else none

lemma afterTruncate_none {edits : List (Edit V)} (h : afterTruncate edits = none) :
    ∀ e ∈ edits, e.isTruncate = false := by
  induction edits with
  | nil => nofun
  | cons e edits ih =>
    rw [afterTruncate] at h
    cases haft : afterTruncate edits with
    | some post =>
      rw [haft] at h
      cases h
    | none =>
      rw [haft] at h
      intro d hd
      rcases mem_cons.mp hd with rfl | hd
      · cases hd : d.isTruncate with
        | false => rfl
        | true => simp [hd] at h
      · exact ih haft d hd

lemma afterTruncate_some {edits post : List (Edit V)} (h : afterTruncate edits = some post) :
    (∃ pre e, edits = pre ++ e :: post ∧ e.isTruncate = true) ∧
      ∀ e ∈ post, e.isTruncate = false := by
  induction edits with
  | nil => cases h
  | cons e edits ih =>
    rw [afterTruncate] at h
    cases haft : afterTruncate edits with
    | some post' =>
      rw [haft] at h
      cases h
      obtain ⟨⟨pre, t, rfl, ht⟩, hpost⟩ := ih haft
      exact ⟨⟨e :: pre, t, rfl, ht⟩, hpost⟩
    | none =>
      rw [haft] at h
      cases he : e.isTruncate with
      | false => simp [he] at h
      | true =>
        simp only [he, if_true] at h
        cases h
        exact ⟨⟨[], e, rfl, he⟩, afterTruncate_none haft⟩

variable [GoValue V] (keyFields : List String)

def change (e : Edit V) : Change V := of keyFields e.old e.new

def KeepsKey (e : Edit V) : Prop := e.tableChange.KeepsKey fun row => rowKey keyFields (some row)

def apply (table : Store V) (e : Edit V) : Store V :=
  e.tableChange.apply (fun row => rowKey keyFields (some row)) table

/-- The rows after the call, for a subscription that files an update under its new key and
does not look at the old row. -/
def applyBlind (table : Store V) (e : Edit V) : Store V :=
  e.tableChange.applyBlind (fun row => rowKey keyFields (some row)) table

def replayBlind (table : Store V) (edits : List (Edit V)) : Store V :=
  edits.foldl (applyBlind keyFields) table

def replay (table : Store V) (edits : List (Edit V)) : Store V :=
  edits.foldl (apply keyFields) table

def collect (buffer : Buffer V) (edits : List (Edit V)) : Buffer V :=
  edits.foldl (fun buffer e => buffer.onChange keyFields e.old e.new) buffer

variable {keyFields} {e : Edit V} {edits : List (Edit V)}

lemma action_change_ne (h : e.isTruncate = false) : (e.change keyFields).action ≠ .truncate := by
  intro htr
  obtain ⟨hold, hnew⟩ := (of_truncate_iff keyFields e.old e.new).mp htr
  rw [isTruncate, hold, hnew] at h
  cases h

lemma applyBlind_eq (hkp : e.KeepsKey keyFields) (table : Store V) :
    e.applyBlind keyFields table = e.apply keyFields table :=
  TableChange.applyBlind_eq hkp table

lemma replayBlind_eq (hkeys : ∀ e ∈ edits, e.KeepsKey keyFields) (table : Store V) :
    replayBlind keyFields table edits = replay keyFields table edits := by
  induction edits generalizing table with
  | nil => rfl
  | cons e edits ih =>
    show replayBlind keyFields (e.applyBlind keyFields table) edits = _
    rw [ih (fun d hd => hkeys d (mem_cons_of_mem _ hd)), applyBlind_eq (hkeys e mem_cons_self)]
    rfl

lemma getElem?_applyBlind (h : e.isTruncate = false) (table : Store V) (k : String) :
    (e.applyBlind keyFields table)[k]? =
      (WriteBuffer.overwrite key value (e.change keyFields)).apply
        (fun k => table[k]?) k := by
  obtain ⟨old, new⟩ := e
  unfold applyBlind change WriteBuffer.overwrite Overwrite.apply
  cases new with
  | some new =>
    by_cases hk : rowKey keyFields (some new) = k <;> cases old <;>
      simp [tableChange, TableChange.applyBlind, of, value, getElem?_put, Row.orEmpty, hk]
  | none =>
    cases old with
    | none => cases h
    | some old =>
      by_cases hk : rowKey keyFields (some old) = k <;>
        simp [tableChange, TableChange.applyBlind, of, value, getElem?_erase, Row.orEmpty, hk]

end Edit

variable [GoValue V] {keyFields : List String}

variable {buffer : Buffer V} {e : Edit V}

lemma Buffer.Plain.onChange (h : buffer.Plain)
    (he : e.isTruncate = false) : (buffer.onChange keyFields e.old e.new).Plain := by
  have hne : (of keyFields e.old e.new).action ≠ .truncate := Edit.action_change_ne he
  rw [onChange_of_ne hne]
  exact h.put hne

lemma Buffer.Bridges.onChange {state table : Store V}
    (h : buffer.Bridges state table) (he : e.isTruncate = false) :
    (buffer.onChange keyFields e.old e.new).Bridges state (e.applyBlind keyFields table) := by
  have hne : (of keyFields e.old e.new).action ≠ .truncate := Edit.action_change_ne he
  rw [onChange_of_ne hne]
  intro k
  show (e.applyBlind keyFields table)[k]? = _
  rw [Edit.getElem?_applyBlind he]
  exact WriteBuffer.Bridges.put h (e.change keyFields) k

variable {edits : List (Edit V)}

section

variable (hpl : ∀ e ∈ edits, e.isTruncate = false)
include hpl

lemma Edit.collect_plain (h : buffer.Plain) : (collect keyFields buffer edits).Plain := by
  induction edits generalizing buffer with
  | nil => exact h
  | cons e edits ih =>
    exact ih (fun d hd => hpl d (mem_cons_of_mem _ hd)) (h.onChange (hpl e mem_cons_self))

lemma Edit.collect_bridges {state table : Store V} (h : buffer.Bridges state table) :
    (collect keyFields buffer edits).Bridges state (replayBlind keyFields table edits) := by
  induction edits generalizing buffer table with
  | nil => exact h
  | cons e edits ih =>
    exact ih (fun d hd => hpl d (mem_cons_of_mem _ hd)) (h.onChange (hpl e mem_cons_self))

lemma Edit.getElem?_collect (buffer : Buffer V) (k : String) :
    (collect keyFields buffer edits)[k]? = (collect keyFields ∅ edits)[k]?.or buffer[k]? := by
  induction edits generalizing buffer with
  | nil => simp [collect]
  | cons e edits ih =>
    have hne : (of keyFields e.old e.new).action ≠ .truncate :=
      Edit.action_change_ne (hpl e mem_cons_self)
    have hrest := ih fun d hd => hpl d (mem_cons_of_mem _ hd)
    show (collect keyFields (buffer.onChange keyFields e.old e.new) edits)[k]? =
      (collect keyFields ((∅ : Buffer V).onChange keyFields e.old e.new) edits)[k]?.or buffer[k]?
    rw [hrest, hrest ((∅ : Buffer V).onChange keyFields e.old e.new), Option.or_assoc]
    congr 1
    rw [onChange_of_ne hne, onChange_of_ne hne, getElem?_put, getElem?_put]
    by_cases hk : (of keyFields e.old e.new).key = k
    · rw [if_pos hk, if_pos hk, some_or]
    · simp [hk]

lemma Edit.getElem?_collect_eq_none (k : String) :
    (collect keyFields ∅ edits)[k]? = none ↔ ∀ e ∈ edits, (e.change keyFields).key ≠ k := by
  induction edits with
  | nil => simp [collect]
  | cons e edits ih =>
    have hne : (of keyFields e.old e.new).action ≠ .truncate :=
      Edit.action_change_ne (hpl e mem_cons_self)
    have htail : ∀ d ∈ edits, d.isTruncate = false := fun d hd => hpl d (mem_cons_of_mem _ hd)
    show (collect keyFields ((∅ : Buffer V).onChange keyFields e.old e.new) edits)[k]? = none ↔ _
    rw [Edit.getElem?_collect htail, or_eq_none_iff, ih htail, onChange_of_ne hne,
      getElem?_put, forall_mem_cons, and_comm]
    refine and_congr_left fun _ => ?_
    unfold Edit.change
    by_cases hk : (of keyFields e.old e.new).key = k
    · simp [hk]
    · simp [hk]

end

variable (keyFields) in
/-- When the diff after a truncate means the right thing. If a later call has taken the
truncate's place in the buffer, the later calls must have a change for every row there was.
Otherwise nothing but deletes may be written before the truncate. -/
def WrittenSafely (state : Store V) (edits : List (Edit V)) (written : List (Change V)) : Prop :=
  match Edit.afterTruncate edits with
  | none => True
  | some post =>
      ((∃ e ∈ post, (e.change keyFields).key = rowKey keyFields (none : Option (Row V))) →
        ∀ k ∈ state, ∃ e ∈ post, (e.change keyFields).key = k) ∧
      ((∀ e ∈ post, (e.change keyFields).key ≠ rowKey keyFields (none : Option (Row V))) →
        ∀ before after, written = before ++ of keyFields none none :: after →
          ∀ ch ∈ before, ch.action = .delete)

lemma Edit.truncated (he : e.isTruncate = true) (pre post : List (Edit V)) (state : Store V) :
    replayBlind keyFields state (pre ++ e :: post) = replayBlind keyFields ∅ post ∧
      collect keyFields ∅ (pre ++ e :: post) = collect keyFields
        (put key (∅ : Buffer V) (of keyFields none none)) post := by
  obtain rfl := eq_of_isTruncate he
  refine ⟨?_, ?_⟩
  · unfold replayBlind
    rw [foldl_append]
    rfl
  · unfold collect
    rw [foldl_append]
    rfl

variable {post : List (Edit V)}

section

variable (hpost : ∀ e ∈ post, e.isTruncate = false)
include hpost

lemma Edit.collect_replaced
    (htaken : ∃ e ∈ post, (e.change keyFields).key = rowKey keyFields (none : Option (Row V))) :
    collect keyFields (put key (∅ : Buffer V) (of keyFields none none)) post =
      collect keyFields ∅ post := by
  refine ExtTreeMap.ext_getElem? fun k => ?_
  rw [Edit.getElem?_collect hpost]
  cases hat : (collect keyFields ∅ post)[k]? with
  | some ch => rw [some_or]
  | none =>
    obtain ⟨e, he, hkey⟩ := htaken
    have hne : (of keyFields (none : Option (Row V)) none).key ≠ k := by
      rintro rfl
      exact (Edit.getElem?_collect_eq_none hpost _).mp hat e he hkey
    rw [getElem?_put, if_neg hne, ExtTreeMap.getElem?_empty, or_none]

lemma Edit.collect_kept
    (hfree : ∀ e ∈ post, (e.change keyFields).key ≠ rowKey keyFields (none : Option (Row V))) :
    collect keyFields (put key (∅ : Buffer V) (of keyFields none none)) post =
      put key (collect keyFields ∅ post) (of keyFields none none) := by
  refine ExtTreeMap.ext_getElem? fun k => ?_
  rw [Edit.getElem?_collect hpost, getElem?_put, getElem?_put]
  by_cases hk : (of keyFields (none : Option (Row V)) none).key = k
  · subst hk
    have hnone : (collect keyFields ∅ post)[(of keyFields (none : Option (Row V)) none).key]? =
        none := (Edit.getElem?_collect_eq_none hpost _).mpr hfree
    rw [hnone, none_or, if_pos rfl, if_pos rfl]
  · rw [if_neg hk, if_neg hk, ExtTreeMap.getElem?_empty, or_none]

lemma diff_replays_of_replaced {wrt : List (Change V)}
    (hperm : wrt.Perm ((Edit.collect keyFields ∅ post).toList.map Prod.snd))
    (state : Store V) :
    foldChanges state wrt = Edit.replayBlind keyFields ∅ post ↔
      ∀ k ∈ state, ∃ e ∈ post, (e.change keyFields).key = k := by
  have hpl : (Edit.collect keyFields ∅ post).Plain := Edit.collect_plain hpost Plain.empty
  have hbridge : (Edit.collect keyFields ∅ post).Bridges ∅ (Edit.replayBlind keyFields ∅ post) :=
    Edit.collect_bridges hpost WriteBuffer.Bridges.empty
  have hnone : ∀ k, (Edit.collect keyFields ∅ post)[k]? = none ↔ _ :=
    Edit.getElem?_collect_eq_none hpost
  constructor
  · intro heq k hk
    by_contra hno
    have hmiss := (hnone k).mpr fun e he hek => hno ⟨e, he, hek⟩
    have hat := hpl.getElem?_foldChanges hperm state k
    have haft := hbridge k
    rw [heq, hmiss] at hat
    rw [hmiss] at haft
    have hstt := hat.symm.trans haft
    rw [ExtTreeMap.getElem?_eq_some_getElem hk] at hstt
    cases hstt
  · intro hcover
    refine ExtTreeMap.ext_getElem? fun k => ?_
    rw [hpl.getElem?_foldChanges hperm state k]
    refine Eq.trans ?_ (hbridge k).symm
    cases hk : (Edit.collect keyFields ∅ post)[k]? with
    | some ch => rfl
    | none =>
      show state[k]? = (∅ : Store V)[k]?
      rw [ExtTreeMap.getElem?_empty]
      refine ExtTreeMap.getElem?_eq_none fun hmem => ?_
      obtain ⟨e, he, hek⟩ := hcover k hmem
      exact (hnone k).mp hk e he hek

lemma diff_replays_of_kept
    (hfree : ∀ e ∈ post, (e.change keyFields).key ≠ rowKey keyFields (none : Option (Row V)))
    {bef after : List (Change V)} (hperm : (bef ++ of keyFields none none :: after).Perm
      ((put key (Edit.collect keyFields ∅ post)
        (of keyFields none none)).toList.map Prod.snd)) (state : Store V) :
    foldChanges state (bef ++ of keyFields none none :: after) =
        Edit.replayBlind keyFields ∅ post ↔ ∀ ch ∈ bef, ch.action = .delete := by
  have hpl : (Edit.collect keyFields ∅ post).Plain := Edit.collect_plain hpost Plain.empty
  have hbridge : (Edit.collect keyFields ∅ post).Bridges ∅ (Edit.replayBlind keyFields ∅ post) :=
    Edit.collect_bridges hpost WriteBuffer.Bridges.empty
  have hkd := hpl.keyed.put (of keyFields none none)
  have hnd := nodup_keys_of_values hkd hperm
  rw [(perm_middle.map key).nodup_iff, map_cons, nodup_cons] at hnd
  obtain ⟨hlone, hnd⟩ := hnd
  -- next to the truncate stands what the later calls left
  have hmem : ∀ ch, ch ∈ bef ++ after ↔ (Edit.collect keyFields ∅ post)[ch.key]? = some ch := by
    intro ch
    have hall := mem_values hkd hperm ch
    rw [perm_middle.mem_iff, mem_cons, getElem?_put] at hall
    by_cases hkey : (of keyFields (none : Option (Row V)) none).key = ch.key
    · have hout : ch ∉ bef ++ after := fun hch => hlone (hkey ▸ List.mem_map_of_mem hch)
      have hnone : (Edit.collect keyFields ∅ post)[ch.key]? = none :=
        (Edit.getElem?_collect_eq_none hpost _).mpr (hkey ▸ hfree)
      rw [hnone]
      exact iff_of_false hout nofun
    · rw [if_neg hkey] at hall
      rw [← hall, or_iff_right]
      rintro rfl
      exact hkey rfl
  have hreplay := hbridge.foldChanges_eq hpl (perm_values hpl.keyed hnd hmem)
  have hfold : foldChanges state (bef ++ of keyFields none none :: after) =
      foldChanges ∅ after := by
    rw [foldChanges_append]
    rfl
  rw [hfold, ← hreplay]
  exact foldChanges_drop_iff (fun ch hch => hpl.action _ ch ((hmem ch).mp hch)) hnd

end

lemma diff_replays_blind_iff (keyFields : List String) (state : Store V) (edits : List (Edit V))
    (written : List (Change V))
    (hwrt : written.Perm ((Edit.collect keyFields ∅ edits).toList.map Prod.snd)) :
    foldChanges state written = Edit.replayBlind keyFields state edits ↔
      WrittenSafely keyFields state edits written := by
  unfold WrittenSafely
  cases haft : Edit.afterTruncate edits with
  | none =>
    have hpl := Edit.afterTruncate_none haft
    have hbridge : (Edit.collect keyFields ∅ edits).Bridges state _ :=
      Edit.collect_bridges hpl WriteBuffer.Bridges.empty
    exact iff_of_true
      (hbridge.foldChanges_eq (Edit.collect_plain hpl Plain.empty) hwrt) trivial
  | some post =>
    obtain ⟨⟨pre, e, rfl, he⟩, hpost⟩ := Edit.afterTruncate_some haft
    obtain ⟨hreplay, hcol⟩ := Edit.truncated he pre post state
    rw [hcol] at hwrt
    rw [hreplay]
    by_cases htaken : ∃ d ∈ post, (d.change keyFields).key =
      rowKey keyFields (none : Option (Row V))
    · rw [Edit.collect_replaced hpost htaken] at hwrt
      rw [diff_replays_of_replaced hpost hwrt]
      refine ⟨fun hcover => ⟨fun _ => hcover, fun hfree => ?_⟩, fun hsafe => hsafe.1 htaken⟩
      obtain ⟨d, hd, hkey⟩ := htaken
      exact absurd hkey (hfree d hd)
    · have hfree : ∀ d ∈ post, (d.change keyFields).key ≠
          rowKey keyFields (none : Option (Row V)) :=
        fun d hd hkey => htaken ⟨d, hd, hkey⟩
      rw [Edit.collect_kept hpost hfree] at hwrt
      constructor
      · intro heq
        refine ⟨fun hcase => absurd hcase htaken, ?_⟩
        rintro - before after rfl
        exact (diff_replays_of_kept hpost hfree hwrt state).mp heq
      · intro hsafe
        -- the truncate is somewhere in the diff
        have hpl : (Edit.collect keyFields ∅ post).Plain :=
          Edit.collect_plain hpost Plain.empty
        have hkd := hpl.keyed.put (of keyFields none none)
        have hin : of keyFields (none : Option (Row V)) none ∈ written := by
          refine (mem_values hkd hwrt _).mpr ?_
          rw [getElem?_put, if_pos rfl]
        obtain ⟨before, after, rfl⟩ := append_of_mem hin
        exact (diff_replays_of_kept hpost hfree hwrt state).mpr (hsafe.2 hfree before after rfl)

/-- **When a diff replays to the right state.** For every order in which the buffer is written out,
folding the diff into the state gives the table after the calls if and only if the diff is
`WrittenSafely`. -/
theorem diff_replays_iff (keyFields : List String) (state : Store V) (edits : List (Edit V))
    (hkeys : ∀ e ∈ edits, e.KeepsKey keyFields) (written : List (Change V))
    (hwritten : written.Perm ((Edit.collect keyFields ∅ edits).toList.map Prod.snd)) :
    foldChanges state written = Edit.replay keyFields state edits ↔
      WrittenSafely keyFields state edits written := by
  rw [← Edit.replayBlind_eq hkeys]
  exact diff_replays_blind_iff keyFields state edits written hwritten

def rowWithId (id : String) : Row Text := .ofList [("id", some id)]

def truncateThenInsert : List (Edit Text) :=
  [⟨none, none⟩, ⟨none, some (rowWithId "2")⟩]

/-- The truncate is written after the insert, as the iteration over the map may have it:
row 2 is lost. -/
theorem truncate_written_last_loses_row :
    ∃ (state : Store Text) (written : List (Change Text)),
      (∀ e ∈ truncateThenInsert, e.KeepsKey ["id"]) ∧
      written.Perm ((Edit.collect ["id"] ∅ truncateThenInsert).toList.map Prod.snd) ∧
      written.map (·.action) = [.insert, .truncate] ∧
      (foldChanges state written)["2"]? = none ∧
      (Edit.replay ["id"] state truncateThenInsert)["2"]?.map (·.get "id") = some (some "2") := by
  refine ⟨∅, _, ?_, List.Perm.refl _, by decide +kernel, by decide +kernel, by decide +kernel⟩
  intro e he
  rcases mem_cons.mp he with rfl | he
  · trivial
  · obtain rfl := mem_singleton.mp he
    trivial

theorem truncate_written_first_replays :
    foldChanges ((∅ : Store Text).insert "1" (rowWithId "1"))
        [of ["id"] none none, of ["id"] none (some (rowWithId "2"))] =
      Edit.replay ["id"] ((∅ : Store Text).insert "1" (rowWithId "1"))
        truncateThenInsert := by
  have hwrt : [of ["id"] none none, of ["id"] none (some (rowWithId "2"))].Perm
      ((Edit.collect ["id"] ∅ truncateThenInsert).toList.map Prod.snd) := List.Perm.swap _ _ _
  refine (diff_replays_iff ["id"] _ truncateThenInsert ?_ _ hwrt).mpr ?_
  · intro e he
    rcases mem_cons.mp he with rfl | he
    · trivial
    · obtain rfl := mem_singleton.mp he
      trivial
  · refine ⟨?_, ?_⟩
    · rintro ⟨e, he, hkey⟩
      obtain rfl := mem_singleton.mp he
      exact absurd hkey (by decide +kernel)
    · rintro - before after hspl ch hch
      cases before with
      | nil => cases hch
      | cons first before =>
        -- the only other change is the insert
        have htail := (List.cons.inj hspl).2
        cases before with
        | nil =>
          have hact := congrArg action (List.cons.inj htail).1
          exact absurd hact (by decide +kernel)
        | cons second before =>
          have hlen := congrArg List.length (List.cons.inj htail).2
          simp at hlen

end Laredo.Snapshotter
