import Laredo.Replication.ColdReplay

/-!
# Filtered replay

A filtered replay from the archive: the writer collapses the changes between two flushes, and
`streamColdReplay` (`service/replication/cold_replay.go`) sends those that pass the filter.
-/

namespace Laredo

open KeyedMap Overwrite WriteBuffer Stale List Option

namespace Snapshotter.Edit

variable {V : Type}

def row (e : Edit V) : Row V := Row.orEmpty (e.new.or e.old)

def lastUnder (key : Row V → String) (k : String) (edits : List (Edit V)) : Option (Edit V) :=
  (edits.filter fun e => key e.row = k).getLast?

def replayBy (key : Row V → String) (table : Store V) (edits : List (Edit V)) : Store V :=
  edits.foldl (fun table e => e.tableChange.apply key table) table

variable {key : Row V → String} {k : String} {e : Edit V} {edits : List (Edit V)}

@[simp] lemma lastUnder_nil : lastUnder key k ([] : List (Edit V)) = none := rfl

@[simp] lemma lastUnder_concat :
    lastUnder key k (edits ++ [e]) = if key e.row = k then some e else lastUnder key k edits := by
  unfold lastUnder
  by_cases hk : key e.row = k <;> simp [hk]

lemma mem_of_lastUnder (h : lastUnder key k edits = some e) : e ∈ edits ∧ key e.row = k := by
  simpa using mem_of_getLast? h

lemma lastUnder_congr {key' : Row V → String} {d : Edit V}
    (h : ∀ e ∈ edits, key e.row = key d.row ↔ key' e.row = key' d.row) :
    lastUnder key (key d.row) edits = lastUnder key' (key' d.row) edits := by
  unfold lastUnder
  rw [filter_congr fun e he => decide_eq_decide.mpr (h e he)]

lemma replayBy_concat (table : Store V) :
    replayBy key table (edits ++ [e]) = e.tableChange.apply key (replayBy key table edits) := by
  simp [replayBy]

lemma getElem?_apply_of_key (he : e.isTruncate = false) (hk : key e.row = k) (table : Store V) :
    (e.tableChange.apply key table)[k]? = e.new := by
  obtain ⟨old, new⟩ := e
  cases new with
  | some new => cases old <;> simp_all [tableChange, row, TableChange.apply, Row.orEmpty,
      getElem?_put]
  | none =>
    cases old with
    | none => cases he
    | some old => simp_all [tableChange, row, TableChange.apply, Row.orEmpty]

lemma getElem?_apply_of_other (he : e.isTruncate = false) (hk : key e.row ≠ k) (table : Store V) :
    (e.tableChange.apply key table)[k]? = table[k]? ∨
      (e.tableChange.apply key table)[k]? = none ∧ ¬ e.tableChange.KeepsKey key := by
  obtain ⟨old, new⟩ := e
  cases new with
  | some new =>
    have hnew : key new ≠ k := hk
    cases old with
    | none => simp [tableChange, TableChange.apply, getElem?_put, hnew]
    | some old =>
      by_cases hold : key old = k
      · refine .inr ⟨?_, fun hkp => hnew ?_⟩
        · simp [tableChange, TableChange.apply, getElem?_put, hnew, hold]
        · exact (show key old = key new from hkp).symm.trans hold
      · simp [tableChange, TableChange.apply, getElem?_put, getElem?_erase, hnew, hold]
  | none =>
    cases old with
    | none => cases he
    | some old =>
      have hold : key old ≠ k := hk
      simp [tableChange, TableChange.apply, Row.orEmpty, getElem?_erase, hold]

lemma getElem?_replayBy_of_some (hpl : ∀ e ∈ edits, e.isTruncate = false) {table : Store V}
    {r : Row V} (h : (replayBy key table edits)[k]? = some r) :
    (lastUnder key k edits).elim table[k]? new = some r := by
  induction edits using List.reverseRecOn with
  | nil => exact h
  | append_singleton edits e ih =>
    have he : e.isTruncate = false := hpl e (by simp)
    rw [replayBy_concat] at h
    rw [lastUnder_concat]
    by_cases hk : key e.row = k
    · rw [getElem?_apply_of_key he hk] at h
      simpa [hk] using h
    · rw [if_neg hk]
      refine ih (fun d hd => hpl d (by simp [hd])) ?_
      rcases getElem?_apply_of_other he hk (replayBy key table edits) with hsame | ⟨hnone, -⟩
      · rwa [← hsame]
      · rw [hnone] at h
        cases h

lemma getElem?_replayBy (hpl : ∀ e ∈ edits, e.isTruncate = false)
    (hkp : ∀ e ∈ edits, e.tableChange.KeepsKey key) (table : Store V) :
    (replayBy key table edits)[k]? = (lastUnder key k edits).elim table[k]? new := by
  induction edits using List.reverseRecOn with
  | nil => rfl
  | append_singleton edits e ih =>
    have he : e.isTruncate = false := hpl e (by simp)
    have hrest := ih (fun d hd => hpl d (by simp [hd])) fun d hd => hkp d (by simp [hd])
    rw [replayBy_concat, lastUnder_concat]
    by_cases hk : key e.row = k
    · simp [getElem?_apply_of_key he hk, hk]
    · rw [if_neg hk, ← hrest]
      refine (getElem?_apply_of_other he hk _).resolve_right fun hmvd => ?_
      exact hmvd.2 (hkp e (by simp))

variable [GoValue V] {keyFields : List String}

def writerKey (keyFields : List String) (row : Row V) : String := rowKey keyFields (some row)

lemma change_eq (keyFields : List String) (e : Edit V) :
    (e.change keyFields).key = writerKey keyFields e.row ∧
      (e.change keyFields).old = e.old ∧ (e.change keyFields).new = e.new := by
  obtain ⟨old, new⟩ := e
  cases old <;> cases new <;> exact ⟨rfl, rfl, rfl⟩

lemma getElem?_collect_last (hpl : ∀ e ∈ edits, e.isTruncate = false) :
    (collect keyFields ∅ edits)[k]? =
      (lastUnder (writerKey keyFields) k edits).map (change keyFields) := by
  induction edits using List.reverseRecOn with
  | nil => simp [collect]
  | append_singleton edits e ih =>
    have he : e.isTruncate = false := hpl e (by simp)
    have hrest := ih fun d hd => hpl d (by simp [hd])
    have hcol : collect keyFields ∅ (edits ++ [e]) =
        (collect keyFields ∅ edits).onChange keyFields e.old e.new := by simp [collect]
    have hkey : (Change.of keyFields e.old e.new).key = writerKey keyFields e.row :=
      (change_eq keyFields e).1
    rw [hcol, Buffer.onChange_of_ne (action_change_ne he), getElem?_put, hkey,
      lastUnder_concat, hrest]
    by_cases hk : writerKey keyFields e.row = k
    · simp [hk, change]
    · simp [hk]

end Snapshotter.Edit

namespace Replication

open Snapshotter (Change Edit)

variable {V : Type} [FilterValue V]

def sent (key : Row V → String) (filter : Option (SubscriptionFilter V)) (k : String)
    (edits : List (Edit V)) : Option (Edit V) :=
  (Edit.lastUnder key k edits).filter fun e => verdict filter e.row

def SameKeys (key : Row V → String) (keyFields : List String) (edits : List (Edit V)) : Prop :=
  ∀ e ∈ edits, ∀ d ∈ edits,
    key e.row = key d.row ↔ Edit.writerKey keyFields e.row = Edit.writerKey keyFields d.row

def DiffOf (keyFields : List String) (edits : List (Edit V)) (d : ColdDiff V) : Prop :=
  d.changes.Perm ((Edit.collect keyFields ∅ edits).toList.map Prod.snd)

variable {key : Row V → String} {keyFields : List String} {k : String}
variable {filter : Option (SubscriptionFilter V)} {e : Edit V} {edits : List (Edit V)}
variable {d : ColdDiff V}

lemma sent_eq_some : sent key filter k edits = some e ↔
    Edit.lastUnder key k edits = some e ∧ verdict filter e.row = true :=
  filter_eq_some_iff

lemma changeMatchesFilter_change (he : e.isTruncate = false) :
    changeMatchesFilter (e.change keyFields) filter = verdict filter e.row := by
  obtain ⟨old, new⟩ := e
  cases filter with
  | none => rfl
  | some f => cases old <;> cases new <;> first | rfl | cases he

lemma mem_diff (hkeys : SameKeys key keyFields edits)
    (hpl : ∀ e ∈ edits, e.isTruncate = false) (hdiff : DiffOf keyFields edits d)
    {ch : Change V} :
    ch ∈ d.changes ↔ ∃ k e, Edit.lastUnder key k edits = some e ∧ ch = e.change keyFields := by
  have hbfr : (Edit.collect keyFields ∅ edits).Plain := Edit.collect_plain hpl .empty
  rw [mem_values hbfr.keyed hdiff, Edit.getElem?_collect_last hpl, map_eq_some_iff]
  constructor
  · intro h
    obtain ⟨e, hlast, rfl⟩ := h
    obtain ⟨he, hkey⟩ := Edit.mem_of_lastUnder hlast
    refine ⟨key e.row, e, ?_, rfl⟩
    rw [Edit.lastUnder_congr fun d hd => hkeys d hd e he, hkey, hlast]
  · intro h
    obtain ⟨k, e, hlast, rfl⟩ := h
    obtain ⟨he, rfl⟩ := Edit.mem_of_lastUnder hlast
    refine ⟨e, ?_, rfl⟩
    rw [(Edit.change_eq keyFields e).1, ← Edit.lastUnder_congr fun d hd => hkeys d hd e he, hlast]

def changeWrite (key : Row V → String) (ch : Change V) : Overwrite String (Row V) :=
  overwrite (fun ch : Change V => key (Row.orEmpty (ch.new.or ch.old))) Change.new ch

lemma changeWrite_change (key : Row V → String) (keyFields : List String) (e : Edit V) :
    changeWrite key (e.change keyFields) =
      overwrite (fun e => key (Edit.row e)) Edit.new e := by
  obtain ⟨-, hold, hnew⟩ := Edit.change_eq keyFields e
  simp only [changeWrite, overwrite, hold, hnew]
  rfl

lemma getElem?_changeEdit (he : e.isTruncate = false) (cl : Store V) :
    ((changeEdit (e.change keyFields)).apply key cl)[k]? =
      (changeWrite key (e.change keyFields)).apply (fun k => cl[k]?) k := by
  rw [changeWrite_change key keyFields e]
  obtain ⟨old, new⟩ := e
  unfold overwrite apply
  cases new with
  | some new =>
    by_cases hk : key new = k <;> cases old <;>
      simp [changeEdit, editOf, Edit.change, Change.of, Edit.row, Slice.Edit.apply, Row.orEmpty,
        getElem?_put, hk]
  | none =>
    cases old with
    | none => cases he
    | some old =>
      by_cases hk : key old = k <;>
        simp [changeEdit, editOf, Edit.change, Change.of, Edit.row, Slice.Edit.apply,
          Row.orEmpty, getElem?_erase, hk]

lemma getElem?_replay_changes {chs : List (Change V)}
    (hchs : ∀ ch ∈ chs, ∃ e : Edit V, e.isTruncate = false ∧ ch = e.change keyFields)
    (cl : Store V) :
    (fun k => (Slice.replay key changeEdit cl chs)[k]?) =
      replay (chs.map (changeWrite key)) (fun k => cl[k]?) := by
  induction chs generalizing cl with
  | nil => rfl
  | cons ch chs ih =>
    obtain ⟨e, he, rfl⟩ := hchs ch mem_cons_self
    rw [Slice.replay_cons, ih fun c hc => hchs c (mem_cons_of_mem _ hc), map_cons, replay_cons]
    congr 1
    funext k
    exact getElem?_changeEdit he cl

lemma of_sent (hpl : ∀ e ∈ edits, e.isTruncate = false)
    (h : sent key filter k edits = some e) : e.isTruncate = false ∧ key e.row = k := by
  obtain ⟨he, hk⟩ := Edit.mem_of_lastUnder (sent_eq_some.mp h).1
  exact ⟨hpl e he, hk⟩

lemma mem_passing (hkeys : SameKeys key keyFields edits)
    (hpl : ∀ e ∈ edits, e.isTruncate = false) (hdiff : DiffOf keyFields edits d)
    {ch : Change V} : ch ∈ d.changes.filter (changeMatchesFilter · filter) ↔
      ∃ k e, sent key filter k edits = some e ∧ ch = e.change keyFields := by
  rw [List.mem_filter, mem_diff hkeys hpl hdiff]
  constructor
  · intro h
    obtain ⟨⟨k, e, hlast, rfl⟩, hpass⟩ := h
    rw [changeMatchesFilter_change (hpl e (Edit.mem_of_lastUnder hlast).1)] at hpass
    exact ⟨k, e, sent_eq_some.mpr ⟨hlast, hpass⟩, rfl⟩
  · intro h
    obtain ⟨k, e, hsent, rfl⟩ := h
    rw [changeMatchesFilter_change (of_sent hpl hsent).1]
    exact ⟨⟨k, e, (sent_eq_some.mp hsent).1, rfl⟩, (sent_eq_some.mp hsent).2⟩

lemma sent_of_writes (hkeys : SameKeys key keyFields edits)
    (hpl : ∀ e ∈ edits, e.isTruncate = false) (hdiff : DiffOf keyFields edits d)
    {w : Overwrite String (Row V)}
    (hw : w ∈ (d.changes.filter (changeMatchesFilter · filter)).map (changeWrite key))
    (hhits : w.hits k = true) : ∃ e, sent key filter k edits = some e ∧ w.value k = e.new := by
  obtain ⟨ch, hch, rfl⟩ := List.mem_map.mp hw
  obtain ⟨k', e, hsent, rfl⟩ := (mem_passing hkeys hpl hdiff).mp hch
  rw [changeWrite_change key keyFields e] at hhits ⊢
  have hk : key e.row = k := by simpa [overwrite] using hhits
  obtain rfl : k' = k := (of_sent hpl hsent).2.symm.trans hk
  exact ⟨e, hsent, rfl⟩

lemma getElem?_replay_diff (hkeys : SameKeys key keyFields edits)
    (hpl : ∀ e ∈ edits, e.isTruncate = false) (hdiff : DiffOf keyFields edits d)
    (cl : Store V) (k : String) :
    (Slice.replay key changeEdit cl (d.changes.filter (changeMatchesFilter · filter)))[k]? =
      (sent key filter k edits).elim cl[k]? Edit.new := by
  have hchs : ∀ ch ∈ d.changes.filter (changeMatchesFilter · filter),
      ∃ e : Edit V, e.isTruncate = false ∧ ch = e.change keyFields := by
    intro ch hch
    obtain ⟨k, e, hsent, rfl⟩ := (mem_passing hkeys hpl hdiff).mp hch
    exact ⟨e, (of_sent hpl hsent).1, rfl⟩
  refine (congrFun (getElem?_replay_changes hchs cl) k).trans ?_
  cases hsent : sent key filter k edits with
  | none =>
    refine replay_of_miss (fun w hw => Bool.eq_false_iff.mpr fun hhits => ?_) _
    obtain ⟨e, hsome, -⟩ := sent_of_writes hkeys hpl hdiff hw hhits
    rw [hsent] at hsome
    cases hsome
  | some e =>
    have hmem := (mem_passing hkeys hpl hdiff).mpr ⟨k, e, hsent, rfl⟩
    refine replay_of_agree ⟨_, List.mem_map_of_mem hmem, ?_⟩ (fun w hw hhits => ?_) _
    · simp [changeWrite_change key keyFields e, overwrite, (of_sent hpl hsent).2]
    · obtain ⟨e', hsome, hvalue⟩ := sent_of_writes hkeys hpl hdiff hw hhits
      rw [hsent] at hsome
      rw [hvalue, ← some.inj hsome]
      rfl

/-! ### Windows

The source is the table at the flushes, and an event is a window of calls between two of them.
-/

def shown (filter : Option (SubscriptionFilter V)) (table : Store V) (k : String) :
    Option (Row V) :=
  (Slice.slice (verdict filter) table)[k]?

def windowWrite (key : Row V → String) (filter : Option (SubscriptionFilter V))
    (edits : List (Edit V)) : Overwrite String (Row V) where
  hits k := (sent key filter k edits).isSome
  value k := (sent key filter k edits).bind Edit.new

/-- No row under the key matches after the window, although one did. Either the last change of the
window under the key is of a row that does not match (or there is none), and a matching row was
there when the window began; or it has put a matching row there, which was moved to another key
since. -/
def Abandons (key : Row V → String) (filter : Option (SubscriptionFilter V)) (k : String)
    (x : Store V × List (Edit V)) : Prop :=
  ((sent key filter k x.2).elim (shown filter x.1 k) Edit.new).isSome ∧
    shown filter (Edit.replayBy key x.1 x.2) k = none

/-- The last change of the window under the key is of a row that matches, and leaves there what the
table has after the window. -/
def Settles (key : Row V → String) (filter : Option (SubscriptionFilter V)) (k : String)
    (x : Store V × List (Edit V)) : Prop :=
  ∃ e, sent key filter k x.2 = some e ∧ e.new = shown filter (Edit.replayBy key x.1 x.2) k

lemma windowWrite_apply (edits : List (Edit V)) (m : String → Option (Row V)) (k : String) :
    (windowWrite key filter edits).apply m k = (sent key filter k edits).elim (m k) Edit.new := by
  unfold windowWrite apply
  cases hsent : sent key filter k edits <;> simp [hsent]

lemma leaves_iff_abandons (k : String) (x : Store V × List (Edit V)) :
    Projection.Leaves (Edit.replayBy key) (shown filter) (fun x => windowWrite key filter x.2) k x ↔
      Abandons key filter k x := by
  unfold Projection.Leaves Abandons
  rw [windowWrite_apply]

lemma settles_iff (k : String) (x : Store V × List (Edit V)) :
    Projection.Settles (Edit.replayBy key) (shown filter) (fun x => windowWrite key filter x.2) k
        x ↔
      Settles key filter k x := by
  unfold Projection.Settles Settles windowWrite
  cases hsent : sent key filter k x.2 <;> simp [hsent]

lemma shows_windows (key : Row V → String) (filter : Option (SubscriptionFilter V)) :
    Projection.Shows (Edit.replayBy key) (fun _ edits => ∀ e ∈ edits, e.isTruncate = false)
      (shown filter) (fun x => windowWrite key filter x.2) := by
  intro table edits k r hpl hshown
  obtain ⟨hr, hok⟩ := Slice.slice_eq_some.mp hshown
  have hlast := Edit.getElem?_replayBy_of_some hpl hr
  rw [windowWrite_apply]
  cases hsome : Edit.lastUnder key k edits with
  | none =>
    rw [hsome] at hlast
    have hnone : sent key filter k edits = none := by simp [sent, hsome]
    rw [hnone]
    exact Slice.slice_eq_some.mpr ⟨hlast, hok⟩
  | some e =>
    rw [hsome] at hlast
    have hnew : e.new = some r := hlast
    have hrow : e.row = r := by simp [Edit.row, hnew, Row.orEmpty]
    rw [sent_eq_some.mpr ⟨hsome, by rw [hrow, hok]⟩]
    exact hnew

section

variable {table : Store V}

lemma shown_after (hpl : ∀ e ∈ edits, e.isTruncate = false)
    (hkp : ∀ e ∈ edits, e.tableChange.KeepsKey key) :
    shown filter (Edit.replayBy key table edits) k =
      ((Edit.lastUnder key k edits).elim table[k]? Edit.new).filter (verdict filter) := by
  rw [shown, Slice.getElem?_slice, Edit.getElem?_replayBy hpl hkp]

lemma filter_new (e : Edit V) :
    e.new.filter (verdict filter) = if verdict filter e.row then e.new else none := by
  obtain ⟨old, new⟩ := e
  cases new with
  | none => simp
  | some new => rfl

lemma abandons_iff (hpl : ∀ e ∈ edits, e.isTruncate = false)
    (hkp : ∀ e ∈ edits, e.tableChange.KeepsKey key) :
    Abandons key filter k (table, edits) ↔ (shown filter table k).isSome ∧
      ∃ e, Edit.lastUnder key k edits = some e ∧ verdict filter e.row = false := by
  unfold Abandons
  rw [shown_after hpl hkp]
  cases hlast : Edit.lastUnder key k edits with
  | none =>
    have hsent : sent key filter k edits = none := by simp [sent, hlast]
    rw [hsent, elim_none, elim_none, shown, Slice.getElem?_slice]
    cases table[k]?.filter (verdict filter) <;> simp
  | some e =>
    rw [elim_some, filter_new]
    cases hok : verdict filter e.row with
    | true => simp [sent_eq_some.mpr ⟨hlast, hok⟩, hok, isSome_iff_ne_none]
    | false =>
      have hsent : sent key filter k edits = none := by
        rw [sent, hlast, filter_some, if_neg (by simp [hok])]
      simp [hsent, hok]

lemma settles_iff_last (hpl : ∀ e ∈ edits, e.isTruncate = false)
    (hkp : ∀ e ∈ edits, e.tableChange.KeepsKey key) :
    Settles key filter k (table, edits) ↔
      ∃ e, Edit.lastUnder key k edits = some e ∧ verdict filter e.row = true := by
  refine exists_congr fun e => ?_
  rw [sent_eq_some, shown_after hpl hkp]
  refine and_iff_left_of_imp fun h => ?_
  rw [h.1, elim_some, filter_new, if_pos h.2]

end

/-- The changes that `streamColdReplay` sends: those of the diffs that pass the filter. -/
def ColdReplay.sentChanges (filter : Option (SubscriptionFilter V)) (cr : ColdReplay V) :
    List (Change V) :=
  cr.diffs.flatMap fun d => d.changes.filter (changeMatchesFilter · filter)

def ColdReplay.applyFiltered (key : Row V → String) (filter : Option (SubscriptionFilter V))
    (cr : ColdReplay V) (client : Store V) : Store V :=
  Slice.replay key changeEdit
    (cr.snapshot.elim client fun base => load key ∅ (filterRows base.2 filter))
    (cr.sentChanges filter)

def ColdReplay.StartsAt (key : Row V → String) (filter : Option (SubscriptionFilter V))
    (cr : ColdReplay V) (client table : Store V) : Prop :=
  match cr.snapshot with
  | none => client = Slice.slice (verdict filter) table
  | some base => Keyed key table ∧ Fanout.Target.Iterates base.2 table

lemma ColdReplay.StartsAt.eq {cr : ColdReplay V} {cl table : Store V}
    (h : cr.StartsAt key filter cl table) :
    (cr.snapshot.elim cl fun base => load key ∅ (filterRows base.2 filter)) =
      Slice.slice (verdict filter) table := by
  unfold ColdReplay.StartsAt at h
  cases hbase : cr.snapshot with
  | none =>
    rw [hbase] at h
    exact h
  | some base =>
    rw [hbase] at h
    obtain ⟨hkd, hrows⟩ := h
    exact (Slice.load_filter (nodup_keys_of_values hkd hrows)).trans
      (congrArg _ (load_values hkd hrows))

lemma replay_diffs {wins : List (List (Edit V))} {diffs : List (ColdDiff V)}
    (hkeys : ∀ edits ∈ wins, SameKeys key keyFields edits)
    (hpl : ∀ edits ∈ wins, ∀ e ∈ edits, e.isTruncate = false)
    (hdiffs : List.Forall₂ (DiffOf keyFields) wins diffs) (cl : Store V) :
    (fun k => (Slice.replay key changeEdit cl
        (diffs.flatMap fun d => d.changes.filter (changeMatchesFilter · filter)))[k]?) =
      replay (wins.map (windowWrite key filter)) (fun k => cl[k]?) := by
  induction hdiffs generalizing cl with
  | nil => rfl
  | @cons edits d wins diffs hdiff _ ih =>
    rw [flatMap_cons, Slice.replay_append, map_cons, replay_cons,
      ih (fun w hw => hkeys w (mem_cons_of_mem _ hw))
        fun w hw => hpl w (mem_cons_of_mem _ hw)]
    congr 1
    funext k
    rw [windowWrite_apply]
    exact getElem?_replay_diff (hkeys edits mem_cons_self) (hpl edits mem_cons_self)
      hdiff cl k

/-- **Filtered replays.** A client that has the matching rows of the table where the diffs begin, or
gets them as the base, has the matching rows of the table at the end if and only if every key that a
window abandons is settled by a later window. -/
theorem filtered_replay_iff (key : Row V → String) (keyFields : List String)
    (filter : Option (SubscriptionFilter V)) (table client : Store V)
    (windows : List (List (Edit V))) (cr : ColdReplay V)
    (hkeys : ∀ edits ∈ windows, SameKeys key keyFields edits)
    (hplain : ∀ edits ∈ windows, ∀ e ∈ edits, e.isTruncate = false)
    (hdiffs : List.Forall₂ (DiffOf keyFields) windows cr.diffs)
    (hstart : cr.StartsAt key filter client table) :
    cr.applyFiltered key filter client =
        Slice.slice (verdict filter) (Edit.replayBy key table windows.flatten) ↔
      ∀ k, ¬ Left (Abandons key filter k) (Settles key filter k)
        (Projection.met (Edit.replayBy key) table windows) := by
  have hend : Edit.replayBy key table windows.flatten = windows.foldl (Edit.replayBy key) table :=
    foldl_flatten
  have hclient : (fun k => (cr.applyFiltered key filter client)[k]?) =
      replay (windows.map (windowWrite key filter)) (shown filter table) := by
    unfold ColdReplay.applyFiltered ColdReplay.sentChanges
    rw [hstart.eq]
    exact replay_diffs hkeys hplain hdiffs _
  have hal : Along (Edit.replayBy key)
      (fun _ edits => ∀ e ∈ edits, e.isTruncate = false) table windows :=
    Along.of_forall hplain table
  have hcopy := (shows_windows key filter).copy_iff hal
  rw [Projection.map_met _ (windowWrite key filter), ← hclient, ← hend] at hcopy
  have hext : cr.applyFiltered key filter client =
        Slice.slice (verdict filter) (Edit.replayBy key table windows.flatten) ↔
      (fun k => (cr.applyFiltered key filter client)[k]?) =
        shown filter (Edit.replayBy key table windows.flatten) := by
    refine ⟨fun h => by rw [h]; rfl, fun h => Std.ExtTreeMap.ext_getElem? fun k => congrFun h k⟩
  rw [hext, hcopy]
  exact forall_congr' fun k => not_congr
    (left_congr fun x _ => ⟨leaves_iff_abandons k x, settles_iff k x⟩)

def regionColumns : List ColumnDefinition := [⟨"id", true, 1⟩]

def euFilter : Option (SubscriptionFilter Text) :=
  some ⟨[⟨"region", .equals (some "eu")⟩]⟩

def flushed (edits : List (Edit Text)) : ColdDiff Text :=
  ⟨"", (Edit.collect ["id"] ∅ edits).toList.map Prod.snd⟩

lemma diffOf_flushed (edits : List (Edit Text)) :
    DiffOf ["id"] edits (flushed edits) := List.Perm.refl _

lemma sameKeys_region (edits : List (Edit Text)) :
    SameKeys (Fanout.buildKey regionColumns) ["id"] edits := fun _ _ _ _ => Iff.rfl

/-- A matching row is deleted and its key is used again for a row that does not match, with no flush
in between. -/
theorem reinserted_key_keeps_row : let key := Fanout.buildKey regionColumns
    let table : Store Text := load key ∅ [regionRow "1" "eu"]
    let client := Slice.slice (verdict euFilter) table
    let edits : List (Edit Text) :=
      [⟨some (regionRow "1" "eu"), none⟩, ⟨none, some (regionRow "1" "us")⟩]
    let cr : ColdReplay Text := ⟨none, [flushed edits], 0⟩
    compileSubscriptionFilter [⟨"region", some (.equals (some "eu"))⟩] = .ok euFilter ∧
      Along (fun table e => e.tableChange.apply key table)
        (fun table e => e.tableChange.Fits key table) table edits ∧
      (∀ e ∈ edits, e.isTruncate = false ∧ (e.old = none ∨ e.new = none)) ∧
      SameKeys key ["id"] edits ∧ List.Forall₂ (DiffOf ["id"]) [edits] cr.diffs ∧
      cr.StartsAt key euFilter client table ∧
      (cr.applyFiltered key euFilter client)["1"]? = some (regionRow "1" "eu") ∧
      (Slice.slice (verdict euFilter) (Edit.replayBy key table edits))["1"]? = none := by
  intro key table client edits cr
  refine ⟨rfl, by decide +kernel, ?_, sameKeys_region edits, .cons (diffOf_flushed edits) .nil, rfl,
    by decide +kernel, by decide +kernel⟩
  simp [edits, Edit.isTruncate]

theorem filtered_replay_iff_reinserted : let key := Fanout.buildKey regionColumns
    let table : Store Text :=
      load key ∅ [regionRow "1" "eu", regionRow "2" "us"]
    let first : List (Edit Text) :=
      [⟨some (regionRow "1" "eu"), none⟩, ⟨none, some (regionRow "1" "us")⟩,
        ⟨none, some (regionRow "3" "eu")⟩]
    let second : List (Edit Text) :=
      [⟨some (regionRow "1" "us"), none⟩, ⟨none, some (regionRow "1" "eu")⟩]
    let cr : ColdReplay Text :=
      ⟨some ("archive-1", [regionRow "2" "us", regionRow "1" "eu"]),
        [flushed first, flushed second], 0⟩
    cr.applyFiltered key euFilter ∅ =
      Slice.slice (verdict euFilter) (Edit.replayBy key table [first, second].flatten) := by
  intro key table first second cr
  have hfst : ∀ e ∈ first, e.isTruncate = false ∧ e.tableChange.KeepsKey key := by
    simp [first, Edit.isTruncate, Edit.tableChange, TableChange.KeepsKey]
  have hsecond : ∀ e ∈ second, e.isTruncate = false ∧ e.tableChange.KeepsKey key := by
    simp [second, Edit.isTruncate, Edit.tableChange, TableChange.KeepsKey]
  have hpl : ∀ edits ∈ [first, second], ∀ e ∈ edits, e.isTruncate = false := by
    simp [first, second, Edit.isTruncate]
  have hlastOne : Edit.lastUnder key "1" second = some ⟨none, some (regionRow "1" "eu")⟩ := rfl
  refine (filtered_replay_iff key ["id"] euFilter table ∅ [first, second] cr
    (fun edits _ => sameKeys_region edits) hpl
    (.cons (diffOf_flushed first) (.cons (diffOf_flushed second) .nil))
    ⟨Keyed.empty.load _, by decide +kernel⟩).mpr fun k => ?_
  rw [Projection.met_cons, Projection.met_cons, Projection.met_nil, left_cons,
    left_cons, abandons_iff (fun e he => (hfst e he).1) fun e he => (hfst e he).2,
    abandons_iff (fun e he => (hsecond e he).1) fun e he => (hsecond e he).2]
  rintro ((hnil | ⟨⟨-, e, hlast, hok⟩, -⟩) | ⟨⟨-, e, hlast, hok⟩, hsett⟩)
  · exact not_left_nil hnil
  · -- the last change of the second window under its only key is of a row that matches
    obtain ⟨he, rfl⟩ := Edit.mem_of_lastUnder hlast
    have hkey : ∀ e ∈ second, key e.row = "1" := by decide +kernel
    rw [hkey e he, hlastOne] at hlast
    cases hlast
    exact absurd hok (by decide +kernel)
  · -- the first window abandons one key, and the second settles it
    obtain ⟨he, rfl⟩ := Edit.mem_of_lastUnder hlast
    have hkey : ∀ e ∈ first, verdict euFilter e.row = false → key e.row = "1" := by decide +kernel
    refine hsett _ mem_cons_self ((settles_iff_last (fun e he => (hsecond e he).1)
      fun e he => (hsecond e he).2).mpr ?_)
    rw [hkey e he hok]
    exact ⟨_, hlastOne, by decide +kernel⟩

end Replication

end Laredo
