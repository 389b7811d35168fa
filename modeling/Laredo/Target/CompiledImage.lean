import Laredo.Target.Overwritten
import Laredo.Engine.SyncTarget

/-!
# Compiled image

A compiled target should hold the **image** of its table: for each row that passes the filter and
compiles, the compiled object and the row.
-/

namespace Laredo.Memory.CompiledTarget

open Fanout KeyedMap Projection List Option Overwrite Row

variable {C P V : Type} [GoValue V]

omit [GoValue V] in
def entry (c : CompiledTarget C V) (row : Row V) : Option (CompiledEntry C V) :=
  if c.refuses row then none else (c.compiler row).map fun compiled => ⟨compiled, row⟩

def image (c : CompiledTarget C V) (table : Store V) (k : String) : Option (CompiledEntry C V) :=
  table[k]?.bind c.entry

variable {c : CompiledTarget C V}

omit [GoValue V] in
lemma row_of_entry {row : Row V} {e : CompiledEntry C V} (h : c.entry row = some e) :
    e.row = row := by
  unfold entry at h
  split at h
  · cases h
  · obtain ⟨compiled, -, rfl⟩ := map_eq_some_iff.mp h
    rfl

lemma insertRow_eq (c : CompiledTarget C V) (row : Row V) : c.insertRow row =
    { c with store := (c.entry row).elim c.store (c.store.insert (buildKey c.keyFields row)) } := by
  unfold insertRow entry
  cases c.refuses row with
  | true => rfl
  | false => cases c.compiler row <;> rfl

lemma foldl_insertRow (c : CompiledTarget C V) (rows : List (Row V)) :
    rows.foldl insertRow c = { c with
      store := load (fun e => buildKey c.keyFields e.row) c.store
        (rows.filterMap c.entry) } := by
  induction rows generalizing c with
  | nil => rfl
  | cons row rows ih =>
    rw [foldl_cons, ih, insertRow_eq]
    cases hent : c.entry row with
    | none =>
      rw [filterMap_cons_none hent]
      rfl
    | some e =>
      rw [filterMap_cons_some hent, load_cons, put, row_of_entry hent]
      rfl

lemma load_image {table : Store V} (hkd : Keyed (buildKey c.keyFields) table)
    {store : Std.ExtTreeMap String (CompiledEntry C V)} (hst : held store = c.image table)
    {rows : List (Row V)} (hrows : Target.Iterates rows table) :
    load (fun e => buildKey c.keyFields e.row) ∅ (rows.filterMap c.entry) = store := by
  have hhl : ∀ k : String, store[k]? = table[k]?.bind c.entry := fun k => congrFun hst k
  refine load_eq (fun k e he => by simp at he) ?_ ?_ ?_
  · intro e he
    obtain ⟨row, hrow, hent⟩ := List.mem_filterMap.mp he
    rw [hhl, row_of_entry hent, (mem_values hkd hrows row).mp hrow]
    exact hent
  · intro k e he
    rw [hhl] at he
    obtain ⟨row, hrow, hent⟩ := bind_eq_some_iff.mp he
    exact .inl (List.mem_filterMap.mpr ⟨row, hrows.mem_iff_exists.mpr ⟨k, hrow⟩, hent⟩)
  · intro k e he
    rw [hhl] at he
    obtain ⟨row, hrow, hent⟩ := bind_eq_some_iff.mp he
    show buildKey c.keyFields e.row = k
    rw [row_of_entry hent]
    exact hkd k row hrow

/-- The change is an update of the row under `k`, which has an entry, to a version that passes the
filter and does not compile. -/
def Skips (c : CompiledTarget C V) (k : String) : Store V × TableChange V → Prop
  | (table, .update row (some identity)) => buildKey c.keyFields identity = k ∧
      (c.image table k).isSome ∧ c.refuses row = false ∧ c.compiler row = none
  | _ => False

def Writes (P : Type) (c : CompiledTarget C V) (k : String) (x : Store V × TableChange V) : Prop :=
  (c.overwrite (x.2.op : Op P V)).hits k = true

omit [GoValue V] in
lemma entry_of_not_compiled {row : Row V} (h : c.compiler row = none) : c.entry row = none := by
  simp [entry, h]

lemma overwrite_insert (c : CompiledTarget C V) (row : Row V) :
    c.overwrite ((TableChange.insert row).op : Op P V) =
      (c.entry row).elim .skip (.set (buildKey c.keyFields row)) := by
  cases href : c.refuses row <;> cases hcomp : c.compiler row <;>
    simp [TableChange.op, overwrite, entry, href, hcomp]

lemma overwrite_update (c : CompiledTarget C V) (row identity : Row V) :
    c.entry row = none ∧ c.overwrite ((TableChange.update row (some identity)).op : Op P V) =
        .delete (buildKey c.keyFields identity) ∨
      (c.refuses row = false ∧ c.compiler row = none) ∧
        c.overwrite ((TableChange.update row (some identity)).op : Op P V) = .skip ∨
      ∃ e, c.entry row = some e ∧
        c.overwrite ((TableChange.update row (some identity)).op : Op P V) =
          .move (buildKey c.keyFields identity) (buildKey c.keyFields row) e := by
  cases href : c.refuses row <;> cases hcomp : c.compiler row <;>
    simp [TableChange.op, overwrite, entry, href, hcomp, orEmpty]

section

variable {table : Store V} {k : String} {row : Row V}

lemma image_insert : c.image ((TableChange.insert row).apply (buildKey c.keyFields) table) k =
      if buildKey c.keyFields row = k then c.entry row else c.image table k := by
  by_cases hrow : buildKey c.keyFields row = k <;>
    simp [image, TableChange.apply, getElem?_put, hrow]

variable {identity : Row V}

lemma image_update :
    c.image ((TableChange.update row (some identity)).apply (buildKey c.keyFields) table) k =
      if buildKey c.keyFields row = k then c.entry row
      else if buildKey c.keyFields identity = k then none else c.image table k := by
  by_cases hrow : buildKey c.keyFields row = k
  · simp [image, TableChange.apply, getElem?_put, hrow]
  · by_cases hiden : buildKey c.keyFields identity = k <;>
      simp [image, TableChange.apply, getElem?_put, getElem?_erase, hrow, hiden]

lemma image_delete {identity : Option (Row V)} :
    c.image ((TableChange.delete identity).apply (buildKey c.keyFields) table) k =
      if buildKey c.keyFields (orEmpty identity) = k then none else c.image table k := by
  by_cases hkey : buildKey c.keyFields (orEmpty identity) = k <;>
    simp [image, TableChange.apply, getElem?_erase, hkey]

omit [GoValue V] in
lemma image_of_free (h : table[k]? = none) : c.image table k = none := by
  rw [image, h]
  rfl

lemma writes_update
    (hhits : (c.overwrite ((TableChange.update row (some identity)).op : Op P V)).hits k = true) :
    (c.overwrite ((TableChange.update row (some identity)).op : Op P V)).value k =
      c.image ((TableChange.update row (some identity)).apply (buildKey c.keyFields) table) k := by
  rw [image_update]
  rcases c.overwrite_update (P := P) row identity with
    ⟨hent, hwrite⟩ | ⟨-, hwrite⟩ | ⟨e, hent, hwrite⟩
  · rw [hwrite] at hhits ⊢
    have hkey := of_decide_eq_true hhits
    simp [Overwrite.delete, hent, hkey]
  · rw [hwrite] at hhits
    cases hhits
  · rw [hwrite] at hhits ⊢
    by_cases hrow : buildKey c.keyFields row = k
    · simp [Overwrite.move, hrow, hent]
    · have hkey := (of_decide_eq_true hhits).resolve_left hrow
      simp [Overwrite.move, hrow, hkey]

lemma image_update_of_none (hent : c.entry row = none)
    (hfits : (TableChange.update row (some identity)).FitsByKey (buildKey c.keyFields) table)
    (hkey : buildKey c.keyFields identity ≠ k) :
    c.image ((TableChange.update row (some identity)).apply (buildKey c.keyFields) table) k =
      c.image table k := by
  rw [image_update, if_neg hkey]
  by_cases hrow : buildKey c.keyFields row = k
  · have hnone := hfits.2.resolve_left fun hsame => hkey (hsame.symm.trans hrow)
    rw [if_pos hrow, hent, ← hrow, image_of_free hnone]
  · rw [if_neg hrow]

lemma keeps_update
    (hfits : (TableChange.update row (some identity)).FitsByKey (buildKey c.keyFields) table)
    (hmiss : (c.overwrite ((TableChange.update row (some identity)).op : Op P V)).hits k = false)
    (hskips : ¬ c.Skips k (table, .update row (some identity))) :
    c.image ((TableChange.update row (some identity)).apply (buildKey c.keyFields) table) k =
      c.image table k := by
  rcases c.overwrite_update (P := P) row identity with
    ⟨hent, hwrite⟩ | ⟨⟨href, hcomp⟩, -⟩ | ⟨e, hent, hwrite⟩
  · rw [hwrite] at hmiss
    exact image_update_of_none hent hfits (of_decide_eq_false hmiss)
  · have hent := entry_of_not_compiled hcomp
    by_cases hkey : buildKey c.keyFields identity = k
    · -- there was no entry to lose
      have hnone : c.image table k = none := by
        by_contra hsome
        exact hskips ⟨hkey, isSome_iff_ne_none.mpr hsome, href, hcomp⟩
      rw [image_update, hnone, hent, if_pos hkey, ite_self]
    · exact image_update_of_none hent hfits hkey
  · rw [hwrite] at hmiss
    obtain ⟨hrow, hkey⟩ := not_or.mp (of_decide_eq_false hmiss)
    rw [image_update, if_neg hrow, if_neg hkey]

end

lemma follows (c : CompiledTarget C V) :
    Follows (fun table ch => ch.apply (buildKey c.keyFields) table)
      (fun table ch => ch.FitsByKey (buildKey c.keyFields) table) c.image
      (fun x => c.overwrite (x.2.op : Op P V)) c.Skips where
  writes := by
    intro table ch k hfits hhits
    cases ch with
    | insert row =>
      rw [image_insert]
      rw [overwrite_insert] at hhits ⊢
      cases hent : c.entry row with
      | none => rw [hent] at hhits; cases hhits
      | some e =>
        rw [hent] at hhits
        rw [if_pos (of_decide_eq_true hhits)]
        rfl
    | update row identity =>
      cases identity with
      | none => exact hfits.elim
      | some identity => exact writes_update hhits
    | delete identity =>
      have hkey := of_decide_eq_true hhits
      rw [image_delete, if_pos hkey]
      rfl
    | truncate => simp [TableChange.op, overwrite, Overwrite.clear, TableChange.apply, image]
  misses := by
    rintro ⟨table, ch⟩ k hskips
    cases ch with
    | update row identity =>
      cases identity with
      | none => cases hskips
      | some identity =>
        obtain ⟨-, -, href, hcomp⟩ := hskips
        simp [TableChange.op, overwrite, href, hcomp, Overwrite.skip]
    | insert | delete | truncate => cases hskips
  lost := by
    rintro table ch k hfits hskips
    cases ch with
    | update row identity =>
      cases identity with
      | none => cases hskips
      | some identity =>
        obtain ⟨hkey, hsome, -, hcomp⟩ := hskips
        refine ⟨hsome, ?_⟩
        rw [image_update, entry_of_not_compiled hcomp, if_pos hkey, ite_self]
    | insert | delete | truncate => cases hskips
  keeps := by
    intro table ch k hfits hmiss hskips
    cases ch with
    | insert row =>
      rw [image_insert]
      by_cases hkey : buildKey c.keyFields row = k
      · -- the row has no entry, and there was none under its key
        rw [if_pos hkey, ← hkey, image_of_free hfits]
        cases hent : c.entry row with
        | none => rfl
        | some e => simp [overwrite_insert, hent, Overwrite.set, hkey] at hmiss
      · rw [if_neg hkey]
    | update row identity =>
      cases identity with
      | none => exact hfits.elim
      | some identity => exact keeps_update hfits hmiss hskips
    | delete identity => rw [image_delete, if_neg (of_decide_eq_false hmiss)]
    | truncate => cases hmiss

def WellFormed (c : CompiledTarget C V) (table : Store V) (history : List (TableChange V)) : Prop :=
  Stale.Along (fun table ch => ch.apply (buildKey c.keyFields) table)
    (fun table ch => ch.FitsByKey (buildKey c.keyFields) table) table history

instance (c : CompiledTarget C V) (table : Store V) (history : List (TableChange V)) :
    Decidable (c.WellFormed table history) :=
  inferInstanceAs (Decidable (Stale.Along _ _ _ _))

def tableAfter (c : CompiledTarget C V) (table : Store V) (history : List (TableChange V)) :
    Store V :=
  history.foldl (fun table ch => ch.apply (buildKey c.keyFields) table) table

def deliver (P : Type) (c : CompiledTarget C V) (history : List (TableChange V)) :
    CompiledTarget C V :=
  history.foldl (fun c ch => c.apply (ch.op : Op P V)) c

/-- The target holds the image of the table, which is what a restore from the rows of the table
and a baseline of a new target build. -/
structure HoldsImage (c : CompiledTarget C V) (table : Store V) : Prop where
  image : ∀ k : String, c.store[k]? = c.image table k
  restored : ∀ {rows : List (Row V)}, Target.Iterates rows table →
    (c.restoreSnapshot rows).store = c.store
  baseline : ∀ {rows : List (Row V)}, Target.Iterates rows table →
    (rows.foldl insertRow (new c.compiler c.keyFields c.filter)).store = c.store

lemma HoldsImage.of_image {table : Store V} (hkd : Keyed (buildKey c.keyFields) table)
    (h : held c.store = c.image table) : c.HoldsImage table where
  image k := congrFun h k
  restored hrows := by
    rw [restoreSnapshot, foldl_insertRow]
    exact load_image hkd h hrows
  baseline hrows := by
    rw [foldl_insertRow]
    exact load_image hkd h hrows

structure SameConfig (c c' : CompiledTarget C V) : Prop where
  compiler : c.compiler = c'.compiler
  keyFields : c.keyFields = c'.keyFields
  filter : c.filter = c'.filter

omit [GoValue V] in
lemma SameConfig.image {c c' : CompiledTarget C V} (h : c.SameConfig c') : c.image = c'.image := by
  unfold CompiledTarget.image entry refuses
  rw [h.compiler, h.filter]

lemma sameConfig_apply (c : CompiledTarget C V) (op : Op P V) :
    (c.apply op).SameConfig c := by
  cases op with
  | onBaselineRow row | onInsert row => simp only [apply, insertRow_eq]; exact ⟨rfl, rfl, rfl⟩
  | onUpdate row identity =>
    simp only [apply, onUpdate_eq, onDelete_eq]
    cases c.refuses row with
    | true => exact ⟨rfl, rfl, rfl⟩
    | false => cases c.compiler row <;> exact ⟨rfl, rfl, rfl⟩
  | onDelete identity => simp only [apply, onDelete_eq]; exact ⟨rfl, rfl, rfl⟩
  | onBaselineComplete | setChangePosition _ | onTruncate => exact ⟨rfl, rfl, rfl⟩

lemma sameConfig_deliver (c : CompiledTarget C V) (hist : List (TableChange V)) :
    (c.deliver P hist).SameConfig c := by
  induction hist generalizing c with
  | nil => exact ⟨rfl, rfl, rfl⟩
  | cons ch hist ih =>
    have hfst := c.sameConfig_apply (ch.op : Op P V)
    have hrest := ih (c.apply (ch.op : Op P V))
    exact ⟨hrest.compiler.trans hfst.compiler, hrest.keyFields.trans hfst.keyFields,
      hrest.filter.trans hfst.filter⟩

lemma held_deliver (c : CompiledTarget C V) (hist : List (TableChange V)) :
    held (c.deliver P hist).store =
      Overwrite.replay (hist.map fun ch => c.overwrite (ch.op : Op P V))
        (held c.store) := by
  have hstep : ∀ (c' : CompiledTarget C V) (ch : TableChange V),
      c'.overwrite = (c.overwrite : Op P V → _) →
      (c'.apply (ch.op : Op P V)).overwrite = (c.overwrite : Op P V → _) ∧
        held (c'.apply (ch.op : Op P V)).store =
          (c.overwrite (ch.op : Op P V)).apply (held c'.store) := by
    intro c' ch hc'
    obtain ⟨hsame, hhl⟩ := c'.apply_overwrites (ch.op : Op P V)
    exact ⟨hsame.trans hc', by rw [hhl, hc']⟩
  exact (view_foldl (fun c' : CompiledTarget C V => held c'.store)
    (fun c' => c'.overwrite = (c.overwrite : Op P V → _)) hstep rfl hist).2

/-- **A compiled target holds the image of its table** if and only if every update of a row with an
entry that passes the filter and does not compile is followed by a change that writes the key of
that entry. -/
theorem compiled_image_iff {table : Store V} (hkeyed : Keyed (buildKey c.keyFields) table)
    (hstart : ∀ k : String, c.store[k]? = c.image table k) {history : List (TableChange V)}
    (hwf : c.WellFormed table history) :
    (c.deliver P history).HoldsImage (c.tableAfter table history) ↔
      ∀ k, ¬ Stale.Left (c.Skips k) (c.Writes P k)
        (met (fun table ch => ch.apply (buildKey c.keyFields) table) table history) := by
  have hconfig := c.sameConfig_deliver (P := P) history
  have hmap := map_met (fun table ch => ch.apply (buildKey c.keyFields) table)
    (fun ch : TableChange V => c.overwrite (ch.op : Op P V)) table history
  have hcopy := (c.follows (P := P)).copy_iff hwf
  rw [hmap, ← (funext hstart : held c.store = c.image table), ← c.held_deliver] at hcopy
  refine Iff.trans ⟨fun h => ?_, fun h => ?_⟩ hcopy
  · rw [← hconfig.image]
    exact funext h.image
  · refine .of_image ?_ (h.trans (congrFun hconfig.image.symm _))
    rw [hconfig.keyFields]
    exact TableChange.keyed_foldl hkeyed history

def priorities : CompiledTarget String Text :=
  .new (fun row => (row.get "priority").filter fun p => p.length == 1) ["id"]
    (some fun row => row.get "hidden" != some "yes")

def job (id priority hidden : String) : Row Text :=
  .ofList [("id", some id), ("priority", some priority), ("hidden", some hidden)]

/-- The priority of job 1 is changed to one that does not compile: the object of the version before
stays, where a restore from the same table has none. -/
theorem update_not_compiled_keeps_entry : let history : List (TableChange Text) :=
      [.insert (job "1" "a" "no"), .update (job "1" "urgent" "no") (some (job "1" "a" "no"))]
    let c := priorities.deliver Int history
    let table := priorities.tableAfter ∅ history
    priorities.WellFormed ∅ history ∧ c.image table "1" = none ∧
      c.store["1"]?.map (·.compiled) = some "a" ∧
      (c.restoreSnapshot (table.toList.map Prod.snd)).store["1"]?.isSome = false ∧
      ¬ c.HoldsImage table := by
  intro history c table
  have himage : c.image table "1" = none := by decide +kernel
  have hst : c.store["1"]?.isSome = true := by decide +kernel
  refine ⟨by decide +kernel, himage, by decide +kernel, by decide +kernel, fun h => ?_⟩
  rw [h.image, himage] at hst
  cases hst

theorem compiled_image_iff_run : let history : List (TableChange Text) :=
      [.insert (job "1" "a" "no"), .insert (job "2" "b" "no"),
        .update (job "1" "a" "yes") (some (job "1" "a" "no")),
        .update (job "1" "c" "no") (some (.ofList [("id", some "1")])),
        .update (job "1" "urgent" "no") (some (job "1" "c" "no")),
        .update (job "1" "d" "no") (some (job "1" "urgent" "no")),
        .update (job "3" "b" "no") (some (.ofList [("id", some "2")]))]
    let c := priorities.deliver Int history
    c.HoldsImage (priorities.tableAfter ∅ history) ∧ c.store.keys = ["1", "3"] := by
  intro history c
  have hwf : priorities.WellFormed ∅ history := by decide +kernel
  have hst0 : ∀ k : String, priorities.store[k]? = priorities.image ∅ k := fun k => by
    simp [priorities, new, image]
  have hno : ∀ {table : Store Text} {row identity : Row Text} {k : String},
      (priorities.refuses row || (priorities.compiler row).isSome) = true →
      ¬ priorities.Skips k (table, .update row (some identity)) := by
    rintro table row identity k hrow ⟨-, -, href, hcomp⟩
    simp [href, hcomp] at hrow
  refine ⟨(compiled_image_iff Keyed.empty hst0 hwf).mpr fun k => ?_, by decide +kernel⟩
  simp only [history, met_cons, met_nil, Stale.left_cons, Stale.not_left_nil, false_or]
  rintro ((((((h | h) | h) | h) | h) | h) | h)
  · exact hno (by decide +kernel) h.1
  · exact hno (by decide +kernel) h.1
  · -- the next change writes the key
    obtain ⟨⟨rfl, -⟩, haft⟩ := h
    exact haft _ mem_cons_self (by show _ = true; decide +kernel)
  · exact hno (by decide +kernel) h.1
  · exact hno (by decide +kernel) h.1
  · exact h.1
  · exact h.1

end Laredo.Memory.CompiledTarget
