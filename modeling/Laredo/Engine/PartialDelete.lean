import Laredo.Engine.FilteredImage
import Laredo.Source.Pg

/-!
# Partial delete

Deletes with an incomplete old row.
-/

namespace Laredo.Engine

open Memory TableChange Row

variable {P V : Type} [GoValue V]

/-- What may be sent of a row: its key columns, and of every other column the value or nil. -/
structure PartOf (pkCols : List String) (sent row : Row V) : Prop where
  key : ∀ col ∈ pkCols, sent.get col = row.get col
  rest : ∀ col, sent.get col = row.get col ∨ sent.get col = GoValue.nil

namespace ResolvedPipeline

variable (p : ResolvedPipeline V) (pkCols : List String)

def passes (row : Row V) : Bool := p.applyFilters p.table (some row)

/-- The change can be made to the table, an update does not change what the filters say of its row,
and a delete comes with a part of its row. -/
def Steady (table : Store V) (ch : TableChange V) : Prop :=
  ch.FitsAsSent (buildKey pkCols) table ∧
    match ch with
    | .update row (some identity) => ∀ old,
        table[buildKey pkCols identity]? = some old → p.passes row = p.passes old
    | .update row none => ∀ old,
        table[buildKey pkCols row]? = some old → p.passes row = p.passes old
    | .delete identity => ∃ sent row, identity = some sent ∧
        table[buildKey pkCols sent]? = some row ∧ PartOf pkCols sent row
    | _ => True

/-- The change is a delete of the row under `k`, which passes the filters, and what was sent of the
row does not. -/
def Hides (k : String) : Store V × TableChange V → Prop
  | (table, .delete (some sent)) => buildKey pkCols sent = k ∧
      (∃ row, table[k]? = some row ∧ p.passes row = true) ∧ p.passes sent = false
  | _ => False

variable {p pkCols}

omit [GoValue V] in
lemma image_of_no_transforms (htrf : p.transforms = []) (row : Row V) :
    p.image row = if p.passes row then some row else none := by
  unfold image applyFiltersAndTransforms
  rw [htrf]
  rfl

omit [GoValue V] in
lemma bind_image_eq_some_iff (htrf : p.transforms = []) (table : Store V) (k : String)
    (row : Row V) :
    table[k]?.bind p.image = some row ↔ table[k]? = some row ∧ p.passes row = true := by
  rw [Option.bind_eq_some_iff]
  constructor
  · rintro ⟨old, hold, himage⟩
    rw [image_of_no_transforms htrf] at himage
    split at himage
    · next hpasses =>
        obtain rfl := Option.some.inj himage
        exact ⟨hold, hpasses⟩
    · cases himage
  · rintro ⟨hrow, hpasses⟩
    exact ⟨row, hrow, by rw [image_of_no_transforms htrf, if_pos hpasses]⟩

lemma Steady.drops_iff (htrf : p.transforms = []) {table : Store V} {ch : TableChange V}
    (h : p.Steady pkCols table ch) (k : String) :
    p.Drops (buildKey pkCols) k (table, ch) ↔ p.Hides pkCols k (table, ch) := by
  obtain ⟨-, hsteady⟩ := h
  cases ch with
  | insert row | truncate => exact Iff.rfl
  | update row identity =>
    have hstays : ∀ k' : String, (∀ old, table[k']? = some old → p.passes row = p.passes old) →
        (table[k']?.bind p.image).isSome → p.image row ≠ none := by
      intro k' hverdict hsome hnone
      obtain ⟨row', hrow'⟩ := Option.isSome_iff_exists.mp hsome
      obtain ⟨hold, hpasses⟩ := (bind_image_eq_some_iff htrf _ _ row').mp hrow'
      rw [image_of_no_transforms htrf, hverdict row' hold, hpasses] at hnone
      cases hnone
    cases identity with
    | none | some identity => exact iff_of_false (fun h => hstays k (h.1 ▸ hsteady) h.2.1 h.2.2) id
  | delete identity =>
    obtain ⟨sent, row, rfl, -, -⟩ := hsteady
    refine and_congr_right fun _ => and_congr_left fun _ => ?_
    simp only [Option.isSome_iff_exists, bind_image_eq_some_iff htrf]

end ResolvedPipeline

def HoldsPassing (p : ResolvedPipeline V) (t : IndexedTarget V) (table : Store V) : Prop :=
  ∀ (k : String) (row : Row V), t.store[k]? = some row ↔ table[k]? = some row ∧ p.passes row = true

omit [GoValue V] in
lemma holdsPassing_iff {p : ResolvedPipeline V} (htrf : p.transforms = [])
    {t : IndexedTarget V} {table : Store V} :
    HoldsPassing p t table ↔ HoldsImage p t table := by
  refine forall_congr' fun k => ?_
  rw [Option.ext_iff]
  refine forall_congr' fun row => ?_
  rw [ResolvedPipeline.bind_image_eq_some_iff htrf]

/-- **Deletes with incomplete old rows.** The target holds exactly the rows of the table that pass
the filters, if and only if every delete of such a row that the filters refuse to see is followed
by a change that is passed on and writes the row's key. -/
theorem partial_deletes_iff {p : ResolvedPipeline V} (httl : p.ttlFunc = none)
    (htransforms : p.transforms = []) {t : IndexedTarget V} {table : Store V}
    (hstart : HoldsPassing p t table) {history : List (P × TableChange V)}
    (hsteady : Stale.Along (fun table ch => ch.apply (buildKey t.pkCols) table)
      (p.Steady t.pkCols) table (history.map Prod.snd)) (now : Int) :
    HoldsPassing p ((history.map (event p.table)).foldl (p.deliver now) t)
        (replay (buildKey t.pkCols) table history) ↔
      ∀ k, ¬ Stale.Left (p.Hides t.pkCols k) (fun x => p.Writes (buildKey t.pkCols) k x.2)
        (Projection.met (fun table ch => ch.apply (buildKey t.pkCols) table) table
          (history.map Prod.snd)) := by
  have hkeep : p.TransformsKeep (buildKey t.pkCols) := by
    intro transform htran
    rw [htransforms] at htran
    cases htran
  have hiff := holdsImage_iff httl hkeep ((holdsPassing_iff htransforms).mp hstart)
    (hsteady.mono fun _ _ h => h.1) now
  rw [holdsPassing_iff htransforms, hiff]
  refine forall_congr' fun k => not_congr (Stale.left_congr fun x hx => ?_)
  exact ⟨(Projection.of_mem_met hsteady x hx).drops_iff htransforms k, Iff.rfl⟩

def activeJobs : ResolvedPipeline Text :=
  { table := ⟨"public", "jobs"⟩
    filters := [fun _ row => (orEmpty row).get "state" == some "active"] }

/-- What PostgreSQL sends of job `id` when it is deleted, under the default replica identity, as
the source decodes it. -/
def sentKey (id : String) : Option (Row Text) :=
  Pg.tupleToRow some ⟨1, "public", "jobs", ["id", "state"]⟩ (some [.text id, .null])

lemma partOf_sentKey : PartOf ["id"] (orEmpty (sentKey "1")) (job "1" "active") := by
  refine ⟨by decide +kernel, fun col => ?_⟩
  by_cases hid : "id" = col
  · exact .inl (by rw [← hid]; decide +kernel)
  · refine .inr ?_
    by_cases hstt : "state" = col
    · rw [← hstt]
      decide +kernel
    · simp [sentKey, Pg.tupleToRow, orEmpty, Row.get, hid, hstt]

/-- Job 1 is active and is deleted. The filter does not see its state, and the target keeps it. -/
theorem partial_delete_is_dropped : let history : List (Int × TableChange Text) :=
      [(1, .insert (job "1" "active")), (2, .delete (sentKey "1"))]
    let t := (history.map (event activeJobs.table)).foldl (activeJobs.deliver 0) jobsTarget
    let table := replay (buildKey ["id"]) ∅ history
    Stale.Along (fun table ch => ch.apply (buildKey ["id"]) table)
        (activeJobs.Steady ["id"]) ∅ (history.map Prod.snd) ∧
      table["1"]? = none ∧ t.store["1"]? = some (job "1" "active") ∧
      ¬ HoldsPassing activeJobs t table := by
  intro history t table
  have htab : table["1"]? = none := by decide +kernel
  have hst : t.store["1"]? = some (job "1" "active") := by decide +kernel
  refine ⟨⟨⟨by decide +kernel, trivial⟩, ⟨trivial, _, job "1" "active", rfl, by decide +kernel,
    partOf_sentKey⟩, trivial⟩, htab, hst, fun h => ?_⟩
  have hrow := ((h "1" _).mp hst).1
  rw [htab] at hrow
  cases hrow

theorem partial_deletes_iff_run : let history : List (Int × TableChange Text) :=
      [(1, .insert (job "1" "active")), (2, .update (job "1" "active") none),
        (3, .delete (sentKey "1")), (4, .insert (job "1" "active"))]
    let t := (history.map (event activeJobs.table)).foldl (activeJobs.deliver 0) jobsTarget
    HoldsPassing activeJobs t (replay (buildKey ["id"]) ∅ history) ∧
      t.store.keys = ["1"] := by
  intro history t
  have hst0 : HoldsPassing activeJobs jobsTarget ∅ := fun k row => by
    simp [jobsTarget, IndexedTarget.new]
  have hsteady : Stale.Along (fun table ch => ch.apply (buildKey jobsTarget.pkCols) table)
      (activeJobs.Steady jobsTarget.pkCols) ∅ (history.map Prod.snd) := by
    refine ⟨⟨by decide +kernel, trivial⟩, ⟨by decide +kernel, ?_⟩,
      ⟨trivial, _, job "1" "active", rfl, by decide +kernel, partOf_sentKey⟩,
      ⟨by decide +kernel, trivial⟩, trivial⟩
    intro old hold
    have hrow : (some (job "1" "active") : Option (Row Text)) = some old := by
      rw [← hold]
      decide +kernel
    rw [Option.some.inj hrow]
  refine ⟨(partial_deletes_iff rfl rfl hst0 hsteady 0).mpr fun k => ?_, by decide +kernel⟩
  have hactive : (activeJobs.image (job "1" "active")).isSome := by decide +kernel
  have hkey : buildKey jobsTarget.pkCols (job "1" "active") = "1" := by decide +kernel
  obtain ⟨sent, hsent⟩ : ∃ sent, sentKey "1" = some sent := ⟨_, rfl⟩
  have hsentKey : buildKey jobsTarget.pkCols sent = "1" := by
    have horEmpty : buildKey jobsTarget.pkCols (orEmpty (sentKey "1")) = "1" := by
      decide +kernel
    rwa [hsent] at horEmpty
  -- only the delete hides its row, and the insert after it writes the key
  simpa [history, Stale.left_cons, Stale.not_left_nil, ResolvedPipeline.Hides,
    ResolvedPipeline.Writes, hactive, hkey, hsent, hsentKey] using
    fun hk _ _ _ _ => hk

end Laredo.Engine
