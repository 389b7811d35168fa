import Laredo.Engine.Rebaseline

/-!
# Filtered image

A pipeline with filters and transforms should hold the **image** of its table.
-/

namespace Laredo.Engine

open TableChange Memory KeyedMap Stale Projection List Option Row
open Fanout (Op)

variable {P V : Type}

namespace ResolvedPipeline

variable (p : ResolvedPipeline V)

def image (row : Row V) : Option (Row V) := p.applyFiltersAndTransforms p.table (some row)

def TransformsKeep (key : Row V → String) : Prop :=
  ∀ transform ∈ p.transforms, ∀ row r, transform p.table row = some r → key r = key row

variable {p}

lemma TransformsKeep.image {key : Row V → String} (h : p.TransformsKeep key) {row r : Row V}
    (hr : p.image row = some r) : key r = key row := by
  unfold ResolvedPipeline.image applyFiltersAndTransforms at hr
  by_cases hpass : p.applyFilters p.table (some row) = true
  · rw [if_pos hpass] at hr
    clear hpass
    unfold TransformsKeep at h
    generalize p.transforms = transforms at h hr
    induction transforms generalizing row with
    | nil => rw [← some.inj hr]
    | cons transform transforms ih =>
      simp only [applyTransforms] at hr
      cases hstep : transform p.table (orEmpty (some row)) with
      | none => simp [hstep] at hr
      | some r' =>
        rw [hstep] at hr
        exact (ih (fun t ht => h t (mem_cons_of_mem _ ht)) hr).trans
          (h transform mem_cons_self row r' hstep)
  · rw [if_neg hpass] at hr
    cases hr

variable (p) in
/-- What `applyChangeToTarget` makes of the event of a change, without a TTL. -/
def pass : TableChange V → Option (TableChange V)
  | .insert row => (p.image row).map .insert
  | .update row identity => (p.image row).map (.update · identity)
  | .delete identity => if p.applyFilters p.table identity then some (.delete identity) else none
  | .truncate => some .truncate

lemma applyChangeToTarget_event (httl : p.ttlFunc = none) (now : Int) (x : P × TableChange V) :
    p.applyChangeToTarget now (event p.table x) = p.pass x.2 := by
  have hfr : ∀ row, p.isRowExpired now row = false := by simp [isRowExpired, httl]
  obtain ⟨pos, ch⟩ := x
  cases ch with
  | insert row | update row identity =>
    unfold applyChangeToTarget
    cases himage : p.image row <;> simp_all [image, pass, event]
  | delete identity => rfl
  | truncate => rfl

variable (p) (key : Row V → String)

def Leaves (k : String) : TableChange V → Prop
  | .update row (some old) => key old = k ∧ (p.image old).isSome ∧ p.image row = none
  | _ => False

/-- The change takes the row under `k` out of the image, and is dropped: the new row of an update
has no image, or the filters refuse what a delete says of the old row. -/
def Drops (k : String) : Store V × TableChange V → Prop
  | (table, .update row (some identity)) =>
      key identity = k ∧ (table[k]?.bind p.image).isSome ∧ p.image row = none
  | (table, .update row none) =>
      key row = k ∧ (table[k]?.bind p.image).isSome ∧ p.image row = none
  | (table, .delete identity) => key (orEmpty identity) = k ∧
      (table[k]?.bind p.image).isSome ∧ p.applyFilters p.table identity = false
  | _ => False

def Writes (k : String) : TableChange V → Prop
  | .insert row => (p.image row).isSome ∧ key row = k
  | .update row identity =>
      (p.image row).isSome ∧ (key row = k ∨ key (orEmpty identity) = k)
  | .delete identity => p.applyFilters p.table identity = true ∧ key (orEmpty identity) = k
  | .truncate => True

def follow (s : Store V × Store V) (ch : TableChange V) : Store V × Store V :=
  (ch.apply key s.1, (p.pass ch).elim s.2 fun call => call.applyByIdentity key s.2)

def Right (k : String) (s : Store V × Store V) : Prop := s.2[k]? = s.1[k]?.bind p.image

def StaleAt (k : String) (s : Store V × Store V) : Prop :=
  s.2[k]?.isSome ∧ s.1[k]?.bind p.image = none

variable {p key} {k : String} {s : Store V × Store V} {ch : TableChange V}

lemma right_of_writes (hkeep : p.TransformsKeep key) (hfits : ch.FitsAsSent key s.1)
    (hwr : p.Writes key k ch) : p.Right k (p.follow key s ch) := by
  cases ch with
  | insert row =>
    obtain ⟨himage, rfl⟩ := hwr
    obtain ⟨r, hr⟩ := isSome_iff_exists.mp himage
    simp [Right, follow, pass, applyByIdentity, apply, getElem?_put, hr, hkeep.image hr]
  | update row identity =>
    obtain ⟨himage, hk⟩ := hwr
    obtain ⟨r, hr⟩ := isSome_iff_exists.mp himage
    have haft : (p.follow key s (.update row identity)).2 =
        put key (s.2.erase (key (orEmpty identity))) r := by
      simp [follow, pass, hr, applyByIdentity]
    unfold Right
    rw [haft]
    by_cases hrow : key row = k
    · cases identity <;>
        simp [follow, apply, getElem?_put, hr, hkeep.image hr, hrow]
    · have hold := hk.resolve_left hrow
      cases identity with
      | some old =>
        have hold : key old = k := hold
        simp [follow, apply, getElem?_put, hkeep.image hr, hrow, hold, orEmpty]
      | none =>
        -- there is no row with the key of the empty row
        have hemp : key ∅ = k := hold
        have hnone : s.1[k]? = none := by
          rw [← hemp]
          exact hfits.2.resolve_left fun hsame => hrow (hsame.trans hemp)
        simp [follow, apply, getElem?_put, hkeep.image hr, hrow, hold, hnone]
  | delete identity =>
    obtain ⟨hpass, rfl⟩ := hwr
    simp [Right, follow, pass, applyByIdentity, apply, hpass]
  | truncate => simp [Right, follow, pass, applyByIdentity, apply]

lemma held_of_not_writes (hkeep : p.TransformsKeep key) (hwr : ¬ p.Writes key k ch) :
    (p.follow key s ch).2[k]? = s.2[k]? := by
  cases ch with
  | insert row =>
    cases hr : p.image row with
    | none => simp [follow, pass, hr]
    | some r =>
      have hk : key row ≠ k := fun hk => hwr ⟨by simp [hr], hk⟩
      simp [follow, pass, hr, applyByIdentity, apply, getElem?_put, hkeep.image hr, hk]
  | update row identity =>
    cases hr : p.image row with
    | none => simp [follow, pass, hr]
    | some r =>
      have hk : key row ≠ k := fun hk => hwr ⟨by simp [hr], .inl hk⟩
      have hold : key (orEmpty identity) ≠ k := fun hk => hwr ⟨by simp [hr], .inr hk⟩
      simp [follow, pass, hr, applyByIdentity, getElem?_put,
        getElem?_erase, hkeep.image hr, hk, hold]
  | delete identity =>
    by_cases hpass : p.applyFilters p.table identity = true
    · have hk : key (orEmpty identity) ≠ k := fun hk => hwr ⟨hpass, hk⟩
      simp [follow, pass, hpass, applyByIdentity, apply, getElem?_erase, hk]
    · simp [follow, pass, hpass]
  | truncate => exact absurd trivial hwr

lemma image_of_refused {row : Row V} (h : ¬ p.applyFilters p.table (some row) = true) :
    p.image row = none := if_neg h

lemma image_of_not_writes (hfits : ch.FitsAsSent key s.1) (hwr : ¬ p.Writes key k ch) :
    (p.follow key s ch).1[k]?.bind p.image = none ∧
        (¬ p.Drops key k (s.1, ch) → s.1[k]?.bind p.image = none) ∨
      (p.follow key s ch).1[k]? = s.1[k]? ∧ ¬ p.Drops key k (s.1, ch) := by
  cases ch with
  | insert row =>
    by_cases hk : key row = k
    · subst hk
      have hnone : p.image row = none := by
        by_contra hsome
        exact hwr ⟨isSome_iff_ne_none.mpr hsome, rfl⟩
      have hfree : s.1[key row]? = none := hfits
      refine .inl ⟨?_, fun _ => by rw [hfree]; rfl⟩
      simp [follow, apply, getElem?_put, hnone]
    · exact .inr ⟨by simp [follow, apply, getElem?_put, hk], id⟩
  | update row identity =>
    cases identity with
    | none =>
      by_cases hrow : key row = k
      · have hnone : p.image row = none := by
          by_contra hsome
          exact hwr ⟨isSome_iff_ne_none.mpr hsome, .inl hrow⟩
        refine .inl ⟨?_, fun hdrops => ?_⟩
        · simp [follow, apply, getElem?_put, hrow, hnone]
        · by_contra hsome
          exact hdrops ⟨hrow, isSome_iff_ne_none.mpr hsome, hnone⟩
      · refine .inr ⟨?_, fun hdrops => hrow hdrops.1⟩
        simp [follow, apply, getElem?_put, hrow]
    | some old =>
      obtain ⟨-, hfree⟩ := hfits
      have hnone : key row = k ∨ key old = k → p.image row = none := by
        intro hk
        by_contra hsome
        exact hwr ⟨isSome_iff_ne_none.mpr hsome, hk⟩
      by_cases hold : key old = k
      · refine .inl ⟨?_, fun hdrops => ?_⟩
        · by_cases hrow : key row = k <;>
            simp [follow, apply, getElem?_put, hrow, hold, hnone (.inr hold)]
        · by_contra hsome
          exact hdrops ⟨hold, isSome_iff_ne_none.mpr hsome, hnone (.inr hold)⟩
      · by_cases hrow : key row = k
        · refine .inl ⟨?_, fun _ => ?_⟩
          · simp [follow, apply, getElem?_put, hrow, hnone (.inl hrow)]
          · rw [← hrow, hfree.resolve_left fun hsame => hold (hsame.symm.trans hrow)]
            rfl
        · refine .inr ⟨?_, fun hdrops => hold hdrops.1⟩
          simp [follow, apply, getElem?_put, getElem?_erase, hrow, hold]
  | delete identity =>
    by_cases hold : key (orEmpty identity) = k
    · have hrfd : p.applyFilters p.table identity = false :=
        Bool.eq_false_iff.mpr fun hpass => hwr ⟨hpass, hold⟩
      refine .inl ⟨by simp [follow, apply, hold], fun hdrops => ?_⟩
      by_contra hsome
      exact hdrops ⟨hold, isSome_iff_ne_none.mpr hsome, hrfd⟩
    · refine .inr ⟨?_, fun hdrops => hold hdrops.1⟩
      simp [follow, apply, getElem?_erase, hold]
  | truncate => exact absurd trivial hwr

variable {table : Store V}

lemma not_writes_of_drops (hdrops : p.Drops key k (table, ch)) : ¬ p.Writes key k ch := by
  match ch, hdrops with
  | .update row (some _), ⟨_, _, hnone⟩ | .update row none, ⟨_, _, hnone⟩ =>
    rintro ⟨hsome, -⟩
    rw [hnone] at hsome
    cases hsome
  | .delete identity, ⟨_, _, hrfd⟩ =>
    rintro ⟨hpass, -⟩
    rw [hrfd] at hpass
    cases hpass

lemma image_of_drops (hdrops : p.Drops key k (table, ch)) : (table[k]?.bind p.image).isSome := by
  match ch, hdrops with
  | .update row (some identity), ⟨_, hsome, _⟩ => exact hsome
  | .update row none, ⟨_, hsome, _⟩ => exact hsome
  | .delete identity, ⟨_, hsome, _⟩ => exact hsome

lemma acts (hkeep : p.TransformsKeep key) (k : String) :
    Acts (fun s (x : Store V × TableChange V) => p.follow key s x.2)
      (fun s x => x.1 = s.1 ∧ x.2.FitsAsSent key s.1) (p.Right k) (p.StaleAt k)
      (p.Drops key k) (fun x => p.Writes key k x.2) where
  apart s hstale hright := by
    have hsome := hstale.1
    rw [hright, hstale.2] at hsome
    cases hsome
  exclusive x hdrops := not_writes_of_drops hdrops
  touch s x hfits _ hwr := right_of_writes hkeep hfits.2 hwr
  spoil s x hfits hs hdrops := by
    obtain ⟨table, ch⟩ := x
    obtain ⟨rfl, hfits⟩ := hfits
    have hwr := not_writes_of_drops hdrops
    refine ⟨?_, ?_⟩
    · rw [held_of_not_writes hkeep hwr]
      rcases hs with hright | hstale
      · rw [hright]
        exact image_of_drops hdrops
      · exact hstale.1
    · exact ((image_of_not_writes hfits hwr).resolve_right fun h => h.2 hdrops).1
  right s x hfits hright hwr hdrops := by
    obtain ⟨table, ch⟩ := x
    obtain ⟨rfl, hfits⟩ := hfits
    unfold Right
    rw [held_of_not_writes hkeep hwr, hright]
    rcases image_of_not_writes hfits hwr with ⟨haft, hbef⟩ | ⟨hsame, -⟩
    · rw [haft, hbef hdrops]
    · rw [hsame]
  stale s x hfits hstale hwr := by
    refine ⟨?_, ?_⟩
    · rw [held_of_not_writes hkeep hwr]
      exact hstale.1
    · rcases image_of_not_writes hfits.2 hwr with ⟨haft, -⟩ | ⟨hsame, -⟩
      · exact haft
      · rw [hsame]
        exact hstale.2

lemma drops_iff_leaves (hfits : ch.Fits key table) :
    p.Drops key k (table, ch) ↔ p.Leaves key k ch := by
  cases ch with
  | insert row | truncate => exact Iff.rfl
  | update row identity =>
    cases identity with
    | none => exact hfits.elim
    | some old =>
      refine and_congr_right fun hkey => ?_
      rw [← hkey, hfits.1]
      rfl
  | delete identity =>
    cases identity with
    | none => exact hfits.elim
    | some old =>
      refine iff_of_false ?_ id
      rintro ⟨hkey, hsome, hrfd⟩
      have hhl : table[k]? = some old := hkey ▸ hfits
      rw [hhl, bind_some, image_of_refused (by rw [hrfd]; exact Bool.false_ne_true)] at hsome
      cases hsome

end ResolvedPipeline

section

variable [GoValue V] {p : ResolvedPipeline V}

def ResolvedPipeline.deliver (p : ResolvedPipeline V) (now : Int) (t : IndexedTarget V)
    (e : ChangeEvent P V) : IndexedTarget V :=
  match p.applyChangeToTarget now e with
  | none => t
  | some call => t.apply (call.op : Op P V)

def HoldsImage (p : ResolvedPipeline V) (t : IndexedTarget V) (table : Store V) : Prop :=
  ∀ k : String, t.store[k]? = table[k]?.bind p.image

lemma ResolvedPipeline.store_deliver (httl : p.ttlFunc = none) (now : Int)
    (t : IndexedTarget V) (table : Store V) (x : P × TableChange V) :
    (p.deliver now t (event p.table x)).store =
        (p.follow (buildKey t.pkCols) (table, t.store) x.2).2 ∧
      (p.deliver now t (event p.table x)).pkCols = t.pkCols := by
  unfold ResolvedPipeline.deliver follow
  rw [applyChangeToTarget_event httl]
  cases hpass : p.pass x.2 with
  | none => exact ⟨rfl, rfl⟩
  | some call =>
    cases call with
    | insert row | truncate => exact ⟨rfl, rfl⟩
    | delete identity => exact t.store_onDelete identity
    | update row identity => exact t.store_onUpdate row identity

lemma ResolvedPipeline.store_run (httl : p.ttlFunc = none) (now : Int)
    (t : IndexedTarget V) (table : Store V) (hist : List (P × TableChange V)) :
    (replay (buildKey t.pkCols) table hist,
        ((hist.map (event p.table)).foldl (p.deliver now) t).store) =
      (hist.map Prod.snd).foldl (p.follow (buildKey t.pkCols)) (table, t.store) := by
  induction hist generalizing t table with
  | nil => rfl
  | cons x hist ih =>
    obtain ⟨hst, hcols⟩ := p.store_deliver httl now t table x
    have hrest := ih (p.deliver now t (event p.table x))
      (x.2.apply (buildKey t.pkCols) table)
    rw [hcols, hst] at hrest
    exact hrest

lemma holdsImage_iff (httl : p.ttlFunc = none) {t : IndexedTarget V}
    (hkeep : p.TransformsKeep (buildKey t.pkCols)) {table : Store V}
    (hst0 : HoldsImage p t table) {hist : List (P × TableChange V)}
    (hfits : Along (fun table ch => ch.apply (buildKey t.pkCols) table)
      (fun table ch => ch.FitsAsSent (buildKey t.pkCols) table) table
      (hist.map Prod.snd)) (now : Int) :
    HoldsImage p ((hist.map (event p.table)).foldl (p.deliver now) t)
        (replay (buildKey t.pkCols) table hist) ↔
      ∀ k, ¬ Left (p.Drops (buildKey t.pkCols) k)
        (fun x => p.Writes (buildKey t.pkCols) k x.2)
        (met (fun table ch => ch.apply (buildKey t.pkCols) table) table
          (hist.map Prod.snd)) := by
  have hrun := ResolvedPipeline.store_run httl now t table hist
  have hfold : ∀ (s : Store V × Store V) (chs : List (TableChange V)),
      (met (fun table ch => ch.apply (buildKey t.pkCols) table) s.1
        chs).foldl (fun s x => p.follow (buildKey t.pkCols) s x.2) s =
      chs.foldl (p.follow (buildKey t.pkCols)) s := by
    intro s chs
    induction chs generalizing s with
    | nil => rfl
    | cons ch chs ih => exact ih (p.follow (buildKey t.pkCols) s ch)
  have hal : Along (fun s x => p.follow (buildKey t.pkCols) s x.2)
      (fun s x => x.1 = s.1 ∧ x.2.FitsAsSent (buildKey t.pkCols) s.1) (table, t.store)
      (met _ table (hist.map Prod.snd)) :=
    along_met (fun _ _ => rfl) hfits
  refine forall_congr' fun k => ?_
  rw [← (ResolvedPipeline.acts hkeep k).right_iff_not_left hal (hst0 k), hfold (table, t.store),
    ← hrun]
  rfl

/-- **A pipeline holds the filtered image of its table** if and only if every update that takes a
row out of the image is followed by a change that is passed on and writes the row's key. -/
theorem filtered_image_iff (httl : p.ttlFunc = none) {t : IndexedTarget V}
    (hkeep : p.TransformsKeep (buildKey t.pkCols)) {table : Store V}
    (hstart : HoldsImage p t table) {history : List (P × TableChange V)}
    (hwf : WellFormed (buildKey t.pkCols) table history) (now : Int) :
    HoldsImage p ((history.map (event p.table)).foldl (p.deliver now) t)
        (replay (buildKey t.pkCols) table history) ↔
      ∀ k, ¬ Left (p.Leaves (buildKey t.pkCols) k)
        (p.Writes (buildKey t.pkCols) k) (history.map Prod.snd) := by
  have hfits : Along (fun table ch => ch.apply (buildKey t.pkCols) table)
      (fun table ch => ch.Fits (buildKey t.pkCols) table) table (history.map Prod.snd) :=
    (along_map Prod.snd).mpr hwf
  rw [holdsImage_iff httl hkeep hstart (hfits.mono fun _ _ h => h.byKey.asSent) now]
  refine forall_congr' fun k => not_congr ?_
  exact left_met_iff
    (fun table ch hch => ⟨ResolvedPipeline.drops_iff_leaves hch, Iff.rfl⟩) hfits

end

def activeOnly : ResolvedPipeline Text :=
  { table := ⟨"public", "jobs"⟩
    filters := [fun _ row => (orEmpty row).get "state" == some "active"]
    transforms := [fun _ row => if row.get "hidden" == some "yes" then none else some row] }

def job (id state : String) : Row Text :=
  .ofList [("id", some id), ("state", some state)]

def jobsTarget : IndexedTarget Text :=
  { IndexedTarget.new [] [] with pkCols := ["id"] }

/-- Job 1 starts, and is then done: the update is dropped, and the target keeps the active
job. -/
theorem update_out_of_filter_stays : let history : List (Int × TableChange Text) :=
      [(1, .insert (job "1" "active")), (2, .update (job "1" "done") (some (job "1" "active")))]
    let table := replay (buildKey ["id"]) ∅ history
    let events := history.map (event activeOnly.table)
    let t := events.foldl (activeOnly.deliver 0) jobsTarget
    WellFormed (buildKey ["id"]) ∅ history ∧
      table["1"]?.bind activeOnly.image = none ∧ t.store["1"]? = some (job "1" "active") ∧
      ¬ HoldsImage activeOnly t table := by
  intro history table events t
  have htab : table["1"]?.bind activeOnly.image = none := by decide +kernel
  have hst : t.store["1"]? = some (job "1" "active") := by decide +kernel
  refine ⟨by decide +kernel, htab, hst, fun h => ?_⟩
  have hsame := h "1"
  rw [htab, hst] at hsame
  cases hsame

theorem filtered_image_iff_run : let history : List (Int × TableChange Text) :=
      [(1, .insert (job "1" "waiting")), (2, .insert (job "2" "waiting")),
        (3, .update (job "1" "active") (some (job "1" "waiting"))),
        (4, .update (job "1" "done") (some (job "1" "active"))),
        (5, .update (job "1" "active") (some (job "1" "done")))]
    let events := history.map (event activeOnly.table)
    let t := events.foldl (activeOnly.deliver 0) jobsTarget
    HoldsImage activeOnly t (replay (buildKey ["id"]) ∅ history) ∧
      t.store.keys = ["1"] := by
  intro history events t
  have hkeep : activeOnly.TransformsKeep (buildKey jobsTarget.pkCols) := by
    intro transform htran row r hr
    simp only [activeOnly, mem_singleton] at htran
    subst htran
    dsimp only at hr
    split at hr
    · cases hr
    · rw [some.inj hr]
  have hst0 : HoldsImage activeOnly jobsTarget ∅ := fun k => by
    simp [jobsTarget, IndexedTarget.new]
  have hwf : WellFormed (buildKey jobsTarget.pkCols) ∅ history := by
    decide +kernel
  refine ⟨(filtered_image_iff rfl hkeep hst0 hwf 0).mpr fun k => ?_, by decide +kernel⟩
  have hactive : (activeOnly.image (job "1" "active")).isSome := by decide +kernel
  have hwait : activeOnly.image (job "1" "waiting") = none := by decide +kernel
  have hdone : activeOnly.image (job "1" "done") = none := by decide +kernel
  have hkey : buildKey jobsTarget.pkCols (job "1" "active") = "1" := by decide +kernel
  simpa [history, left_cons, not_left_nil, ResolvedPipeline.Leaves,
    ResolvedPipeline.Writes, hactive, hwait, hdone, hkey] using
    fun (hk : "1" = k) (hne : ¬ "1" = k) => absurd hk hne

end Laredo.Engine
