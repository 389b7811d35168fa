import Laredo.Engine.Baseline

/-!
# Validation

The validation at the end of `runBaseline`.
-/

namespace Laredo.Engine

open Shop ResolvedPipeline Std List KeyedMap ExtTreeMap SyncTarget

variable {ι P V : Type}

lemma SyncTarget.count_eq (t : SyncTarget P V) : t.count = t.rows.size := by
  cases t <;> rfl

namespace Member

variable (m : Member P V)

lemma state_completeBaseline (pos : Option P) :
    (m.completeBaseline pos false).state = m.state := by
  unfold completeBaseline
  split
  · rfl
  · simp

lemma stream_validate_iff {m : Member P V} (h : m.state = .baselining) (p : ResolvedPipeline V)
    (n : Nat) :
    (∃ k, ((m.validate p n).stream .baselining).validation = some (k, k)) ∧
        ((m.validate p n).stream .baselining).state = .streaming ↔ n = m.target.count := by
  by_cases hn : n = m.target.count
  · simp [validate, stream, h, hn]
  · refine iff_of_false (fun hmatch => ?_) hn
    obtain ⟨⟨k, hk⟩, -⟩ := hmatch
    have hpair : (n, m.target.count) = (k, k) := by
      cases hact : p.validationAction <;> simpa [validate, stream, h, hn, hact] using hk
    exact hn ((congrArg Prod.fst hpair).trans (congrArg Prod.snd hpair).symm)

variable [GoValue V]

lemma state_dispatchBaselineRow (p : ResolvedPipeline V) {i : ι} {e : Emitted ι V}
    (h : e.fails i = false) : (m.dispatchBaselineRow p i e).state = m.state := by
  unfold dispatchBaselineRow
  split
  · rfl
  · split
    · rfl
    · simp [h]

lemma state_foldl_dispatchBaselineRow (p : ResolvedPipeline V) {i : ι} {es : List (Emitted ι V)}
    (h : ∀ e ∈ es, e.fails i = false) :
    (es.foldl (fun m e => m.dispatchBaselineRow p i e) m).state = m.state := by
  induction es generalizing m with
  | nil => rfl
  | cons e es ih =>
    rw [foldl_cons, ih _ fun e' he' => h e' (mem_cons_of_mem e he')]
    exact m.state_dispatchBaselineRow p (h e mem_cons_self)

end Member

variable [GoValue V] [DecidableEq ι]

/-- **What the validation accepts** after an empty start without failures: just when every row
emitted for its table is handed to the target, and no two of them have the same key there. -/
theorem validation_accepts_iff (c : Config ι P V) {f : Fleet ι P V} {b : BaselineRun ι P V} {i : ι}
    {t : Memory.IndexedTarget V} (htarget : (f.member i).target = .indexed t) (hempty : t.store = ∅)
    (hlive : (f.member i).state ≠ .error ∧ (f.member i).state ≠ .stopped)
    {position : Option P} (hresult : b.result = some position)
    (hrows : ∀ e ∈ b.emitted, e.fails i = false) (hcomplete : b.completeFails i = false) :
    (∃ n, ((f.runBaseline c b).2.member i).validation = some (n, n)) ∧
        ((f.runBaseline c b).2.member i).state = .streaming ↔
      (∀ e ∈ b.emitted, e.table = (c.pipeline i).table →
        ((c.pipeline i).baselineRow (e.now i) e.row).isSome = true) ∧
      (((c.pipeline i).given i b.emitted).map (Memory.buildKey t.pkCols)).Nodup := by
  let p := c.pipeline i
  let m := b.emitted.foldl (fun m e => m.dispatchBaselineRow p i e)
    ((f.member i).transition .baselining)
  have hbegun : ((f.member i).transition .baselining).state = .baselining := by
    unfold Member.transition
    rw [if_neg (by simpa using hlive)]
  have hstt : (m.completeBaseline position false).state = .baselining := by
    rw [m.state_completeBaseline, Member.state_foldl_dispatchBaselineRow _ p hrows, hbegun]
  have hloaded : (f.member i).Loaded (p.given i b.emitted) (m.completeBaseline position false) := by
    have h := (Member.loaded_transition (f.member i)).foldl_dispatchBaselineRow p i b.emitted
    exact h.completeBaseline position false
  have hcount : (m.completeBaseline position false).target.count =
      (KeyedMap.load (Memory.buildKey t.pkCols) ∅ (p.given i b.emitted)).size := by
    rcases hloaded with hdead | ⟨-, -, hload⟩
    · simp [hstt] at hdead
    · rw [count_eq, hload, htarget]
      simp [SyncTarget.rows, key, hempty]
  have hmb : (f.runBaseline c b).2.member i = ((m.completeBaseline position false).validate p
      (b.rowsFor p.table).length).stream .baselining := by
    unfold Fleet.runBaseline
    rw [hresult]
    simp only [Fleet.finishBaseline, Fleet.each, hcomplete, Fleet.member_dispatchRows]
    rfl
  -- the rows handed over are as many as those counted only if none was kept back
  have hlen := length_filterMap_le (fun e => p.baselineRow (e.now i) e.row)
    (b.emitted.filter fun e => decide (e.table = p.table))
  have hall := filterMap_length_eq_length (f := fun e => p.baselineRow (e.now i) e.row)
    (l := b.emitted.filter fun e => decide (e.table = p.table))
  have hsize := size_load_le (Memory.buildKey t.pkCols) ∅ (p.given i b.emitted)
  have hexact := size_load_eq_iff (Memory.buildKey t.pkCols) ∅ (p.given i b.emitted)
  simp only [List.mem_filter, decide_eq_true_eq, and_imp] at hall
  simp only [size_empty, Nat.zero_add, not_mem_empty,
    not_false_eq_true, implies_true, and_true] at hsize hexact
  rw [hmb, Member.stream_validate_iff hstt, hcount, BaselineRun.rowsFor, length_map,
    ← hall, ← hexact]
  change (p.given i b.emitted).length ≤ _ at hlen
  change _ ↔ (p.given i b.emitted).length = _ ∧ _
  omega

def Shop.filtered : Config Shop Int Text :=
  { config with
    nodup := Shop.nodup
    complete := Shop.complete
    pipeline := fun i =>
      { config.pipeline i with
        filters := [fun _ row => decide ((Row.orEmpty row)["id"]? ≠ some (some "7"))]
        validationAction := .fail } }

theorem validation_accepts_iff_run : (∃ n, ((initialised.fleet.runBaseline filtered
        (accountsBaseline 10 ["8", "9"])).2.member .accounts).validation = some (n, n)) ∧
      ((initialised.fleet.runBaseline filtered
        (accountsBaseline 10 ["8", "9"])).2.member .accounts).state = .streaming := by
  refine (validation_accepts_iff filtered (i := .accounts) (b := accountsBaseline 10 ["8", "9"])
    rfl rfl ⟨by decide, by decide⟩ rfl ?_ rfl).mpr ⟨?_, ?_⟩
  · simp [accountsBaseline]
  · intro e he _
    simp only [accountsBaseline, map_cons, map_nil, mem_cons, not_mem_nil, or_false] at he
    rcases he with rfl | rfl <;> decide +kernel
  · decide +kernel

/-- Two accounts with keys of their own, and every call succeeds. The pipeline of their table leaves
one of them out, is reported with two rows against one and put into ERROR. -/
theorem validation_refuses_filtered_baseline : ∃ f : Fleet Shop Int Text,
      f = (initialised.fleet.runBaseline filtered (accountsBaseline 10 ["7", "8"])).2 ∧
      (((accountsBaseline 10 ["7", "8"]).rowsFor accounts.table).map
        (Memory.buildKey ["id"])).Nodup ∧
      (f.member .accounts).validation = some (2, 1) ∧ (f.member .accounts).state = .error ∧
      (f.member .orders).validation = some (0, 0) ∧ (f.member .orders).state = .streaming :=
  ⟨_, rfl, by decide +kernel, rfl, rfl, rfl, rfl⟩

end Laredo.Engine
