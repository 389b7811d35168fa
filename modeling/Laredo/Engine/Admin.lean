import Mathlib.Logic.Function.Basic
import Laredo.Lib.Transition
import Laredo.Types

/-!
# Admin

The calls of an operator on a running engine, over all its sources and one after the other: `Pause`,
`Resume`, `Reload` and `CreateSnapshot` (`engine.go`).
-/

namespace Laredo.Engine

structure Roster (σ ι : Type) where
  pipelines : List ι
  complete : ∀ i, i ∈ pipelines
  source : ι → σ
  table : ι → TableIdentifier

structure Admin (σ ι : Type) where
  paused : σ → Bool
  pstate : ι → PipelineState
  /-- The last `Pause` or `Resume` for the source that succeeded was a `Pause`. -/
  held : σ → Bool

structure ReloadOutcome (ι : Type) where
  pauseOk : Bool := true
  baselineOk : Bool := true
  /-- `OnTruncate`, `OnBaselineRow` and `OnBaselineComplete` of a target all succeed. -/
  targetOk : ι → Bool := fun _ => true
  resumeOk : Bool := true

structure SnapshotOutcome (σ ι : Type) where
  sources : List σ
  complete : ∀ x, x ∈ sources
  storeSet : Bool := true
  pauseOk : σ → Bool := fun _ => true
  exportOk : ι → Bool := fun _ => true
  saveOk : Bool := true
  resumeOk : σ → Bool := fun _ => true

section

variable {σ ι : Type} [DecidableEq σ] (c : Roster σ ι) (s : Admin σ ι)

def Roster.pause (x : σ) (ok : Bool) : Admin σ ι :=
  if ok then
    { paused := Function.update s.paused x true
      pstate := fun i =>
        if c.source i = x ∧ s.pstate i = .streaming then .paused else s.pstate i
      held := Function.update s.held x true }
  else s

def Roster.resume (x : σ) (ok : Bool) : Admin σ ι :=
  if ok then
    { paused := Function.update s.paused x false
      pstate := fun i =>
        if c.source i = x ∧ s.pstate i = .paused then .streaming else s.pstate i
      held := Function.update s.held x false }
  else s

def Roster.affected (x : σ) (table : TableIdentifier) (i : ι) : Bool :=
  c.source i = x ∧ c.table i = table ∧ (s.pstate i = .streaming ∨ s.pstate i = .paused)

def Roster.reload (x : σ) (table : TableIdentifier) (o : ReloadOutcome ι) : Admin σ ι :=
  if c.pipelines.any (c.affected s x table) && o.pauseOk then
    { s with
      paused := Function.update s.paused x (!o.resumeOk)
      pstate := fun i =>
        if c.affected s x table i then
          -- a failed baseline takes all of them to ERROR
          if o.baselineOk && o.targetOk i then .streaming else .error
        else s.pstate i }
  else s

/-- The first loop of `doSnapshot`: whether it got through, and the sources after it. -/
def pauseAll (ok : σ → Bool) : List σ → (σ → Bool) → Bool × (σ → Bool)
  | [], paused => (true, paused)
  | x :: rest, paused =>
      if ok x then pauseAll ok rest (Function.update paused x true) else (false, paused)

/-- `doSnapshot`. The sources are resumed at each of its ends but the first two. -/
def Roster.doSnapshot (o : SnapshotOutcome σ ι) : Admin σ ι :=
  if o.storeSet then
    match pauseAll o.pauseOk o.sources s.paused with
    | (false, paused) => { s with paused := paused }
    | (true, paused) =>
        let resumed := { s with paused := fun x => if o.resumeOk x then false else paused x }
        if c.pipelines.any fun i =>
            (s.pstate i = .paused ∨ s.pstate i = .streaming) ∧ o.exportOk i = false then resumed
        else if o.saveOk then resumed
        else resumed
  else s

end

inductive AdminAct (σ ι : Type)
  | pause (x : σ) (ok : Bool)
  | resume (x : σ) (ok : Bool)
  | reload (x : σ) (table : TableIdentifier) (o : ReloadOutcome ι)
  | createSnapshot (o : SnapshotOutcome σ ι)
  | moves (i : ι) (st : PipelineState)

variable {σ ι : Type} [DecidableEq σ]

structure Agrees (c : Roster σ ι) (s : Admin σ ι) : Prop where
  held : ∀ x, s.paused x = s.held x
  pipelines : ∀ i, s.pstate i ≠ .error → (s.pstate i = .paused ↔ s.paused (c.source i) = true)

def LeavesPausesAlone (c : Roster σ ι) (s : Admin σ ι) : AdminAct σ ι → Prop
  | .pause x ok => ok = true → ∀ i, c.source i = x →
      s.pstate i = .streaming ∨ s.pstate i = .paused ∨ s.pstate i = .error
  | .reload x table o => (∃ i, c.affected s x table i = true) → o.pauseOk = true →
      s.paused x = false ∧ o.resumeOk = true
  | .createSnapshot o => o.storeSet = true →
      ∀ x, s.paused x = false ∧ o.pauseOk x = true ∧ o.resumeOk x = true
  | _ => True

lemma pauseAll_of_ok {ok : σ → Bool} (hok : ∀ x, ok x = true) (sources : List σ)
    (paused : σ → Bool) : (pauseAll ok sources paused).1 = true := by
  induction sources generalizing paused with
  | nil => rfl
  | cons x rest ih => simp [pauseAll, hok, ih]

namespace Agrees

variable {c : Roster σ ι} {s s' : Admin σ ι}

lemma pause {x : σ} {ok : Bool} (h : Agrees c s)
    (hlive : LeavesPausesAlone c s (.pause x ok)) : Agrees c (c.pause s x ok) := by
  cases ok with
  | false => exact h
  | true =>
    refine ⟨fun y => ?_, fun i => ?_⟩
    · by_cases hy : y = x <;> simp [Roster.pause, hy, h.held]
    · by_cases hi : c.source i = x
      · rcases hlive rfl i hi with hst | hst | hst <;> simp [Roster.pause, hi, hst]
      · simpa [Roster.pause, hi] using h.pipelines i

lemma resume (x : σ) (ok : Bool) (h : Agrees c s) : Agrees c (c.resume s x ok) := by
  cases ok with
  | false => exact h
  | true =>
    refine ⟨fun y => ?_, fun i => ?_⟩
    · by_cases hy : y = x <;> simp [Roster.resume, hy, h.held]
    · by_cases hi : c.source i = x
      · by_cases hst : s.pstate i = .paused <;> simp [Roster.resume, hi, hst]
      · simpa [Roster.resume, hi] using h.pipelines i

lemma reload {x : σ} {table : TableIdentifier} {o : ReloadOutcome ι} (h : Agrees c s)
    (halone : LeavesPausesAlone c s (.reload x table o)) : Agrees c (c.reload s x table o) := by
  unfold Roster.reload
  split
  · next hgo =>
    rw [Bool.and_eq_true, List.any_eq_true] at hgo
    obtain ⟨⟨j, -, hj⟩, hpause⟩ := hgo
    obtain ⟨hrun, hrsm⟩ := halone ⟨j, hj⟩ hpause
    have hpau : Function.update s.paused x (!o.resumeOk) = s.paused := by
      rw [hrsm, Function.update_eq_self_iff]
      exact hrun.symm
    rw [hpau]
    refine ⟨h.held, fun i => ?_⟩
    by_cases hi : c.affected s x table i = true
    · have hx : c.source i = x := (of_decide_eq_true hi).1
      by_cases hok : (o.baselineOk && o.targetOk i) = true <;> simp [hi, hok, hx, hrun]
    · simpa [hi] using h.pipelines i
  · exact h

lemma doSnapshot {o : SnapshotOutcome σ ι} (h : Agrees c s)
    (halone : LeavesPausesAlone c s (.createSnapshot o)) : Agrees c (c.doSnapshot s o) := by
  by_cases hst : o.storeSet = true
  · have hrun := halone hst
    have hthrough := pauseAll_of_ok (fun x => (hrun x).2.1) o.sources s.paused
    rw [Roster.doSnapshot, if_pos hst]
    generalize pauseAll o.pauseOk o.sources s.paused = loop at hthrough
    obtain ⟨got, paused⟩ := loop
    subst hthrough
    -- every source is running again, as before
    simpa [hrun] using (⟨by simp [← h.held, hrun], by simpa [hrun] using h.pipelines⟩ :
      Agrees c { s with paused := fun _ => false })
  · simpa [Roster.doSnapshot, hst] using h

end Agrees

variable [DecidableEq ι] {c : Roster σ ι} {s₀ s s' : Admin σ ι} {a : AdminAct σ ι}

inductive AdminStep (c : Roster σ ι) (s : Admin σ ι) : AdminAct σ ι → Admin σ ι → Prop
  | pause (x : σ) (ok : Bool) : AdminStep c s (.pause x ok) (c.pause s x ok)
  | resume (x : σ) (ok : Bool) : AdminStep c s (.resume x ok) (c.resume s x ok)
  | reload (x : σ) (table : TableIdentifier) (o : ReloadOutcome ι) :
      AdminStep c s (.reload x table o) (c.reload s x table o)
  | createSnapshot (o : SnapshotOutcome σ ι) :
      AdminStep c s (.createSnapshot o) (c.doSnapshot s o)
  | moves (i : ι) (st : PipelineState)
      (hst : st = .error ∨ (s.pstate i = .initializing ∨ s.pstate i = .baselining) ∧
        (st = .baselining ∨ st = .streaming)) :
      AdminStep c s (.moves i st) { s with pstate := Function.update s.pstate i st }

lemma Agrees.step (h : Agrees c s) (hok : LeavesPausesAlone c s a) (hstep : AdminStep c s a s') :
    Agrees c s' := by
  cases hstep with
  | pause => exact h.pause hok
  | resume x ok => exact h.resume x ok
  | reload => exact h.reload hok
  | createSnapshot => exact h.doSnapshot hok
  | moves i st hst =>
    refine ⟨h.held, fun j => ?_⟩
    by_cases hj : j = i
    · subst hj
      have hj := h.pipelines j
      rcases hst with rfl | ⟨hold | hold, rfl | rfl⟩ <;> simp_all
    · simpa [hj] using h.pipelines j

/-- **A pause survives every call that leaves paused sources alone**: a source is paused exactly if
the last `Pause` or `Resume` for it that succeeded was a `Pause`, and so are its pipelines. -/
theorem pause_survives (hsources : ∀ x, s₀.paused x = false ∧ s₀.held x = false)
    (hpipelines : ∀ i, s₀.pstate i ≠ .paused)
    (hrun : Transition.Reach (AdminStep c) (LeavesPausesAlone c) s₀ s) : Agrees c s := by
  refine hrun.invariant (Agrees c) ⟨fun x => ?_, fun i _ => ?_⟩ fun h hok hstep => h.step hok hstep
  · simp [hsources x]
  · simp [hpipelines i, hsources]

def Roster.twoTables : Roster Bool Bool where
  pipelines := [false, true]
  complete := by decide
  source _ := false
  table i := ⟨"public", if i then "orders" else "accounts"⟩

def Admin.streaming : Admin Bool Bool := ⟨fun _ => false, fun _ => .streaming, fun _ => false⟩

theorem pause_survives_run : ∃ s : Admin Bool Bool,
    Transition.Reach (AdminStep .twoTables) (LeavesPausesAlone .twoTables) .streaming s ∧
    s.paused false = true ∧ s.pstate false = .error ∧ s.pstate true = .paused ∧
    Agrees .twoTables s := by
  let c := Roster.twoTables
  have h : Transition.Reach (AdminStep c) (LeavesPausesAlone c) .streaming _ := .refl _
  have h := h
    |>.snoc (.reload false ⟨"public", "accounts"⟩ { targetOk := fun _ => false })
      (fun _ _ => ⟨rfl, rfl⟩)
    |>.snoc (.pause false true) (fun _ i _ => by cases i <;> decide)
    |>.snoc (.resume false false)
  exact ⟨_, h, rfl, rfl, rfl, pause_survives (fun _ => ⟨rfl, rfl⟩) (by simp [Admin.streaming]) h⟩

/-- What does not leave a pause alone, or what it paused itself. A reload of one table makes the
paused source run, with the other pipeline still PAUSED; so does a snapshot. -/
theorem reload_ends_the_pause :
    let c := Roster.twoTables
    let s := c.pause .streaming false true
    let reloaded := c.reload s false ⟨"public", "accounts"⟩ {}
    let saved := c.doSnapshot s { sources := [false, true], complete := by decide }
    let unpaused := c.doSnapshot .streaming
      { sources := [false, true], complete := by decide, pauseOk := not }
    let unresumed := c.reload .streaming false ⟨"public", "accounts"⟩ { resumeOk := false }
    (reloaded.held false = true ∧ reloaded.paused false = false ∧ reloaded.pstate true = .paused) ∧
    (saved.held false = true ∧ saved.paused false = false ∧ saved.pstate true = .paused) ∧
    (unpaused.held false = false ∧ unpaused.paused false = true ∧
      unpaused.pstate true = .streaming) ∧
    unresumed.held false = false ∧ unresumed.paused false = true ∧
      unresumed.pstate true = .streaming := by
  decide

end Laredo.Engine
