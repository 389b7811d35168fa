import Mathlib.Data.List.Nodup
import Laredo.Lib.Transition

/-!
# Readiness

`ReadinessTracker` (`internal/engine/readiness.go`). A call changes the tracker under its lock and
calls callbacks after it has released it, so that other calls can come in between.
-/

namespace Laredo.Engine

open Std List

open Transition (Reach Run)

variable {C : Type}

structure ReadinessTracker (C : Type) where
  ready : ExtTreeMap String Bool
  /-- How often `allReady` was closed. -/
  closes : Nat
  closed : Bool
  callbacks : List C

namespace ReadinessTracker

/-- `NewReadinessTracker(pipelineIDs)`. -/
def new (pipelineIDs : List String) : ReadinessTracker C where
  ready := pipelineIDs.foldl (fun ready id => ready.insert id false) ∅
  closes := if pipelineIDs.isEmpty then 1 else 0
  closed := pipelineIDs.isEmpty
  callbacks := []

/-- `SetReady(pipelineID)` as far as it holds the lock, and the callbacks it calls then. -/
def setReady (t : ReadinessTracker C) (pipelineID : String) : ReadinessTracker C × List C :=
  let ready := t.ready.insert pipelineID true
  if t.closed then ({ t with ready }, [])
  else if ready.toList.any fun entry => !entry.2 then ({ t with ready }, [])
  else (⟨ready, t.closes + 1, true, []⟩, t.callbacks)

/-- `OnReady(cb)` as far as it holds the lock, and the callback it calls then. -/
def onReady (t : ReadinessTracker C) (cb : C) : ReadinessTracker C × List C :=
  if t.closed then (t, [cb]) else ({ t with callbacks := t.callbacks ++ [cb] }, [])

def isReady (t : ReadinessTracker C) : Bool := t.closed

lemma getElem?_ready_new (ids : List String) (id : String) :
    (new ids : ReadinessTracker C).ready[id]? = if id ∈ ids then some false else none := by
  have hfold : ∀ ready : ExtTreeMap String Bool,
      (ids.foldl (fun ready id => ready.insert id false) ready)[id]? =
        if id ∈ ids then some false else ready[id]? := by
    induction ids with
    | nil => simp
    | cons x ids ih =>
      intro ready
      rw [foldl_cons, ih, ExtTreeMap.getElem?_insert]
      by_cases hx : x = id
      · simp [hx]
      · simp [hx, Ne.symm hx]
  exact (hfold ∅).trans (by simp)

/-- What the loop of `SetReady` over `ready` finds. -/
lemma any_unready_iff {ready : ExtTreeMap String Bool} :
    (ready.toList.any fun entry => !entry.2) = true ↔
      ∃ id : String, ready[id]? = some false := by
  simp [ExtTreeMap.mem_toList_iff_getElem?_eq_some]

end ReadinessTracker

/-- A tracker in use. `running` are the calls that have released the lock, each with the callbacks
it still calls; the rest is history. -/
structure Readiness (C : Type) where
  tracker : ReadinessTracker C
  running : List (List C)
  passed : List String
  registered : List C
  invoked : List C

namespace Readiness

def start (ids : List String) : Readiness C := ⟨.new ids, [], [], [], []⟩

inductive Act (C : Type)
  | setReady (id : String)
  | onReady (cb : C)
  | invoke (cb : C)

inductive Step (s : Readiness C) : Act C → Readiness C → Prop
  | setReady (id : String) : Step s (.setReady id)
      { s with
        tracker := (s.tracker.setReady id).1
        running := (s.tracker.setReady id).2 :: s.running
        passed := id :: s.passed }
  | onReady (cb : C) : Step s (.onReady cb)
      { s with
        tracker := (s.tracker.onReady cb).1
        running := (s.tracker.onReady cb).2 :: s.running
        registered := cb :: s.registered }
  | invoke {cb : C} {rest : List C} {calls calls' : List (List C)}
      (hrunning : s.running = calls ++ (cb :: rest) :: calls') : Step s (.invoke cb)
      { s with running := calls ++ rest :: calls', invoked := cb :: s.invoked }

/-- Every callback is where it belongs: in the tracker until all pipelines are ready, then with a
call that is under way or among those invoked. -/
structure Sound (ids : List String) (s : Readiness C) : Prop where
  ready : ∀ id, s.tracker.ready[id]? =
    if id ∈ s.passed then some true else if id ∈ ids then some false else none
  closed : s.tracker.closed = true ↔ ∀ id ∈ ids, id ∈ s.passed
  closes : s.tracker.closes = if s.tracker.closed then 1 else 0
  waiting : s.tracker.closed = false →
    s.running.flatten = [] ∧ s.invoked = [] ∧ s.tracker.callbacks.Perm s.registered
  fired : s.tracker.closed = true → s.tracker.callbacks = [] ∧
    (s.running.flatten ++ s.invoked).Perm s.registered

variable {ids : List String} {s s' : Readiness C} {a : Act C}

lemma sound_start (ids : List String) : (start ids : Readiness C).Sound ids where
  ready id := by simp [start, ReadinessTracker.getElem?_ready_new]
  closed := by simp [start, ReadinessTracker.new, eq_nil_iff_forall_not_mem]
  closes := by cases ids <;> rfl
  waiting _ := ⟨rfl, rfl, .refl _⟩
  fired _ := ⟨rfl, .refl _⟩

lemma Sound.setReady {id : String} (h : s.Sound ids) (hstep : Step s (.setReady id) s') :
    s'.Sound ids := by
  cases hstep
  have hready : ∀ i, (s.tracker.ready.insert id true)[i]? =
      if i ∈ id :: s.passed then some true else if i ∈ ids then some false else none := by
    intro i
    rw [ExtTreeMap.getElem?_insert, h.ready]
    by_cases hi : i = id
    · simp [hi]
    · simp [hi, Ne.symm hi]
  have hall : ((s.tracker.ready.insert id true).toList.any fun entry => !entry.2) = true ↔
      ¬∀ i ∈ ids, i ∈ id :: s.passed := by
    simp only [ReadinessTracker.any_unready_iff, hready]
    push Not
    refine exists_congr fun i => ?_
    split_ifs <;> simp_all
  obtain ⟨⟨ready, closes, closed, callbacks⟩, running, passed, registered, invoked⟩ := s
  cases closed with
  | true =>
    have hpassed := h.closed.1 rfl
    refine ⟨hready, iff_of_true rfl ?_, h.closes, nofun, h.fired⟩
    exact fun i hi => mem_cons_of_mem _ (hpassed i hi)
  | false =>
    obtain ⟨hrunning, hinvoked, hcallbacks⟩ := h.waiting rfl
    by_cases hany : ((ready.insert id true).toList.any fun entry => !entry.2) = true
    · simp only [ReadinessTracker.setReady, hany, if_true, if_false, Bool.false_eq_true]
      refine ⟨hready, iff_of_false Bool.false_ne_true (hall.1 hany), h.closes, ?_, nofun⟩
      exact fun _ => ⟨hrunning, hinvoked, hcallbacks⟩
    · simp only [ReadinessTracker.setReady, hany, if_false, Bool.false_eq_true]
      refine ⟨hready, iff_of_true rfl (not_not.1 (mt hall.2 hany)), ?_, nofun, fun _ => ⟨rfl, ?_⟩⟩
      · exact congrArg (· + 1) h.closes
      · simpa [show running.flatten = [] from hrunning, show invoked = [] from hinvoked]
          using hcallbacks

lemma Sound.step (h : s.Sound ids) (hstep : Step s a s') : s'.Sound ids := by
  cases hstep with
  | setReady id => exact h.setReady (.setReady id)
  | onReady cb =>
    obtain ⟨⟨ready, closes, closed, callbacks⟩, running, passed, registered, invoked⟩ := s
    cases closed with
    | true =>
      refine ⟨h.ready, h.closed, h.closes, nofun, fun _ => ?_⟩
      obtain ⟨hnone, hperm⟩ := h.fired rfl
      exact ⟨hnone, hperm.cons cb⟩
    | false =>
      refine ⟨h.ready, h.closed, h.closes, fun _ => ?_, nofun⟩
      obtain ⟨hrunning, hinvoked, hcallbacks⟩ := h.waiting rfl
      exact ⟨hrunning, hinvoked, (perm_append_singleton cb _).trans (hcallbacks.cons cb)⟩
  | @invoke cb rest calls calls' hrunning =>
    refine ⟨h.ready, h.closed, h.closes, fun hclosed => ?_, fun hclosed => ?_⟩
    · have hnil := (h.waiting hclosed).1
      simp [hrunning] at hnil
    · obtain ⟨hnone, hperm⟩ := h.fired hclosed
      refine ⟨hnone, List.Perm.trans ?_ hperm⟩
      have hmove := @perm_middle _ cb calls.flatten (rest ++ (calls'.flatten ++ s.invoked))
      have hlast := @perm_middle _ cb (calls.flatten ++ rest ++ calls'.flatten) s.invoked
      simpa [hrunning] using hlast.trans (by simpa using hmove.symm)

/-- The calls under way come to their end by themselves. -/
lemma exists_returned (s : Readiness C) : ∃ s', Reach Step (fun _ a => ∃ cb, a = .invoke cb) s s' ∧
    s'.running.flatten = [] ∧ s'.tracker = s.tracker ∧ s'.registered = s.registered := by
  induction hleft : s.running.flatten generalizing s with
  | nil => exact ⟨s, .refl s, hleft, rfl, rfl⟩
  | cons cb left ih =>
    obtain ⟨calls, rest, calls', hrunning, hcalls, rfl⟩ := flatten_eq_cons_iff.1 hleft
    have hstep := Step.invoke hrunning
    obtain ⟨s', hreach, hnil, htracker, hregistered⟩ :=
      ih { s with running := calls ++ rest :: calls', invoked := cb :: s.invoked }
        (by simp [flatten_eq_nil_iff.2 hcalls])
    exact ⟨s', ((Reach.refl s).snoc hstep ⟨cb, rfl⟩).trans hreach, hnil, htracker, hregistered⟩

/-- **Readiness.** The tracker is ready once every id has been passed to `SetReady`; the channel is
closed at most once; and each callback that was registered is then invoked, once, or will be by a
call that is under way. -/
theorem callbacks_fire_once (ids : List String)
    (hrun : Run Step (start ids : Readiness C) s) :
    (s.tracker.isReady = true ↔ ∀ id ∈ ids, id ∈ s.passed) ∧
    (∀ s', Run Step s s' → s.tracker.isReady = true →
      s'.tracker.isReady = true) ∧
    s.tracker.closes ≤ 1 ∧
    (s.tracker.isReady = false → s.invoked = []) ∧
    (s.tracker.isReady = true → (s.running.flatten ++ s.invoked).Perm s.registered ∧
      ∃ s', Reach Step (fun _ a => ∃ cb, a = .invoke cb) s s' ∧ s'.registered = s.registered ∧
        s'.invoked.Perm s.registered) := by
  have hsound : ∀ {s'}, Run Step (start ids : Readiness C) s' → s'.Sound ids :=
    fun hrun => hrun.invariant (Sound ids) (sound_start ids) fun h _ hstep => h.step hstep
  have hs := hsound hrun
  refine ⟨hs.closed, fun s' hreach hready => ?_, ?_, fun hwait => (hs.waiting hwait).2.1,
    fun hready => ⟨(hs.fired hready).2, ?_⟩⟩
  · refine (hsound (hrun.trans hreach)).closed.2 ?_
    refine hreach.invariant (fun s => ∀ id ∈ ids, id ∈ s.passed) (hs.closed.1 hready) ?_
    rintro t t' a h - (id | cb | hrunning)
    · exact fun i hi => mem_cons_of_mem _ (h i hi)
    · exact h
    · exact h
  · rw [hs.closes]
    split <;> omega
  · obtain ⟨s', hreach, hnil, htracker, hregistered⟩ := exists_returned s
    have hs' := hsound (hrun.trans (hreach.mono fun _ _ _ => trivial))
    have hperm := (hs'.fired (htracker ▸ hready)).2
    rw [hnil, nil_append, hregistered] at hperm
    exact ⟨s', hreach, hregistered, hperm⟩

theorem callbacks_fire_once_late : ∃ s : Readiness Nat, s.tracker.isReady = true ∧
    s.registered = [2, 1] ∧ s.invoked = [2] ∧
    (s.running.flatten ++ s.invoked).Perm s.registered := by
  have h : Run Step (start ["a", "b"] : Readiness Nat) _ := .refl _
  have h := h
    |>.snoc (.setReady "b")
    |>.snoc (.onReady 1)
    |>.snoc (.setReady "unknown")
    |>.snoc (.setReady "a")
    |>.snoc (.onReady 2)
    |>.snoc (@Step.invoke Nat _ 2 [] [] _ rfl)
  exact ⟨_, by decide +kernel, by decide +kernel, by decide +kernel,
    ((callbacks_fire_once _ h).2.2.2.2 (by decide +kernel)).1⟩

end Readiness

end Laredo.Engine
