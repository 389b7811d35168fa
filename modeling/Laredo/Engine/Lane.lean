import Laredo.Engine.Session

/-!
# Lane

The session seen from one pipeline.
-/

namespace Laredo.Engine

open State Consumer Dispatcher List Function AckTracker

variable {ι P V : Type}

inductive Work (P V : Type)
  | ready
  | applying (e : ChangeEvent P V)
  | failing (e : ChangeEvent P V)
  | settled (e : ChangeEvent P V)
  | confirming (pos : Option P)

def Work.changes : Work P V → List (ChangeEvent P V)
  | applying e | failing e | settled e => [e]
  | ready | confirming _ => []

@[simp] lemma Work.changes_ready : (ready : Work P V).changes = [] := rfl

@[simp] lemma Work.changes_applying (e : ChangeEvent P V) : (applying e).changes = [e] := rfl

@[simp] lemma Work.changes_failing (e : ChangeEvent P V) : (failing e).changes = [e] := rfl

@[simp] lemma Work.changes_confirming (pos : Option P) :
    (confirming pos : Work P V).changes = [] := rfl

def Work.after (p : ResolvedPipeline V) (pos : Option P) : Work P V :=
  if p.durable then .confirming pos else .ready

@[simp] lemma Work.changes_after (p : ResolvedPipeline V) (pos : Option P) :
    (Work.after p pos : Work P V).changes = [] := by
  unfold after
  split <;> rfl

lemma Work.after_cases (p : ResolvedPipeline V) (pos : Option P) :
    (Work.after p pos : Work P V) = .confirming pos ∨ (Work.after p pos : Work P V) = .ready := by
  unfold after
  split
  · exact .inl rfl
  · exact .inr rfl

lemma Work.after_ne_settled (p : ResolvedPipeline V) (pos : Option P) (e : ChangeEvent P V) :
    Work.after p pos ≠ .settled e := by
  rcases after_cases p pos (V := V) with h | h <;> simp [h]

structure Lane (P V : Type) where
  phase : PipelineState
  queue : List (Item P V)
  work : Work P V
  confirmed : Option (Option P)
  log : List (LogEntry P V)
  offered : List (Item P V)

def changesOf (xs : List (Item P V)) : List (ChangeEvent P V) := xs.filterMap Item.change?

@[simp] lemma changesOf_nil : changesOf ([] : List (Item P V)) = [] := rfl

@[simp] lemma changesOf_append (xs ys : List (Item P V)) :
    changesOf (xs ++ ys) = changesOf xs ++ changesOf ys := filterMap_append

@[simp] lemma changesOf_cons_change (e : ChangeEvent P V) (xs : List (Item P V)) :
    changesOf (.change e :: xs) = e :: changesOf xs := rfl

@[simp] lemma changesOf_cons_heartbeat (pos : Option P) (xs : List (Item P V)) :
    changesOf (.heartbeat pos :: xs) = changesOf xs := rfl

lemma mem_changesOf {e : ChangeEvent P V} {xs : List (Item P V)} :
    e ∈ changesOf xs ↔ .change e ∈ xs := by
  unfold changesOf
  rw [List.mem_filterMap]
  constructor
  · rintro ⟨x, hx, he⟩
    cases x with
    | change e' => cases he; exact hx
    | heartbeat pos => cases he
  · exact fun h => ⟨_, h, rfl⟩

inductive Lane.Step (p : ResolvedPipeline V) (i : ι) (l : Lane P V) :
    Act ι P V → Lane P V → Prop
  | stay {a : Act ι P V} : Lane.Step p i l a l
  | accept {x : Item P V} (hfor : x.For p) :
      Lane.Step p i l (.deliver x) { l with queue := l.queue ++ [x], offered := l.offered ++ [x] }
  | refuse {x : Item P V} {q : List (Item P V)} (hfor : x.For p) (hphase : l.phase ≠ .streaming)
      (hqueue : l.queue = q ++ [x]) : Lane.Step p i l (.turnAway i x) { l with queue := q }
  | evict {x : Item P V} {q r : List (Item P V)} (hpolicy : p.bufferPolicy = .dropOldest)
      (hqueue : l.queue = q ++ x :: r) : Lane.Step p i l .dispatch { l with queue := q ++ r }
  | overflow {x : Item P V} {q : List (Item P V)} (hpolicy : p.bufferPolicy = .error)
      (hqueue : l.queue = q ++ [x]) : Lane.Step p i l .dispatch { l with queue := q }
  | discard {x : Item P V} {q : List (Item P V)} (hphase : l.phase ≠ .streaming)
      (hwork : l.work = .ready) (hqueue : l.queue = x :: q) :
      Lane.Step p i l (.discard i x) { l with queue := q }
  | begin {e : ChangeEvent P V} {q : List (Item P V)} (hphase : l.phase = .streaming)
      (hwork : l.work = .ready) (hqueue : l.queue = .change e :: q) :
      Lane.Step p i l (.consume i) { l with queue := q, work := .applying e }
  | beat {pos : Option P} {q : List (Item P V)} (hphase : l.phase = .streaming)
      (hwork : l.work = .ready) (hqueue : l.queue = .heartbeat pos :: q) :
      Lane.Step p i l (.consume i)
        { l with queue := q, work := .after p pos }
  | finish {e : ChangeEvent P V} (now : Int) (hwork : l.work = .applying e) :
      Lane.Step p i l (.consume i)
        { l with
          log := l.log ++ [.change e (p.applyChangeToTarget now e)]
          work := .after p e.position }
  | fail {e : ChangeEvent P V} (hwork : l.work = .applying e) :
      Lane.Step p i l (.consume i) { l with work := .failing e }
  | settle {a : Act ι P V} {e : ChangeEvent P V} (hwork : l.work = .failing e) :
      Lane.Step p i l a { l with phase := .error, work := .settled e }
  | settleDead {a : Act ι P V} {e : ChangeEvent P V} (hwork : l.work = .failing e)
      (hdead : l.phase = .error ∨ l.phase = .stopped) :
      Lane.Step p i l a { l with work := .settled e }
  | abandon {e : ChangeEvent P V} (hwork : l.work = .settled e) :
      Lane.Step p i l (.consume i) { l with work := .ready }
  | confirm {pos : Option P} (hwork : l.work = .confirming pos) :
      Lane.Step p i l (.consume i) { l with work := .ready, confirmed := some pos }
  | error {a : Act ι P V} : Lane.Step p i l a { l with phase := .error }
  | store (st : PipelineState) : Lane.Step p i l (.store i st) { l with phase := st }
  | reload {st : PipelineState} (hst : st = .baselining ∨ st = .streaming) :
      Lane.Step p i l .reload { l with phase := st }
  | note {entry : LogEntry P V} (hentry : entry.event? = none) :
      Lane.Step p i l .reload { l with log := l.log ++ [entry] }

section

variable [DecidableEq ι]

/-- The item in the dispatcher's hands, once for each time it is still to look at
pipeline `i`. -/
def Dispatcher.holds (p : ResolvedPipeline V) (i : ι) : Dispatcher ι P V → List (Item P V)
  | idle => []
  | scan x rest | policy x _ rest | refused x rest =>
      if x.For p then List.replicate (rest.count i) x else []
  | send x j rest | evict x j rest | resend x j rest | aborted x j rest =>
      (if j = i then [x] else []) ++
        if x.For p then List.replicate (rest.count i) x else []

def Consumer.unchecked : Consumer P V → List (Item P V)
  | dequeued x => [x]
  | _ => []

/-- What the consumer of `i` is busy with, given what is left of its error policy. -/
def Consumer.work (i : ι) (ops : List (PolicyOp ι)) : Consumer P V → Work P V
  | applying e _ | backoff e _ => .applying e
  | failed e => .failing e
  | policy e => if .store i ∈ ops ∨ .check i ∈ ops then .failing e else .settled e
  | confirming pos => .confirming pos
  | receive | dequeued _ | acking | sendAck _ | exited => .ready

def State.lane (c : Config ι P V) (s : State ι P V) (i : ι) : Lane P V where
  phase := s.pstate i
  queue := (s.consumer i).unchecked ++ s.buf i ++ s.dispatcher.holds (c.pipeline i) i
  work := (s.consumer i).work i (s.ops (.consumer i))
  confirmed := s.tracker.positions i
  log := s.log i
  offered := s.delivered.filter (fun x => decide (x.For (c.pipeline i)))

variable {c : Config ι P V} {s s' : State ι P V} {i : ι} {a : Act ι P V}

omit [DecidableEq ι] in
lemma Lane.Step.of_eq {p : ResolvedPipeline V} {l l' : Lane P V}
    (h : l' = l) : Lane.Step p i l a l' := h ▸ .stay

omit [DecidableEq ι] in
lemma Lane.Step.congr {p : ResolvedPipeline V} {l l₁ l₂ : Lane P V}
    (h : Lane.Step p i l a l₁) (heq : l₂ = l₁) : Lane.Step p i l a l₂ := heq ▸ h

lemma State.lane_setState_self (i : ι) (st : PipelineState) :
    (s.setState i st).lane c i = { s.lane c i with phase := st } := by
  simp [lane]

variable {j : ι}

lemma State.lane_setState_of_ne (hij : i ≠ j) (st : PipelineState) :
    (s.setState j st).lane c i = s.lane c i := by
  simp [lane, hij]

lemma State.lane_record_self (i : ι) (entry : LogEntry P V) :
    (s.record i entry).lane c i = { s.lane c i with log := (s.lane c i).log ++ [entry] } := by
  simp [lane]

lemma State.lane_record_of_ne (hij : i ≠ j) (entry : LogEntry P V) :
    (s.record j entry).lane c i = s.lane c i := by
  simp [lane, hij]

lemma Lane.Step.of_setState {st : PipelineState}
    (h : j = i → Lane.Step (c.pipeline i) i (s.lane c i) a { s.lane c i with phase := st }) :
    Lane.Step (c.pipeline i) i (s.lane c i) a ((s.setState j st).lane c i) := by
  by_cases hj : i = j
  · subst hj
    exact (h rfl).congr (lane_setState_self i st)
  · exact .of_eq (lane_setState_of_ne hj st)

lemma Lane.Step.of_record {entry : LogEntry P V} (hent : entry.event? = none) :
    Lane.Step (c.pipeline i) i (s.lane c i) .reload ((s.record j entry).lane c i) := by
  by_cases hj : i = j
  · subst hj
    exact (Lane.Step.note hent).congr (lane_record_self i entry)
  · exact .of_eq (lane_record_of_ne hj entry)

lemma DispatchStep.lane_cases (h : DispatchStep c s s') : (∀ i, s'.lane c i = s.lane c i) ∨
      ((∃ x j rest, s.dispatcher = .evict x j rest) ∨
        ∃ x j rest, s.dispatcher = .send x j rest ∧ ¬ x.Blocks (c.pipeline j)) ∧
      ∀ i, Lane.Step (c.pipeline i) i (s.lane c i) .dispatch (s'.lane c i) := by
  cases h with
  | @pass x j rest hpc hgate =>
    refine .inl fun i => ?_
    by_cases hj : j = i
    · subst hj
      simp [lane, hpc, holds, hgate.1, replicate_succ]
    · simp [lane, hpc, holds, hj]
  | @send x j rest hpc hroom | @resend x j rest hpc hroom =>
    refine .inl fun i => ?_
    by_cases hj : j = i
    · subst hj
      simp [lane, hpc, holds]
    · simp [lane, hpc, holds, hj, update_of_ne (Ne.symm hj)]
  | @evict x y j rest ys hpc hpol hbuf =>
    refine .inr ⟨.inl ⟨x, j, rest, hpc⟩, fun i => ?_⟩
    by_cases hj : j = i
    · subst hj
      let held := holds (c.pipeline j) j (.evict x j rest)
      refine (Lane.Step.evict (x := y) (q := (s.consumer j).unchecked) (r := ys ++ held)
        hpol ?_).congr ?_
      · simp [lane, hpc, hbuf, held]
      · simp [lane, holds, held]
    · exact .of_eq
        (by simp [lane, hpc, holds, hj, update_of_ne (Ne.symm hj)])
  | @overflow x j rest hpc hblocks hpol hfull =>
    refine .inr ⟨.inr ⟨x, j, rest, hpc, hblocks⟩, fun i => ?_⟩
    by_cases hj : j = i
    · subst hj
      refine (Lane.Step.overflow (x := x) hpol ?_).congr rfl
      by_cases hfor : x.For (c.pipeline j)
      · simp [lane, hpc, holds, hfor, ← replicate_succ', replicate_succ]
      · simp [lane, hpc, holds, hfor]
    · exact .of_eq (by simp [lane, hpc, holds, hj])
  | full hpc | cancelled hpc | goOn hpc | giveUp hpc | done hpc =>
    exact .inl fun i => by simp [lane, hpc, holds]

lemma DispatchStep.lane (h : DispatchStep c s s') (i : ι) :
    Lane.Step (c.pipeline i) i (s.lane c i) .dispatch (s'.lane c i) := by
  rcases h.lane_cases with heq | ⟨-, hstep⟩
  · exact .of_eq (heq i)
  · exact hstep i

lemma ConsumeStep.lane_of_ne (h : ConsumeStep c j s s') (hij : i ≠ j) :
    s'.lane c i = s.lane c i := by
  have hthread : (Thread.consumer i) ≠ .consumer j := fun h => hij (Thread.consumer.inj h)
  cases h with
  | settled pids hpc hpids hack | advance pids hpc hpids hack =>
    simp [lane, hij, (ackPosition_positions hack).1]
  | _ =>
    simp [lane, AckTracker.confirm, hij, hthread]

lemma ConsumeStep.lane_self (h : ConsumeStep c i s s') :
    Lane.Step (c.pipeline i) i (s.lane c i) (.consume i) (s'.lane c i) := by
  cases h with
  | receive hpc hbuf =>
    exact .of_eq (by simp [lane, hpc, hbuf, unchecked, work])
  | exit hpc hbuf hcl => exact .of_eq (by simp [lane, hpc, unchecked, work])
  | @beat pos hpc hstt =>
    refine (Lane.Step.beat (q := s.buf i ++ s.dispatcher.holds (c.pipeline i) i)
      hstt ?_ (?_ : _ = Item.heartbeat pos :: _)).congr ?_
    · simp [lane, hpc, work]
    · simp [lane, hpc, unchecked]
    · cases hd : (c.pipeline i).durable <;>
        simp [lane, hpc, unchecked, work, Work.after, hd]
  | @begin e hpc hstt =>
    refine (Lane.Step.begin (e := e) (q := s.buf i ++ s.dispatcher.holds (c.pipeline i) i)
      hstt ?_ ?_).congr ?_ <;>
      simp [lane, hpc, unchecked, work]
  | @applied e n now hpc =>
    refine (Lane.Step.finish (e := e) now ?_).congr ?_
    · simp [lane, hpc, work]
    · cases hd : (c.pipeline i).durable <;>
        simp [lane, hpc, unchecked, work, Work.after, hd]
  | again hpc | ack hpc | retry hpc =>
    exact .of_eq (by simp [lane, hpc, unchecked, work])
  | @cancelled e n hpc hctx | @exhausted e n hpc hnone =>
    refine (Lane.Step.fail (e := e) ?_).congr ?_ <;>
      simp [lane, hpc, unchecked, work]
  | @escalate e hpc =>
    -- the policy has the pipeline itself before it
    have hmem : PolicyOp.store i ∈ c.policyOps i ∨ PolicyOp.check i ∈ c.policyOps i := by
      unfold Config.policyOps
      cases (c.pipeline i).errorPolicy with
      | isolate => simp
      | stopSource | stopAll => simp [c.complete i]
    exact .of_eq (by simp [lane, hpc, unchecked, work, hmem])
  | @isolated e hpc hops hpol | @stopped e hpc hops hpol =>
    refine (Lane.Step.abandon (e := e) ?_).congr ?_ <;>
      simp [lane, hpc, hops, unchecked, work]
  | @confirm pos hpc =>
    refine (Lane.Step.confirm (?_ : _ = Work.confirming pos)).congr ?_ <;>
      simp [lane, AckTracker.confirm, hpc, unchecked, work]
  | settled pids hpc hpids hack | advance pids hpc hpids hack =>
    exact .of_eq (by simp [lane, hpc, unchecked, work, (ackPosition_positions hack).1])

lemma ConsumeStep.lane (h : ConsumeStep c j s s') (i : ι) :
    Lane.Step (c.pipeline i) i (s.lane c i) (.consume j) (s'.lane c i) := by
  by_cases hij : i = j
  · exact hij ▸ h.lane_self
  · exact .of_eq (h.lane_of_ne hij)

lemma PolicyStep.lane {t : Thread ι} (h : PolicyStep t s s') (i : ι) :
    Lane.Step (c.pipeline i) i (s.lane c i) (.policy t) (s'.lane c i) := by
  by_cases ht : t = .consumer i
  · subst ht
    cases h with
    | @checkLive j rest hops hlive =>
      refine .of_eq ?_
      by_cases hj : j = i
      · subst hj
        simp [lane, work, hops]
      · simp [lane, work, hops, Ne.symm hj]
    | @checkDead j rest hops hdead =>
      by_cases hj : j = i
      · subst hj
        cases hpc : s.consumer j with
        | policy e =>
          by_cases hleft : PolicyOp.store j ∈ rest ∨ PolicyOp.check j ∈ rest
          · exact .of_eq (by simp [lane, work, hpc, hops, hleft])
          · refine (Lane.Step.settleDead (e := e) ?_ hdead).congr ?_ <;>
              simp [lane, work, hpc, hops, hleft]
        | _ => exact .of_eq (by simp [lane, work, hpc])
      · exact .of_eq (by simp [lane, work, hops, Ne.symm hj])
    | @store j rest hops =>
      by_cases hj : j = i
      · subst hj
        cases hpc : s.consumer j with
        | policy e =>
          by_cases hleft : PolicyOp.store j ∈ rest ∨ PolicyOp.check j ∈ rest
          · exact Lane.Step.error.congr (by simp [lane, work, hpc, hops, hleft])
          · refine (Lane.Step.settle (e := e) ?_).congr ?_ <;>
              simp [lane, work, hpc, hops, hleft]
        | _ =>
          exact Lane.Step.error.congr (by simp [lane, work, hpc])
      · exact .of_eq (by simp [lane, work, hops, Ne.symm hj])
    | @skip j rest hops => exact .of_eq (by simp [lane, AckTracker.skip, work, hops])
    | @cancel rest hops => exact .of_eq (by simp [lane, work, hops])
  · cases h with
    | @store j rest hops =>
      refine (Lane.Step.of_setState (j := j) fun _ => .error).congr ?_
      simp [lane, Ne.symm ht]
    | _ => exact .of_eq (by simp [lane, AckTracker.skip, Ne.symm ht])

lemma ReloadStep.lane (h : ReloadStep c s a s') (i : ι) :
    Lane.Step (c.pipeline i) i (s.lane c i) a (s'.lane c i) := by
  cases h with
  | baselining hpc => exact .of_setState fun _ => .reload (.inl rfl)
  | storeStreaming hpc => exact .of_setState fun _ => .reload (.inr rfl)
  | truncateFails | fail | rowFails | completeFails => exact .of_setState fun _ => .error
  | truncate | putRow | complete => exact .of_record rfl
  | _ => exact .stay

lemma Step.lane (h : Step c s a s') (i : ι) :
    Lane.Step (c.pipeline i) i (s.lane c i) a (s'.lane c i) := by
  cases h with
  | deliver x hidle hopen =>
    by_cases hfor : x.For (c.pipeline i)
    · refine (Lane.Step.accept hfor).congr ?_
      -- the dispatch loop visits `i` exactly once
      have hcount := count_eq_one_of_mem c.nodup (c.complete i)
      simp [lane, hidle, holds, hfor, hcount]
    · exact .of_eq (by simp [lane, hidle, holds, hfor])
  | dispatch h | consume j h | policy t h | reload h => exact h.lane i
  | @turnAway x j rest hpc hgate =>
    by_cases hj : j = i ∧ x.For (c.pipeline i)
    · -- the gate of `i` itself: the pipeline is not STREAMING
      obtain ⟨rfl, hfor⟩ := hj
      refine Lane.Step.refuse hfor (fun hph => hgate ⟨hfor, hph⟩) ?_
      simp [lane, hpc, holds, hfor, replicate_succ', append_assoc]
    · refine .of_eq ?_
      by_cases hfor : x.For (c.pipeline i)
      · have hne : j ≠ i := fun h => hj ⟨h, hfor⟩
        simp [lane, hpc, holds, hne]
      · simp [lane, hpc, holds, hfor]
  | @discard x j hpc hstt =>
    by_cases hj : j = i
    · subst hj
      refine (Lane.Step.discard (x := x) (q := s.buf j ++ s.dispatcher.holds (c.pipeline j) j)
        hstt ?_ ?_).congr ?_ <;>
        simp [lane, hpc, unchecked, work]
    · exact .of_eq (by simp [lane, Ne.symm hj])
  | halt j => exact .of_setState fun _ => .error
  | store j st hmem => exact .of_setState fun hj => hj ▸ .store st
  | stopAll n hops => exact .of_eq (by simp [lane])
  | finalAck pids hcl hexited hpids hack =>
    exact .of_eq (by simp [lane, (ackPosition_positions hack).1])
  | _ => exact .stay

namespace State

variable (c s) (i : ι)

def handed : List (ChangeEvent P V) :=
  changesOf (s.delivered.filter (fun x => decide (x.For (c.pipeline i))))

/-- The changes in front of the state checks of `i`: taken by the consumer and not yet
checked, in the buffer, or still with the handler. -/
def waiting : List (ChangeEvent P V) := changesOf (s.lane c i).queue

/-- The changes on their way to the target of `i`: in the consumer's hands or waiting. -/
def underway : List (ChangeEvent P V) := (s.lane c i).work.changes ++ s.waiting c i

end State

end

end Laredo.Engine
