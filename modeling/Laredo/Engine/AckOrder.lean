import Laredo.Engine.AckSafety

/-!
# Ack order

The order in which acknowledgements reach the source.
-/

namespace Laredo.Engine

open Transition Shop Comparator List AckTracker

variable {ι P V : Type}

/-- The position a step passes to `source.Ack`: that of a consumer, or the one that `Stop`
acknowledges at the end. -/
def Act.passed (s s' : State ι P V) : Act ι P V → Option P
  | .consume i =>
      match s.consumer i with
      | .sendAck q => some q
      | _ => none
  | .finalAck => s'.stopAck
  | _ => none

/-- A session, and the positions passed to `source.Ack` so far, in the order of the calls. -/
structure Acknowledging (ι P V : Type) where
  session : State ι P V
  acked : List P

variable [DecidableEq ι] (c : Config ι P V)

inductive AckStep (σ : Acknowledging ι P V) : Act ι P V → Acknowledging ι P V → Prop
  | step {a : Act ι P V} {s' : State ι P V} (h : Step c σ.session a s') :
      AckStep σ a ⟨s', σ.acked ++ (a.passed σ.session s').toList⟩

/-- A consumer that calls `source.Ack` has the earliest of the positions that the consumers are
about to pass. -/
def InTurn (σ : Acknowledging ι P V) : Act ι P V → Prop
  | .consume i => ∀ q, σ.session.consumer i = .sendAck q →
      ∀ j q', σ.session.consumer j = .sendAck q' → c.order.Le q q'
  | _ => True

variable {c} {s s' : State ι P V} {a : Act ι P V}

lemma AckStep.ack {σ : Acknowledging ι P V} {i : ι} {q : P}
    (h : σ.session.consumer i = .sendAck q) :
    AckStep c σ (.consume i) ⟨σ.session.setConsumer i .receive, σ.acked ++ [q]⟩ := by
  have hstep : AckStep c σ (.consume i) _ := .step (.consume i (.ack h))
  simpa [Act.passed, h] using hstep

lemma Step.sendAck (hstep : Step c s a s') {j : ι} {q : P} (hj : s'.consumer j = .sendAck q) :
    s.consumer j = .sendAck q ∧ a ≠ .consume j ∨ a = .consume j ∧ s.consumer j = .acking ∧ ∃ pids,
        s.tracker.ackPosition c.order pids = ((some q, true), s'.tracker) := by
  cases hstep with
  | consume i h =>
    by_cases hij : j = i
    · subst hij
      cases h with
      | @advance pids q' tr hpc hpids hack =>
        obtain rfl : q' = q := by simpa [State.setConsumer] using hj
        exact .inr ⟨rfl, hpc, pids, hack⟩
      | beat | applied =>
        simp only [State.setConsumer, State.record, Function.update_self] at hj
        split at hj <;> cases hj
      | _ => simp at hj
    · have hne : (Act.consume i : Act ι P V) ≠ .consume j := fun heq => hij (by cases heq; rfl)
      refine .inl ⟨?_, hne⟩
      cases h <;> simpa [hij] using hj
  | discard i hpc hstt =>
    by_cases hij : j = i
    · subst hij
      simp at hj
    · exact .inl ⟨by simpa [hij] using hj, nofun⟩
  | dispatch h | policy t h | reload h => cases h <;> exact .inl ⟨hj, nofun⟩
  | _ => exact .inl ⟨hj, nofun⟩

lemma AckEffect.lastAcked_mono (h : AckEffect c s a s') {last : P}
    (hlast : s.tracker.lastAcked = some last) :
    ∃ last', s'.tracker.lastAcked = some last' ∧ c.order.Le last last' := by
  cases h with
  | quiet htrk _ => exact ⟨last, by rw [htrk, hlast], Le.refl _ _⟩
  | confirm i pos _ _ htrk _ | skip i _ htrk _ =>
    exact ⟨last, by rw [htrk]; exact hlast, Le.refl _ _⟩
  | ack pids r _ _ htrk _ => exact ackPosition_lastAcked htrk hlast

structure Acknowledging.Ordered (c : Config ι P V) (σ : Acknowledging ι P V) : Prop where
  sorted : σ.acked.Pairwise c.order.Le
  pending : ∀ p ∈ σ.acked, ∀ j q, σ.session.consumer j = .sendAck q → c.order.Le p q
  bounded : ∀ q, q ∈ σ.acked ∨ (∃ j, σ.session.consumer j = .sendAck q) →
    ∃ last, σ.session.tracker.lastAcked = some last ∧ c.order.Le q last

omit [DecidableEq ι] in
lemma AckTracker.lt_of_ackPosition {order : PositionOrder P} {tr tr' : AckTracker ι P}
    {pids : List ι} {q : P} (h : tr.ackPosition order pids = ((some q, true), tr')) :
    tr'.lastAcked = some q ∧ ∀ last, tr.lastAcked = some last → order.Lt last q := by
  rcases ackPosition_cases h with ⟨hr, -⟩ | ⟨m, -, ⟨-, hr, -⟩ | ⟨hlast, hr, rfl⟩⟩ <;> cases hr
  exact ⟨rfl, hlast⟩

namespace Acknowledging

variable {σ σ' : Acknowledging ι P V}

omit [DecidableEq ι] in
lemma Ordered.le_of_ackPosition (h : σ.Ordered c) {pids : List ι} {q p : P} {tr : AckTracker ι P}
    (hack : σ.session.tracker.ackPosition c.order pids = ((some q, true), tr)) (hp : p ∈ σ.acked) :
    c.order.Le p q := by
  obtain ⟨last, hlast, hle⟩ := h.bounded p (.inl hp)
  exact (hle.trans_lt ((lt_of_ackPosition hack).2 last hlast)).le

lemma Ordered.move (h : σ.Ordered c) (hstep : Step c σ.session a s') :
    Ordered c ⟨s', σ.acked⟩ := by
  refine ⟨h.sorted, fun p hp j q hj => ?_, fun q hq => ?_⟩
  · rcases hstep.sendAck hj with ⟨hold, -⟩ | ⟨-, -, pids, hack⟩
    · exact h.pending p hp j q hold
    · exact h.le_of_ackPosition hack hp
  · have hbef : (q ∈ σ.acked ∨ ∃ j, σ.session.consumer j = .sendAck q) ∨
        s'.tracker.lastAcked = some q := by
      rcases hq with hq | ⟨j, hj⟩
      · exact .inl (.inl hq)
      · rcases hstep.sendAck hj with ⟨hold, -⟩ | ⟨-, -, pids, hack⟩
        · exact .inl (.inr ⟨j, hold⟩)
        · exact .inr (lt_of_ackPosition hack).1
    rcases hbef with hbef | hnew
    · obtain ⟨last, hlast, hle⟩ := h.bounded q hbef
      obtain ⟨last', hlast', hle'⟩ := hstep.ackEffect.lastAcked_mono hlast
      exact ⟨last', hlast', hle.trans hle'⟩
    · exact ⟨q, hnew, Le.refl _ _⟩

omit [DecidableEq ι] in
lemma Ordered.pass (h : σ.Ordered c) {q : P} (hpassed : ∀ p ∈ σ.acked, c.order.Le p q)
    (hwait : ∀ j q', σ.session.consumer j = .sendAck q' → c.order.Le q q')
    (hlast : ∃ last, σ.session.tracker.lastAcked = some last ∧ c.order.Le q last) :
    Ordered c { σ with acked := σ.acked ++ [q] } := by
  refine ⟨?_, fun p hp j q' hj => ?_, fun p hp => ?_⟩
  · refine pairwise_append.mpr ⟨h.sorted, pairwise_singleton _ _, fun p hp q' hq' => ?_⟩
    obtain rfl := mem_singleton.mp hq'
    exact hpassed p hp
  · rcases mem_append.mp hp with hp | hp
    · exact h.pending p hp j q' hj
    · obtain rfl := mem_singleton.mp hp
      exact hwait j q' hj
  · rcases hp with hp | hp
    · rcases mem_append.mp hp with hp | hp
      · exact h.bounded p (.inl hp)
      · obtain rfl := mem_singleton.mp hp
        exact hlast
    · exact h.bounded p (.inr hp)

lemma Ordered.step (h : σ.Ordered c) (hok : InTurn c σ a) (hstep : AckStep c σ a σ') :
    σ'.Ordered c := by
  cases hstep with
  | @step s' hs =>
    have hmvd := h.move hs
    cases hpassed : a.passed σ.session s' with
    | none => simpa using hmvd
    | some q =>
      cases a with
      | consume i =>
        have hpc : σ.session.consumer i = .sendAck q := by
          simp only [Act.passed] at hpassed
          split at hpassed
          · next q' hpc =>
              cases hpassed
              exact hpc
          · cases hpassed
        obtain ⟨last, hlast, hle⟩ := h.bounded q (.inr ⟨i, hpc⟩)
        obtain ⟨last', hlast', hle'⟩ := hs.ackEffect.lastAcked_mono hlast
        refine hmvd.pass (fun p hp => h.pending p hp i q hpc) (fun j q' hj => ?_)
          ⟨last', hlast', hle.trans hle'⟩
        rcases hs.sendAck hj with ⟨hold, -⟩ | ⟨hij, hacking, -⟩
        · exact hok q hpc j q' hold
        · cases hij
          simp [hpc] at hacking
      | finalAck =>
        cases hs with
        | @finalAck pids q' tr hcl hexited hpids hack =>
          obtain rfl : q' = q := Option.some.inj hpassed
          refine hmvd.pass (fun p hp => h.le_of_ackPosition hack hp) (fun j q'' hj => ?_)
            ⟨q', (lt_of_ackPosition hack).1, Le.refl _ _⟩
          have hexit := hexited j
          simp [hexit] at hj
        | reload h => cases h
      | _ => cases hpassed

end Acknowledging

/-- **Acknowledgements in turn never go back**, as long as a consumer calls `source.Ack` only with
the earliest of the positions about to be passed. -/
theorem acks_in_turn_never_go_back (pstate : ι → PipelineState) (tracker : AckTracker ι P)
    {σ : Acknowledging ι P V}
    (hrun : Reach (AckStep c) (InTurn c) ⟨.start pstate tracker, []⟩ σ) :
    σ.acked.Pairwise c.order.Le ∧
    ∀ i j q q', σ.session.consumer i = .sendAck q → σ.session.consumer j = .sendAck q' →
      c.order.Lt q' q → ∃ σ₁ σ₂, AckStep c σ (.consume i) σ₁ ∧ AckStep c σ₁ (.consume j) σ₂ ∧
        ¬ σ₂.acked.Pairwise c.order.Le := by
  have hst0 : Acknowledging.Ordered c ⟨.start pstate tracker, []⟩ :=
    ⟨.nil, by simp, by simp [State.start]⟩
  have hordered := hrun.invariant (Acknowledging.Ordered c) hst0 fun h hok hstep => h.step hok hstep
  refine ⟨hordered.sorted, fun i j q q' hi hj hlt => ?_⟩
  have hne : ¬ j = i := by
    intro hij
    obtain rfl : q = q' := by simpa [hij, hi] using hj
    exact hlt.irrefl
  have hj' : (σ.session.setConsumer i .receive).consumer j = .sendAck q' := by simpa [hne] using hj
  refine ⟨_, _, .ack hi, .ack hj', fun hsrt => ?_⟩
  rw [append_assoc, pairwise_append] at hsrt
  exact hlt.not_le (rel_of_pairwise_cons hsrt.2.1 mem_cons_self)

def Quiet (s : State ι P V) : Act ι P V → Prop
  | .consume i => ∀ q, s.consumer i ≠ .sendAck q
  | .finalAck => False
  | _ => True

omit [DecidableEq ι] in
lemma Quiet.passed (h : Quiet s a) : a.passed s s' = none := by
  cases a with
  | consume i =>
    simp only [Act.passed]
    split
    · next q hpc => exact absurd hpc (h q)
    · rfl
  | finalAck => exact h.elim
  | _ => rfl

lemma Acknowledging.reach_of_quiet (acked : List P)
    (hrun : Reach (Step c) Quiet s s') :
    Reach (AckStep c) (InTurn c) ⟨s, acked⟩ ⟨s', acked⟩ := by
  refine hrun.invariant
    (fun t => Reach (AckStep c) (InTurn c) ⟨s, acked⟩ ⟨t, acked⟩) (.refl _) ?_
  intro t t' a hrch hquiet hstep
  have hturn : InTurn c ⟨t, acked⟩ a := by
    cases a with
    | consume i => exact fun q hpc => absurd hpc (hquiet q)
    | _ => trivial
  have hnext := hrch.snoc (.step hstep) hturn
  simpa [hquiet.passed] using hnext

lemma Shop.reach_both_acking : ∃ s : State Shop Int Text, Reach (Step config) Quiet start s ∧
    s.consumer .accounts = .sendAck 11 ∧ s.consumer .orders = .sendAck 12 := by
  let c := config
  have h : Reach (Step c) Quiet start _ := .refl _
  have h := h
    |>.snoc (.deliver (.heartbeat (some 11)) rfl rfl)
    |>.snoc (.dispatch (.pass rfl (by decide)))
    |>.snoc (.dispatch (.send rfl (by decide)))
    |>.snoc (.dispatch (.pass rfl (by decide)))
    |>.snoc (.dispatch (.send rfl (by decide)))
    |>.snoc (.dispatch (.done rfl))
    |>.snoc (.consume .accounts (.receive rfl rfl))
    |>.snoc (.consume .accounts (.beat rfl rfl))
    |>.snoc (.consume .accounts (.confirm rfl))
    |>.snoc (.consume .accounts (.settled c.pipelineIdxs rfl (.refl _) rfl))
    |>.snoc (.consume .orders (.receive rfl rfl))
    |>.snoc (.consume .orders (.beat rfl rfl))
    |>.snoc (.deliver (.heartbeat (some 12)) rfl rfl)
    |>.snoc (.dispatch (.pass rfl (by decide)))
    |>.snoc (.dispatch (.send rfl (by decide)))
    |>.snoc (.dispatch (.pass rfl (by decide)))
    |>.snoc (.dispatch (.send rfl (by decide)))
    |>.snoc (.dispatch (.done rfl))
    |>.snoc (.consume .accounts (.receive rfl rfl))
    |>.snoc (.consume .accounts (.beat rfl rfl))
    |>.snoc (.consume .accounts (.confirm rfl))
    |>.snoc (.consume .orders (.confirm rfl))
    |>.snoc (.consume .accounts (.advance (q := 11) c.pipelineIdxs rfl (.refl _) rfl))
    |>.snoc (.consume .orders (.settled c.pipelineIdxs rfl (.refl _) rfl))
    |>.snoc (.consume .orders (.receive rfl rfl))
    |>.snoc (.consume .orders (.beat rfl rfl))
    |>.snoc (.consume .orders (.confirm rfl))
    |>.snoc (.consume .orders (.advance (q := 12) c.pipelineIdxs rfl (.refl _) rfl))
  exact ⟨_, h, rfl, rfl⟩

theorem acks_in_turn_never_go_back_run : ∃ σ : Acknowledging Shop Int Text,
    Reach (AckStep config) (InTurn config) ⟨start, []⟩ σ ∧
    σ.acked = [11, 12] ∧ σ.acked.Pairwise config.order.Le := by
  obtain ⟨s, hquiet, hacco, horders⟩ := reach_both_acking
  have h := Acknowledging.reach_of_quiet [] hquiet
  have h := h.snoc (.ack hacco) (by
    intro q hq j q' hq'
    obtain rfl : 11 = q := by simpa [hacco] using hq
    cases j
    · obtain rfl : 11 = q' := by simpa [hacco] using hq'
      decide
    · obtain rfl : 12 = q' := by simpa [horders] using hq'
      decide)
  have horders' : (s.setConsumer .accounts .receive).consumer .orders = .sendAck 12 := by
    simpa using horders
  have h := h.snoc (.ack horders') (by
    intro q hq j q' hq'
    obtain rfl : 12 = q := by simpa [horders] using hq
    cases j
    · simp at hq'
    · obtain rfl : 12 = q' := by simpa [horders] using hq'
      decide)
  exact ⟨_, h, rfl, (acks_in_turn_never_go_back _ _ h).1⟩

/-- The orders' consumer overtakes: the source is told 12 and then 11, and keeps 11. -/
theorem overtaken_ack_goes_back : ∃ σ : Acknowledging Shop Int Text,
    Run (AckStep config) ⟨start, []⟩ σ ∧
    σ.acked = [12, 11] ∧ ¬ σ.acked.Pairwise config.order.Le := by
  obtain ⟨s, hquiet, hacco, horders⟩ := reach_both_acking
  have hacco' : (s.setConsumer .orders .receive).consumer .accounts = .sendAck 11 := by
    simpa using hacco
  have h := (Acknowledging.reach_of_quiet [] hquiet).mono fun _ _ _ => trivial
  have h := h
    |>.snoc (.ack horders)
    |>.snoc (.ack hacco')
  exact ⟨_, h, rfl, show ¬ List.Pairwise config.order.Le [12, 11] by decide⟩

end Laredo.Engine
