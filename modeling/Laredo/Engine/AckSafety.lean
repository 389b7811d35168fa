import Laredo.Lib.Transition
import Laredo.Engine.Conservation

/-!
# Ack safety

At-least-once delivery: a position is acknowledged to the source only when every pipeline
that counts has applied every change up to it.
-/

namespace Laredo.Engine

open Transition List

variable {ι P V : Type} [DecidableEq ι] {c : Config ι P V} {s s' : State ι P V}

def State.Acks (s : State ι P V) (q : P) : Prop :=
  (∃ i, s.consumer i = .sendAck q) ∨ s.stopAck = some q

def State.Marked (s : State ι P V) (i : ι) : Prop :=
  ∃ t, .store i ∈ s.ops t ∨ .skip i ∈ s.ops t

/-- The step computes the minimum: a consumer's call of `AckPosition`, or that of `Stop`. -/
def Act.Computes (s : State ι P V) (a : Act ι P V) : Prop :=
  a = .finalAck ∨ ∃ i, a = .consume i ∧ s.consumer i = .acking

/-- What a step does to the tracker and to the acknowledgements under way. -/
inductive AckEffect (c : Config ι P V) (s : State ι P V) (a : Act ι P V) (s' : State ι P V) : Prop
  | quiet (htracker : s'.tracker = s.tracker) (hacks : ∀ q, s'.Acks q → s.Acks q)
  | confirm (i : ι) (pos : Option P) (ha : a = .consume i) (hpc : s.consumer i = .confirming pos)
      (htracker : s'.tracker = s.tracker.confirm i pos) (hacks : ∀ q, s'.Acks q → s.Acks q)
  | skip (i : ι) (hmarked : s.Marked i) (htracker : s'.tracker = s.tracker.skip i)
      (hacks : ∀ q, s'.Acks q → s.Acks q)
  | ack (pids : List ι) (r : Option P × Bool) (ha : a.Computes s) (hpids : pids.Perm c.pipelineIdxs)
      (htracker : s.tracker.ackPosition c.order pids = (r, s'.tracker))
      (hacks : ∀ q, s'.Acks q → s.Acks q ∨ r = (some q, true))

variable {i : ι}

lemma acks_setConsumer {pc : Consumer P V} (hpc : ∀ q, pc ≠ .sendAck q) {q : P}
    (h : (s.setConsumer i pc).Acks q) : s.Acks q := by
  rcases h with ⟨j, hj⟩ | hstop
  · by_cases hij : j = i
    · subst hij
      simp [hpc] at hj
    · exact .inl ⟨j, by simpa [hij] using hj⟩
  · exact .inr hstop

lemma ConsumeStep.ackEffect (h : ConsumeStep c i s s') : AckEffect c s (.consume i) s' := by
  cases h with
  | @confirm pos hpc => exact .confirm i pos rfl hpc rfl fun q => acks_setConsumer nofun
  | settled pids hpc hpids hack =>
    exact .ack _ _ (.inr ⟨i, rfl, hpc⟩) hpids hack fun q hq => .inl (acks_setConsumer nofun hq)
  | @advance pids q' tr hpc hpids hack =>
    refine .ack _ _ (.inr ⟨i, rfl, hpc⟩) hpids hack fun q hq => ?_
    rcases hq with ⟨j, hj⟩ | hstop
    · by_cases hij : j = i
      · subst hij
        obtain rfl : q' = q := by simpa [State.setConsumer] using hj
        exact .inr rfl
      · exact .inl (.inl ⟨j, by simpa [hij] using hj⟩)
    · exact .inl (.inr hstop)
  | beat | applied =>
    refine .quiet rfl fun q => acks_setConsumer ?_
    intro q
    split <;> nofun
  | _ => exact .quiet rfl fun q => acks_setConsumer nofun

variable {a : Act ι P V}

lemma Step.ackEffect (h : Step c s a s') : AckEffect c s a s' := by
  cases h with
  | consume i h => exact h.ackEffect
  | discard i hpc hstt => exact .quiet rfl fun q => acks_setConsumer nofun
  | policy t h =>
    cases h with
    | @skip j rest hops => exact .skip j ⟨t, .inr (by simp [hops])⟩ rfl fun q => id
    | _ => exact .quiet rfl fun q => id
  | finalAck pids hcl hexited hpids hack =>
    refine .ack _ _ (.inl rfl) hpids hack fun q hq => ?_
    rcases hq with hcons | hstop
    · exact .inl (.inl hcons)
    · exact .inr (by rw [Option.some.inj hstop])
  | dispatch h | reload h => cases h <;> exact .quiet rfl fun q => id
  | _ => exact .quiet rfl fun q => id

lemma AckEffect.skipped (h : AckEffect c s a s')
    (hi : s.tracker.skipped i = true) : s'.tracker.skipped i = true := by
  cases h with
  | quiet htrk hacks => rwa [htrk]
  | confirm j pos ha hpc htrk hacks => rwa [htrk]
  | skip j hmrk htrk hacks =>
    rw [htrk, AckTracker.skip]
    by_cases hj : i = j
    · simp [hj]
    · simpa [hj] using hi
  | ack pids r ha hpids htrk hacks => rwa [(AckTracker.ackPosition_positions htrk).2]

lemma AckEffect.counted (h : AckEffect c s a s')
    (hi : s'.tracker.skipped i = false) : s.tracker.skipped i = false := by
  cases hs : s.tracker.skipped i with
  | false => rfl
  | true => simp [h.skipped hs] at hi

lemma AckEffect.unskipped (h : AckEffect c s a s')
    (hi : s'.tracker.skipped i = true) : s.tracker.skipped i = true ∨ s.Marked i := by
  cases h with
  | quiet htrk hacks | confirm j pos ha hpc htrk hacks => exact .inl (by rwa [htrk] at hi)
  | skip j hmrk htrk hacks =>
    rw [htrk, AckTracker.skip] at hi
    by_cases hj : i = j
    · exact .inr (hj ▸ hmrk)
    · exact .inl (by simpa [hj] using hi)
  | ack pids r ha hpids htrk hacks =>
    exact .inl (by rwa [(AckTracker.ackPosition_positions htrk).2] at hi)

lemma AckEffect.acks (h : AckEffect c s a s') {q : P} (hq : s'.Acks q) :
    s.Acks q ∨ a.Computes s ∧ ∃ pids tr, pids.Perm c.pipelineIdxs ∧
      s.tracker.ackPosition c.order pids = ((some q, true), tr) := by
  cases h with
  | quiet htrk hacks | confirm j pos ha hpc htrk hacks | skip j hmrk htrk hacks =>
    exact .inl (hacks q hq)
  | ack pids r ha hpids htrk hacks =>
    refine (hacks q hq).imp_right fun hr => ?_
    exact ⟨ha, pids, s'.tracker, hpids, hr ▸ htrk⟩

lemma marked_setOps {t : Thread ι} {ops : List (PolicyOp ι)}
    (h : (s.setOps t ops).Marked i) : s.Marked i ∨ .store i ∈ ops ∨ .skip i ∈ ops := by
  obtain ⟨t', ht'⟩ := h
  by_cases heq : t' = t
  · subst heq
    exact .inr (by simpa [State.setOps] using ht')
  · exact .inl ⟨t', by simpa [heq] using ht'⟩

omit [DecidableEq ι] in
lemma eq_of_mem_policyOps {j : ι}
    (h : .store i ∈ c.policyOps j ∨ .skip i ∈ c.policyOps j) : i = j := by
  unfold Config.policyOps at h
  cases hpol : (c.pipeline j).errorPolicy with
  | isolate => simpa [hpol] using h
  | stopSource | stopAll => simp [hpol] at h

lemma PolicyStep.marked {t : Thread ι} (h : PolicyStep t s s') (hmrk : s'.Marked i) :
    s.Marked i ∨ ¬ (s.lane c i).Dead := by
  -- what is left of the policy was there before
  have hrest : ∀ {op : PolicyOp ι} {rest : List (PolicyOp ι)}, s.ops t = op :: rest →
      (s.setOps t rest).Marked i → s.Marked i := by
    intro op rest hops hm
    rcases marked_setOps hm with hm | hm | hm
    · exact hm
    · exact ⟨t, .inl (by simp [hops, hm])⟩
    · exact ⟨t, .inr (by simp [hops, hm])⟩
  cases h with
  | @checkLive j rest hops hlive =>
    rcases marked_setOps hmrk with hm | hm
    · exact .inl hm
    · by_cases hij : i = j
      · subst hij
        exact .inr fun hdead => hdead.elim hlive.1 hlive.2
      · refine .inl ⟨t, ?_⟩
        simpa [hops, hij] using hm
  | checkDead hops hdead | store hops | skip hops | cancel hops => exact .inl (hrest hops hmrk)

lemma Step.marked (h : Step c s a s')
    (hblk : (c.pipeline i).bufferPolicy = .block) (hmrk : s'.Marked i) :
    s.Marked i ∨ ¬ (s.lane c i).Dead ∨ (s.lane c i).work ≠ .ready := by
  cases h with
  | policy t h => exact (h.marked hmrk).imp_right .inl
  | consume j h =>
    cases h with
    | @escalate e hpc =>
      rcases marked_setOps hmrk with hm | hm
      · exact .inl hm
      · obtain rfl := eq_of_mem_policyOps hm
        exact .inr (.inr (by simp [State.lane, hpc, Consumer.work]))
    | _ => exact .inl hmrk
  | dispatch h =>
    cases h with
    | @overflow x j rest hpc hblocks hpol hfull =>
      rcases marked_setOps hmrk with hm | hm
      · exact .inl hm
      · obtain rfl := eq_of_mem_policyOps hm
        simp [hblk] at hpol
    | _ => exact .inl hmrk
  | stopAll n hops => exact .inl ((marked_setOps hmrk).resolve_right (by simp))
  | reload h => cases h <;> exact .inl hmrk
  | _ => exact .inl hmrk

/-- Pipeline `i` holds the minimum back for good: it was out of the stream from the
beginning, and no error policy skips a pipeline that is in ERROR already. -/
structure Blocks (c : Config ι P V) (s : State ι P V) (i : ι) : Prop where
  counted : s.tracker.skipped i = false
  dead : (s.lane c i).Dead
  idle : (s.lane c i).work = .ready
  unmarked : ¬ s.Marked i
  behind : s.tracker.positions i = none ∨ ∃ p last, s.tracker.positions i = some (some p) ∧
    s.tracker.lastAcked = some last ∧ c.order.Le p last

structure Backed (c : Config ι P V) (s : State ι P V) : Prop where
  nonnil : ∀ i, s.tracker.positions i ≠ some none
  minimum : (∀ i, s.tracker.skipped i = false → ∀ p, s.tracker.positions i = some (some p) →
      (s.lane c i).Done c.order p ∨ ∃ last, s.tracker.lastAcked = some last ∧ c.order.Le p last) ∨
    ∃ i, Blocks c s i
  acks : ∀ q, s.Acks q → ∀ i, s.tracker.skipped i = false → (s.lane c i).Done c.order q

structure Safe (c : Config ι P V) (s : State ι P V) : Prop where
  conserves : ∀ i, (s.lane c i).Conserves
  covered : Increasing c.order s.delivered → ∀ i, (s.lane c i).Covered c.order
  backed : Increasing c.order s.delivered → Backed c s

def Careful (c : Config ι P V) (s : State ι P V) (a : Act ι P V) : Prop :=
  ∀ i, (s.lane c i).Careful (c.pipeline i) i a

lemma Step.delivered_sublist (h : Step c s a s') : s.delivered.Sublist s'.delivered := by
  cases h with
  | deliver x => exact sublist_append_left _ _
  | dispatch h | consume i h | policy t h | reload h => cases h <;> exact List.Sublist.refl _
  | _ => exact List.Sublist.refl _

lemma Increasing.offered (h : Increasing c.order s.delivered) (i : ι) :
    Increasing c.order (s.lane c i).offered := h.sublist filter_sublist

lemma Backed.of_ackPosition (h : Backed c s) {pids : List ι} {q : P} {tr : AckTracker ι P}
    (hpids : pids.Perm c.pipelineIdxs)
    (hack : s.tracker.ackPosition c.order pids = ((some q, true), tr)) (i : ι)
    (hskip : s.tracker.skipped i = false) : (s.lane c i).Done c.order q := by
  obtain ⟨q', hq', -, hlast, hall⟩ := AckTracker.ackPosition_advanced (fun i _ => h.nonnil i) hack
  cases hq'
  have hmem : ∀ j, j ∈ pids := fun j => hpids.mem_iff.mpr (c.complete j)
  -- a position at or before the last acknowledged one cannot be at or past the new one
  have hold : ∀ {p last : P}, c.order.Le q p → s.tracker.lastAcked = some last →
      ¬ c.order.Le p last := fun hqp hl hpl => ((hlast _ hl).trans_le (hqp.trans hpl)).irrefl
  rcases h.minimum with hrd | ⟨F, hF⟩
  · obtain ⟨p, hp, hqp⟩ := hall i (hmem i) hskip
    rcases hrd i hskip p hp with hdone | ⟨last, hl, hle⟩
    · exact hdone.mono hqp
    · exact absurd hle (hold hqp hl)
  · obtain ⟨p, hp, hqp⟩ := hall F (hmem F) hF.counted
    rcases hF.behind with hnone | ⟨p', last, hp', hl, hle⟩
    · simp [hnone] at hp
    · obtain rfl : p' = p := by simpa [hp'] using hp
      exact absurd hle (hold hqp hl)

lemma Blocks.step (h : Blocks c s i) (hstep : Step c s a s')
    (hok : Careful c s a) (hblk : (c.pipeline i).bufferPolicy = .block)
    (hskip : s'.tracker.skipped i = true → s.tracker.skipped i = true ∨ s.Marked i)
    (hmono : ∀ last, s.tracker.lastAcked = some last →
      ∃ last', s'.tracker.lastAcked = some last' ∧ c.order.Le last last') : Blocks c s' i := by
  obtain ⟨hdead, hidle, hconf⟩ := (hstep.lane i).inert (hok i) h.dead h.idle
  have hpos : s'.tracker.positions i = s.tracker.positions i := hconf
  refine ⟨?_, hdead, hidle, fun hm => ?_, ?_⟩
  · cases hs : s'.tracker.skipped i with
    | false => rfl
    | true => exact ((hskip hs).elim (by simp [h.counted]) (absurd · h.unmarked))
  · rcases hstep.marked hblk hm with hm | hnot | hnot
    · exact h.unmarked hm
    · exact hnot h.dead
    · exact hnot h.idle
  · rw [hpos]
    refine h.behind.imp_right ?_
    rintro ⟨p, last, hp, hl, hle⟩
    obtain ⟨last', hl', hle'⟩ := hmono last hl
    exact ⟨p, last', hp, hl', hle.trans hle'⟩

structure Tracked (c : Config ι P V) (s s' : State ι P V) : Prop where
  nonnil : ∀ i, s'.tracker.positions i ≠ some none
  skipped : ∀ i, s.tracker.skipped i = true → s'.tracker.skipped i = true
  unskipped : ∀ i, s'.tracker.skipped i = true → s.tracker.skipped i = true ∨ s.Marked i
  positions : ∀ i p, s'.tracker.positions i = some (some p) →
    s.tracker.positions i = some (some p) ∨ (s.lane c i).Done c.order p
  lastAcked : ∀ last, s.tracker.lastAcked = some last →
    ∃ last', s'.tracker.lastAcked = some last' ∧ c.order.Le last last'
  acks : ∀ q, s'.Acks q → ∀ i, s.tracker.skipped i = false → (s.lane c i).Done c.order q

lemma AckEffect.tracked (h : AckEffect c s a s') (hb : Backed c s)
    (hcov : ∀ i, (s.lane c i).Covered c.order) : Tracked c s s' := by
  have hrefl : ∀ last, s.tracker.lastAcked = some last →
      ∃ last', s.tracker.lastAcked = some last' ∧ c.order.Le last last' :=
    fun last hl => ⟨last, hl, Comparator.Le.refl _ _⟩
  have hskip : ∀ i, s.tracker.skipped i = true → s'.tracker.skipped i = true := fun i => h.skipped
  have hunsk : ∀ i, s'.tracker.skipped i = true → s.tracker.skipped i = true ∨ s.Marked i :=
    fun i => h.unskipped
  have hacks : ∀ q, s'.Acks q → ∀ i, s.tracker.skipped i = false → (s.lane c i).Done c.order q := by
    intro q hq
    rcases h.acks hq with hold | ⟨-, pids, tr, hpids, hack⟩
    · exact hb.acks q hold
    · exact hb.of_ackPosition hpids hack
  cases h with
  | quiet htrk | skip i hmrk htrk =>
    refine ⟨?_, hskip, hunsk, ?_, ?_, hacks⟩ <;> rw [htrk]
    · exact hb.nonnil
    · exact fun _ _ => .inl
    · exact hrefl
  | confirm i pos ha hpc htrk =>
    have hwork : (s.lane c i).work = .confirming pos := by simp [State.lane, hpc, Consumer.work]
    obtain ⟨q, rfl, hdone⟩ := (hcov i).confirming pos hwork
    refine ⟨fun j => ?_, hskip, hunsk, fun j p hp => ?_, ?_, hacks⟩
    · rw [htrk, AckTracker.confirm]
      by_cases hj : j = i
      · subst hj; simp
      · simpa [hj] using hb.nonnil j
    · rw [htrk, AckTracker.confirm] at hp
      by_cases hj : j = i
      · subst hj
        obtain rfl : q = p := by simpa using hp
        exact .inr hdone
      · exact .inl (by simpa [hj] using hp)
    · rw [htrk]; exact hrefl
  | ack pids r ha hpids htrk =>
    have hpos := (AckTracker.ackPosition_positions htrk).1
    refine ⟨?_, hskip, hunsk, ?_, fun last => AckTracker.ackPosition_lastAcked htrk,
      hacks⟩ <;> rw [hpos]
    · exact hb.nonnil
    · exact fun _ _ => .inl

lemma Backed.step (h : Backed c s) (hcov : ∀ i, (s.lane c i).Covered c.order)
    (hblk : ∀ i, (c.pipeline i).bufferPolicy = .block) (hok : Careful c s a)
    (hstep : Step c s a s') (hinc : Increasing c.order s'.delivered) : Backed c s' := by
  have heff := hstep.ackEffect
  have htr := heff.tracked h hcov
  have hstb : ∀ i q, (s.lane c i).Done c.order q → (s'.lane c i).Done c.order q :=
    fun i q hdone => hdone.step (hinc.offered i) (hstep.lane i)
  have hcnt : ∀ i, s'.tracker.skipped i = false → s.tracker.skipped i = false :=
    fun i => heff.counted
  refine ⟨htr.nonnil, ?_, fun q hq i hi => hstb i q (htr.acks q hq i (hcnt i hi))⟩
  rcases h.minimum with hrd | ⟨F, hF⟩
  · refine .inl fun i hi p hp => ?_
    rcases htr.positions i p hp with hold | hdone
    · refine (hrd i (hcnt i hi) p hold).imp (hstb i p) ?_
      rintro ⟨last, hl, hle⟩
      obtain ⟨last', hl', hle'⟩ := htr.lastAcked last hl
      exact ⟨last', hl', hle.trans hle'⟩
    · exact .inl (hstb i p hdone)
  · exact .inr ⟨F, hF.step hstep hok (hblk F) (htr.unskipped F) htr.lastAcked⟩

lemma Safe.step (h : Safe c s) (hblk : ∀ i, (c.pipeline i).bufferPolicy = .block)
    (hok : Careful c s a) (hstep : Step c s a s') : Safe c s' := by
  refine ⟨fun i => (h.conserves i).step (hblk i) (hok i) (hstep.lane i), fun hinc i => ?_,
    fun hinc => ?_⟩
  · have hold := hinc.sublist hstep.delivered_sublist
    exact (h.covered hold i).step (h.conserves i) (hinc.offered i) (hstep.lane i)
  · have hold := hinc.sublist hstep.delivered_sublist
    exact (h.backed hold).step (h.covered hold) hblk hok hstep hinc

/-- The beginning of a streaming session: nothing delivered, nobody busy, no pipeline
PAUSED, and the tracker as a baseline or a resume leaves it. -/
structure Start (c : Config ι P V) (s : State ι P V) : Prop where
  idle : s.dispatcher = .idle
  receive : ∀ i, s.consumer i = .receive
  buf : ∀ i, s.buf i = []
  ops : ∀ t, s.ops t = []
  delivered : s.delivered = []
  log : ∀ i, s.log i = []
  stopAck : s.stopAck = none
  notPaused : ∀ i, s.pstate i ≠ .paused
  tracker : s.tracker.Settled c.order (fun i => s.pstate i = .error ∨ s.pstate i = .stopped)

lemma Start.lane (h : Start c s) (i : ι) :
    s.lane c i = ⟨s.pstate i, [], .ready, s.tracker.positions i, [], []⟩ := by
  simp [State.lane, h.idle, h.receive i, h.buf i, h.delivered, h.log i, Consumer.unchecked,
    Consumer.work, Dispatcher.holds]

lemma Start.safe (h : Start c s) : Safe c s := by
  have hacks : ∀ q, ¬ s.Acks q := by
    rintro q (⟨i, hi⟩ | hq)
    · simp [h.receive i] at hi
    · simp [h.stopAck] at hq
  refine ⟨fun i => ?_, fun _ i => ?_, fun _ => ⟨h.tracker.nonnil, ?_, ?_⟩⟩
  · rw [h.lane]
    exact ⟨List.Sublist.refl _, fun _ => rfl, fun _ => rfl, nofun⟩
  · rw [h.lane]
    exact .of_idle nofun nofun
  · rcases h.tracker.minimum with hle | ⟨i, hi, hdead, hbeh⟩
    · exact .inl fun i hi p hp => .inr (hle i hi p hp)
    · refine .inr ⟨i, hi, hdead, by rw [h.lane], ?_, hbeh⟩
      rintro ⟨t, ht⟩
      simp [h.ops t] at ht
  · exact fun q hq => absurd hq (hacks q)

lemma Start.safe_of_reach {s₀ : State ι P V} (h : Start c s₀)
    (hblk : ∀ i, (c.pipeline i).bufferPolicy = .block)
    (hrun : Reach (Step c) (Careful c) s₀ s) : Safe c s :=
  hrun.invariant (Safe c) h.safe fun hsafe hok hstep => hsafe.step hblk hok hstep

def Act.Unattended : Act ι P V → Prop
  | .pauseSource | .resumeSource | .pauseCheck _ | .resumeCheck _ | .store _ _ | .reload
  | .snapshot _ _ => False
  | _ => True

omit [DecidableEq ι] in
lemma Lane.Step.not_paused {p : ResolvedPipeline V} {l l' : Lane P V}
    (h : Lane.Step p i l a l') (ha : a.Unattended) (hp : l.phase ≠ .paused) :
    l'.phase ≠ .paused := by
  cases h with
  | settle | error => simp
  | store | reload => exact ha.elim
  | _ => exact hp

lemma Start.careful {s₀ : State ι P V} (h : Start c s₀)
    (hrun : Reach (Step c) (fun _ a => a.Unattended) s₀ s) :
    Reach (Step c) (Careful c) s₀ s := by
  have hcareful : ∀ {t : State ι P V} {a : Act ι P V}, a.Unattended →
      (∀ i, t.pstate i ≠ .paused) → Careful c t a := by
    intro t a ha hp i
    cases a with
    | deliver x =>
      cases x with
      | change e => exact fun _ => hp i
      | heartbeat pos => trivial
    | store | reload | snapshot => exact ha.elim
    | _ => trivial
  refine (hrun.invariant (fun t => Reach (Step c) (Careful c) s₀ t ∧
    ∀ i, t.pstate i ≠ .paused) ⟨.refl _, h.notPaused⟩ ?_).1
  rintro t t' a ⟨hrch, hp⟩ ha hstep
  exact ⟨hrch.snoc hstep (hcareful ha hp), fun i => (hstep.lane i).not_paused ha (hp i)⟩

def State.start {ι P V : Type} (pstate : ι → PipelineState) (tracker : AckTracker ι P) :
    State ι P V where
  pstate := pstate
  tracker := tracker
  buf _ := []
  dispatcher := .idle
  consumer _ := .receive
  ops _ := []
  ctxDone := false
  streamDone := false
  stopAck := none
  admin := []
  reload := .idle
  sourcePaused := false
  delivered := []
  log _ := []

inductive Shop
  | accounts
  | orders
  deriving DecidableEq

def Shop.table : Shop → TableIdentifier
  | accounts => ⟨"public", "accounts"⟩
  | orders => ⟨"public", "orders"⟩

def Shop.config : Config Shop Int Text where
  order := .ofInt
  pipelineIdxs := [.accounts, .orders]
  nodup := by decide
  complete := by intro i; cases i <;> decide
  pipeline i := { table := i.table }

lemma Shop.nodup : Shop.config.pipelineIdxs.Nodup := Shop.config.nodup

lemma Shop.complete : ∀ i, i ∈ Shop.config.pipelineIdxs := Shop.config.complete

def Shop.start : State Shop Int Text :=
  .start (fun _ => .streaming)
    (AckTracker.new.confirmBaseline Shop.config.order Shop.config.pipelineIdxs
      Shop.config.pipelineIdxs 10).2

lemma Shop.start_start : Start Shop.config Shop.start where
  idle := rfl
  receive _ := rfl
  buf _ := rfl
  ops _ := rfl
  delivered := rfl
  log _ := rfl
  stopAck := rfl
  notPaused _ := nofun
  tracker := AckTracker.settled_confirmBaseline Shop.config.complete
    (fun i => .inl (Shop.config.complete i)) (by simp [AckTracker.new]) (by simp [AckTracker.new])
    (show AckTracker.new.confirmBaseline Shop.config.order _ _ 10 =
      (_, Shop.start.tracker) from rfl)

def Shop.row (id : String) : Row Text := Std.ExtTreeMap.ofList [("id", some id)]

def Shop.insert (i : Shop) (pos : Int) (id : String) : ChangeEvent Int Text :=
  ⟨i.table, .insert, some pos, some (Shop.row id), none⟩

/-- **Acknowledgement is safe.** When a position is acknowledged, every change up to it that was
delivered for a pipeline that is not skipped has been processed by that pipeline's target. -/
theorem acked_changes_are_applied (hblock : ∀ i, (c.pipeline i).bufferPolicy = .block)
    {s₀ : State ι P V} (hstart : Start c s₀)
    (hrun : Reach (Step c) (fun _ a => a.Unattended) s₀ s)
    (hinc : Increasing c.order s.delivered) {q : P} (hack : s.Acks q) {i : ι}
    (hcounted : s.tracker.skipped i = false) {e : ChangeEvent P V}
    (he : .change e ∈ s.delivered) (htable : e.table = (c.pipeline i).table) {p : P}
    (hp : e.position = some p) (hle : c.order.Le p q) : e ∈ appliedChanges (s.log i) := by
  have hsafe := hstart.safe_of_reach hblock (hstart.careful hrun)
  have hdone := (hsafe.backed hinc).acks q hack i hcounted
  have hoff : e ∈ changesOf (s.lane c i).offered :=
    mem_changesOf.mpr (List.mem_filter.mpr ⟨he, by simp [Item.For, htable]⟩)
  exact hdone.applied e hoff p hp hle

theorem acked_changes_are_applied_run : ∃ s : State Shop Int Text,
    Reach (Step Shop.config) (fun _ a => a.Unattended) Shop.start s ∧ s.Acks 11 ∧
    Item.change (Shop.insert .accounts 11 "7") ∈ s.delivered ∧
    Shop.insert .accounts 11 "7" ∈ appliedChanges (s.log .accounts) := by
  let c := Shop.config
  have h : Reach (Step c) (fun _ a => a.Unattended) Shop.start _ := .refl _
  -- an insert for one pipeline, applied and confirmed there: the other still holds 10
  have h := h
    |>.snoc (.deliver (.change (Shop.insert .accounts 11 "7")) rfl rfl)
    |>.snoc (.dispatch (.pass rfl (by decide)))
    |>.snoc (.dispatch (.send rfl (by decide)))
    |>.snoc (.turnAway rfl (by decide))
    |>.snoc (.dispatch (.done rfl))
    |>.snoc (.consume .accounts (.receive rfl rfl))
    |>.snoc (.consume .accounts (.begin rfl rfl))
    |>.snoc (.consume .accounts (.applied 0 rfl))
    |>.snoc (.consume .accounts (.confirm rfl))
    |>.snoc (.consume .accounts (.settled c.pipelineIdxs rfl (.refl _) rfl))
  -- a heartbeat for both, taken by the other one first
  have h := h
    |>.snoc (.deliver (.heartbeat (some 12)) rfl rfl)
    |>.snoc (.dispatch (.pass rfl (by decide)))
    |>.snoc (.dispatch (.send rfl (by decide)))
    |>.snoc (.dispatch (.pass rfl (by decide)))
    |>.snoc (.dispatch (.send rfl (by decide)))
    |>.snoc (.consume .orders (.receive rfl rfl))
    |>.snoc (.consume .orders (.beat rfl rfl))
    |>.snoc (.consume .orders (.confirm rfl))
    |>.snoc (.consume .orders (.advance (q := 11) c.pipelineIdxs rfl (.refl _) rfl))
  refine ⟨_, h, .inl ⟨.orders, rfl⟩, mem_cons_self, ?_⟩
  refine acked_changes_are_applied (fun _ => rfl) Shop.start_start h ⟨?_, ?_⟩
    (.inl ⟨.orders, rfl⟩) rfl mem_cons_self rfl rfl (by decide)
  · simp [Shop.start, State.start, Shop.insert, Item.position]
  · simp [Shop.start, State.start, Shop.insert, Item.position, Item.Precedes]
    decide

end Laredo.Engine
