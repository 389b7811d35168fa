import Laredo.Engine.AckSafety

/-!
# Given up

Which pipelines an acknowledgement may leave behind: those with `ErrorIsolate` that have failed one
change on all attempts.
-/

namespace Laredo.Engine

open Transition List Shop

variable {ι P V : Type} [DecidableEq ι]

structure Traced (ι P V : Type) where
  session : State ι P V
  failures : ι → List (ChangeEvent P V × Nat)
  halted : Bool

omit [DecidableEq ι] in
def failure : Consumer P V → Consumer P V → Option (ChangeEvent P V × Nat)
  | .applying e n, .backoff _ _ | .applying e n, .failed _ => some (e, n)
  | _, _ => none

def halts (c : Config ι P V) (s s' : State ι P V) : Act ι P V → Bool
  | .stopAll _ => true
  | .consume i =>
      match s.consumer i, s'.consumer i with
      | .backoff _ _, .failed _ => true
      | .failed _, _ => (c.pipeline i).errorPolicy ≠ .isolate
      | _, _ => false
  | _ => false

namespace Traced

def start (s : State ι P V) : Traced ι P V := ⟨s, fun _ => [], false⟩

def follow (c : Config ι P V) (σ : Traced ι P V) (a : Act ι P V) (s : State ι P V) :
    Traced ι P V where
  session := s
  failures i := σ.failures i ++ (failure (σ.session.consumer i) (s.consumer i)).toList
  halted := σ.halted || halts c σ.session s a

inductive Step (c : Config ι P V) (σ : Traced ι P V) : Act ι P V → Traced ι P V → Prop
  | step {a : Act ι P V} {s : State ι P V} (h : Engine.Step c σ.session a s) :
      Step c σ a (σ.follow c a s)

end Traced

omit [DecidableEq ι] in
def Exhausted (p : ResolvedPipeline V) (failures : List (ChangeEvent P V × Nat))
    (e : ChangeEvent P V) : Prop :=
  ∀ n ≤ p.maxRetries, (e, n) ∈ failures

/-- The pipeline is isolated after it has failed a change on all attempts, with everything
before the change applied. -/
def GivenUp (c : Config ι P V) (σ : Traced ι P V) (i : ι) : Prop :=
  (c.pipeline i).errorPolicy = .isolate ∧ ∃ before d rest,
    changesOf (σ.session.lane c i).offered = before ++ d :: rest ∧
    (∀ e ∈ before, e ∈ appliedChanges (σ.session.log i)) ∧
    Exhausted (c.pipeline i) (σ.failures i) d

/-- No pipeline is paused in front of a change or reloaded, and `AckPosition` is called only
before the first halt and the first cancelled retry, or when all pipelines are skipped. -/
def BeforeHalt (c : Config ι P V) (σ : Traced ι P V) (a : Act ι P V) : Prop :=
  Careful c σ.session a ∧
    (a.Computes σ.session → σ.halted = false ∨ ∀ i, σ.session.tracker.skipped i = true)

variable {c : Config ι P V} {s s' : State ι P V} {σ : Traced ι P V} {a : Act ι P V}

inductive AttemptEffect (p : ResolvedPipeline V) (i : ι) (a : Act ι P V) (pc pc' : Consumer P V) :
    Prop
  | keep (h : pc' = pc)
  | quiet (h : ∀ e n, pc' ≠ .applying e n ∧ pc' ≠ .backoff e n ∧ pc' ≠ .failed e)
  | begin (e : ChangeEvent P V) (h : pc' = .applying e 0)
  | again (e : ChangeEvent P V) (n : Nat) (hpc : pc = .backoff e n) (h : pc' = .applying e n)
  | retry (e : ChangeEvent P V) (n : Nat) (hpc : pc = .applying e n) (h : pc' = .backoff e (n + 1))
  | exhausted (e : ChangeEvent P V) (n : Nat) (hpc : pc = .applying e n) (hnone : p.maxRetries ≤ n)
      (h : pc' = .failed e)
  | cancelled (e : ChangeEvent P V) (n : Nat) (ha : a = .consume i) (hpc : pc = .backoff e n)
      (h : pc' = .failed e)

variable {i : ι}

lemma ConsumeStep.attemptEffect (h : ConsumeStep c i s s') :
    AttemptEffect (c.pipeline i) i (.consume i) (s.consumer i) (s'.consumer i) := by
  cases h with
  | @begin e hpc => exact .begin e (by simp)
  | @again e n hpc => exact .again e n hpc (by simp)
  | @retry e n hpc hleft => exact .retry e n hpc (by simp)
  | @exhausted e n hpc hnone => exact .exhausted e n hpc hnone (by simp)
  | @cancelled e n hpc hctx => exact .cancelled e n rfl hpc (by simp)
  | beat hpc | applied _ hpc =>
    refine .quiet fun e n => ?_
    cases (c.pipeline i).durable <;> simp
  | _ => exact .quiet (by simp)

lemma Step.attemptEffect (h : Step c s a s') (i : ι) :
    AttemptEffect (c.pipeline i) i a (s.consumer i) (s'.consumer i) := by
  cases h with
  | consume j h =>
    by_cases hij : i = j
    · subst hij
      exact h.attemptEffect
    · refine .keep ?_
      cases h <;> simp [hij]
  | @discard x j hpc hstt =>
    by_cases hij : i = j
    · subst hij
      exact .quiet (by simp)
    · exact .keep (by simp [hij])
  | dispatch h | policy t h | reload h => cases h <;> exact .keep rfl
  | _ => exact .keep rfl

lemma Step.ops_cases (h : Step c s a s') (hblk : ∀ i, (c.pipeline i).bufferPolicy = .block)
    {t : Thread ι} {op : PolicyOp ι} (hop : op ∈ s'.ops t) :
    op ∈ s.ops t ∨ (∃ j, .check j ∈ s.ops t) ∨ (∃ n, a = .stopAll n) ∨
      ∃ i e, a = .consume i ∧ s.consumer i = .failed e ∧ op ∈ c.policyOps i := by
  have hset : ∀ {t' : Thread ι} {ops : List (PolicyOp ι)}, op ∈ (s.setOps t' ops).ops t →
      op ∈ s.ops t ∨ t' = t ∧ op ∈ ops := by
    intro t' ops hop
    by_cases heq : t = t'
    · subst heq
      exact .inr ⟨rfl, by simpa using hop⟩
    · exact .inl (by simpa [heq] using hop)
  cases h with
  | policy t' h =>
    cases h with
    | @checkLive j rest hops hlive =>
      rcases hset hop with hold | ⟨rfl, -⟩
      · exact .inl hold
      · exact .inr (.inl ⟨j, by simp [hops]⟩)
    | checkDead hops | store hops | skip hops | cancel hops =>
      rcases hset hop with hold | ⟨rfl, hrest⟩
      · exact .inl hold
      · exact .inl (hops ▸ mem_cons_of_mem _ hrest)
  | consume i h =>
    cases h with
    | @escalate e hpc =>
      rcases hset hop with hold | ⟨-, hnew⟩
      · exact .inl hold
      · exact .inr (.inr (.inr ⟨i, e, rfl, hpc, hnew⟩))
    | _ => exact .inl hop
  | dispatch h =>
    cases h with
    | @overflow x j rest hpc hblocks hpol hfull => simp [hblk j] at hpol
    | _ => exact .inl hop
  | stopAll n hops => exact .inr (.inr (.inl ⟨n, rfl⟩))
  | reload h => cases h <;> exact .inl hop
  | _ => exact .inl hop

omit [DecidableEq ι] in
def Tried (failures : List (ChangeEvent P V × Nat)) : Consumer P V → Prop
  | .applying e n | .backoff e n => ∀ m < n, (e, m) ∈ failures
  | _ => True

variable {failures more : List (ChangeEvent P V × Nat)}

omit [DecidableEq ι] in
lemma Tried.mono {pc : Consumer P V} (h : Tried failures pc) : Tried (failures ++ more) pc := by
  cases pc with
  | applying e n | backoff e n => exact fun m hm => mem_append_left _ (h m hm)
  | _ => trivial

variable {e : ChangeEvent P V}

omit [DecidableEq ι] in
lemma Exhausted.mono {p : ResolvedPipeline V}
    (h : Exhausted p failures e) : Exhausted p (failures ++ more) e :=
  fun n hn => mem_append_left _ (h n hn)

section

omit [DecidableEq ι]

variable {p : ResolvedPipeline V} {i : ι} {pc pc' : Consumer P V}
variable {failures : List (ChangeEvent P V × Nat)}

lemma Tried.step (h : Tried failures pc) (heff : AttemptEffect p i a pc pc') :
    Tried (failures ++ (failure pc pc').toList) pc' := by
  cases heff with
  | keep heq =>
    subst heq
    exact h.mono
  | quiet hnot =>
    cases pc' with
    | applying e n => exact absurd rfl (hnot e n).1
    | backoff e n => exact absurd rfl (hnot e n).2.1
    | _ => trivial
  | begin e heq => exact heq ▸ nofun
  | again e n hpc heq =>
    subst hpc heq
    have h : Tried failures (.applying e n) := h
    exact h.mono
  | retry e n hpc heq =>
    subst hpc heq
    intro m hm
    rcases Nat.lt_succ_iff_lt_or_eq.mp hm with hlt | rfl
    · exact mem_append_left _ (h m hlt)
    · exact mem_append_right _ (mem_singleton_self _)
  | exhausted e n hpc hnone heq | cancelled e n ha hpc heq => exact heq ▸ trivial

lemma Exhausted.step (h : ∀ e, pc = .failed e → Exhausted p failures e)
    (htried : Tried failures pc) (heff : AttemptEffect p i a pc pc')
    (hkept : ∀ e n, pc = .backoff e n → a = .consume i → pc' ≠ .failed e) {e : ChangeEvent P V}
    (he : pc' = .failed e) : Exhausted p (failures ++ (failure pc pc').toList) e := by
  cases heff with
  | keep heq => exact (h e (heq ▸ he)).mono
  | quiet hnot => exact absurd he (hnot e 0).2.2
  | begin _ heq | again _ _ _ heq | retry _ _ _ heq => cases heq.symm.trans he
  | exhausted d n hpc hnone heq =>
    subst hpc heq
    obtain rfl := Consumer.failed.inj he
    intro m hm
    rcases Nat.lt_or_eq_of_le (Nat.le_trans hm hnone) with hlt | rfl
    · exact mem_append_left _ (htried m hlt)
    · exact mem_append_right _ (mem_singleton_self _)
  | cancelled d n ha hpc heq => exact absurd heq (hkept d n hpc ha)

end

def Lane.Holds (l : Lane P V) : Prop :=
  ∀ e, l.work = .applying e ∨ l.work = .failing e →
    ∃ rest, changesOf l.offered = appliedChanges l.log ++ e :: rest

section

omit [DecidableEq ι]

variable {p : ResolvedPipeline V} {i : ι} {l l' : Lane P V}

lemma Lane.Holds.of_idle (h : ∀ e, l.work ≠ .applying e ∧ l.work ≠ .failing e) : l.Holds :=
  fun e he => he.elim (absurd · (h e).1) (absurd · (h e).2)

lemma Lane.Holds.step (h : l.Holds) (hcons : l.Conserves) (hstep : Lane.Step p i l a l') :
    l'.Holds := by
  cases hstep with
  | @accept x hfor =>
    intro e he
    obtain ⟨rest, hrest⟩ := h e he
    exact ⟨rest ++ changesOf [x], by simp [hrest]⟩
  | @begin e q hph hwork hq =>
    rintro d (hd | hd)
    · obtain rfl := Work.applying.inj hd
      exact ⟨changesOf q, by simp [hcons.balance (.inl hph), hwork, hq]⟩
    · cases hd
  | @beat pos q hph hwork hq =>
    refine .of_idle fun e => ?_
    rcases Work.after_cases p pos (V := V) with haft | haft <;> simp [haft]
  | @finish e now hwork =>
    refine .of_idle fun d => ?_
    rcases Work.after_cases p e.position (V := V) with haft | haft <;> simp [haft]
  | @fail e hwork =>
    rintro d (hd | hd)
    · cases hd
    · obtain rfl := Work.failing.inj hd
      exact h e (.inl hwork)
  | settle | settleDead | abandon | confirm => exact .of_idle fun e => ⟨nofun, nofun⟩
  | @note entry hent =>
    intro e he
    obtain ⟨rest, hrest⟩ := h e he
    exact ⟨rest, by simp [hrest, appliedChanges, hent]⟩
  | _ => exact h

end

lemma GivenUp.step (h : GivenUp c σ i) (hstep : Step c σ.session a s) :
    GivenUp c (σ.follow c a s) i := by
  obtain ⟨hpol, before, d, rest, hoff, hbef, hexha⟩ := h
  have happ : ∀ e ∈ before, e ∈ appliedChanges (s.log i) :=
    fun e he => (hstep.lane i).mem_applied (hbef e he)
  refine ⟨hpol, before, d, ?_⟩
  rcases (hstep.lane i).grows.1 with heq | ⟨x, heq⟩
  · exact ⟨rest, (congrArg changesOf heq).trans hoff, happ, hexha.mono⟩
  · refine ⟨rest ++ changesOf [x], ?_, happ, hexha.mono⟩
    refine (congrArg changesOf heq).trans ?_
    simp [hoff]

/-- The pipelines that are or will be skipped are given up, as long as there was no halt; so is
what an acknowledgement leaves behind. -/
structure Accounted (c : Config ι P V) (σ : Traced ι P V) : Prop where
  safe : Safe c σ.session
  holds : ∀ i, (σ.session.lane c i).Holds
  tried : ∀ i, Tried (σ.failures i) (σ.session.consumer i)
  failed : σ.halted = false → ∀ i e, σ.session.consumer i = .failed e →
    Exhausted (c.pipeline i) (σ.failures i) e
  unchecked : σ.halted = false → ∀ t j, .check j ∉ σ.session.ops t
  skipped : σ.halted = false → ∀ i, σ.session.tracker.skipped i = true ∨ σ.session.Marked i →
    GivenUp c σ i
  acks : Increasing c.order σ.session.delivered → ∀ q, σ.session.Acks q → ∀ i,
    (σ.session.lane c i).Done c.order q ∨ GivenUp c σ i

lemma Accounted.givenUp (h : Accounted c σ) (hhalted : σ.halted = false)
    (hpc : σ.session.consumer i = .failed e)
    (hpol : (c.pipeline i).errorPolicy = .isolate) : GivenUp c σ i := by
  have hwork : (σ.session.lane c i).work = .failing e := by simp [State.lane, hpc, Consumer.work]
  obtain ⟨rest, hrest⟩ := h.holds i e (.inr hwork)
  exact ⟨hpol, _, e, rest, hrest, fun _ => id, h.failed hhalted i e hpc⟩

omit [DecidableEq ι] in
lemma isolate_of_not_halts
    (hnot : halts c s s' (.consume i) = false) (hpc : s.consumer i = .failed e) :
    (c.pipeline i).errorPolicy = .isolate := by
  simpa [halts, hpc] using hnot

lemma Accounted.step (h : Accounted c σ) (hblk : ∀ i, (c.pipeline i).bufferPolicy = .block)
    (hok : BeforeHalt c σ a) (hstep : Step c σ.session a s) : Accounted c (σ.follow c a s) := by
  have heff := hstep.ackEffect
  have hbef : (σ.follow c a s).halted = false →
      σ.halted = false ∧ halts c σ.session s a = false := by
    simp [Traced.follow]
  -- the policies that have something in front of them are those of isolated pipelines
  have hops : (σ.follow c a s).halted = false → ∀ {t op}, op ∈ s.ops t → op ∈ σ.session.ops t ∨
      ∃ i e, σ.session.consumer i = .failed e ∧ (c.pipeline i).errorPolicy = .isolate ∧
        op ∈ c.policyOps i := by
    intro hhalted t op hop
    obtain ⟨hold, hnot⟩ := hbef hhalted
    rcases hstep.ops_cases hblk hop with hin | ⟨j, hcheck⟩ | ⟨n, rfl⟩ | ⟨i, e, rfl, hpc, hnew⟩
    · exact .inl hin
    · exact absurd hcheck (h.unchecked hold t j)
    · cases hnot
    · exact .inr ⟨i, e, hpc, isolate_of_not_halts hnot hpc, hnew⟩
  refine ⟨h.safe.step hblk hok.1 hstep, fun i => ?_, fun i => ?_, fun hhalted i e => ?_,
    fun hhalted t j hcheck => ?_, fun hhalted i hi => ?_, fun hinc q hq i => ?_⟩
  · exact (h.holds i).step (h.safe.conserves i) (hstep.lane i)
  · exact (h.tried i).step (hstep.attemptEffect i)
  · obtain ⟨hold, hnot⟩ := hbef hhalted
    refine Exhausted.step (h.failed hold i) (h.tried i) (hstep.attemptEffect i) ?_
    rintro d n hpc rfl hpc'
    simp [halts, hpc, hpc'] at hnot
  · rcases hops hhalted hcheck with hin | ⟨i, e, -, hpol, hnew⟩
    · exact h.unchecked (hbef hhalted).1 t j hin
    · simp [Config.policyOps, hpol] at hnew
  · have hold := (hbef hhalted).1
    refine GivenUp.step ?_ hstep
    rcases hi with hskip | ⟨t, hmark⟩
    · exact h.skipped hold i (heff.unskipped hskip)
    · have hcas : σ.session.Marked i ∨ ∃ j e, σ.session.consumer j = .failed e ∧
          (c.pipeline j).errorPolicy = .isolate ∧ i = j := by
        rcases hmark with hop | hop <;> rcases hops hhalted hop with hin | ⟨j, e, hpc, hpol, hnew⟩
        · exact .inl ⟨t, .inl hin⟩
        · exact .inr ⟨j, e, hpc, hpol, eq_of_mem_policyOps (.inl hnew)⟩
        · exact .inl ⟨t, .inr hin⟩
        · exact .inr ⟨j, e, hpc, hpol, eq_of_mem_policyOps (.inr hnew)⟩
      rcases hcas with hin | ⟨j, e, hpc, hpol, rfl⟩
      · exact h.skipped hold i (.inr hin)
      · exact h.givenUp hold hpc hpol
  · have hinc' := hinc.sublist hstep.delivered_sublist
    have hdone : (σ.session.lane c i).Done c.order q ∨ GivenUp c σ i := by
      rcases heff.acks hq with hold | ⟨hcomp, pids, tr, hpids, hack⟩
      · exact h.acks hinc' q hold i
      · rcases hok.2 hcomp with hhalted | hall
        · cases hskip : σ.session.tracker.skipped i with
          | true => exact .inr (h.skipped hhalted i (.inl hskip))
          | false => exact .inl ((h.safe.backed hinc').of_ackPosition hpids hack i hskip)
        · -- with all pipelines skipped there is no minimum
          obtain ⟨k, -, hk, -⟩ := AckTracker.mem_of_ackPosition hack
          simp [hall k] at hk
    exact hdone.imp (fun hd => hd.step (hinc.offered i) (hstep.lane i)) (fun hg => hg.step hstep)

omit [DecidableEq ι] in
lemma Increasing.pairwise_changes {order : PositionOrder P} {xs : List (Item P V)}
    (h : Increasing order xs) : (changesOf xs).Pairwise fun d e =>
      ∀ p q, d.position = some p → e.position = some q → order.Lt p q := by
  refine h.pairwise.filterMap Item.change? fun x y hxy d hd e he => ?_
  cases x with
  | heartbeat pos => cases hd
  | change d' =>
    cases y with
    | heartbeat pos => cases he
    | change e' =>
      cases hd
      cases he
      exact hxy

lemma Start.accounted {s₀ : State ι P V} (h : Start c s₀)
    (hfr : ∀ i, s₀.tracker.skipped i = false) : Accounted c (.start s₀) where
  safe := h.safe
  holds i := by
    simp only [Traced.start, h.lane i]
    exact .of_idle fun e => ⟨nofun, nofun⟩
  tried i := by simp [Traced.start, h.receive i, Tried]
  failed _ i e he := by simp [Traced.start, h.receive i] at he
  unchecked _ t j := by simp [Traced.start, h.ops t]
  skipped := by
    rintro - i (hi | ⟨t, ht⟩)
    · simp [Traced.start, hfr i] at hi
    · simp [Traced.start, h.ops t] at ht
  acks := by
    rintro - q (⟨i, hi⟩ | hq)
    · simp [Traced.start, h.receive i] at hi
    · simp [Traced.start, h.stopAck] at hq

/-- **Only isolated pipelines that have exhausted their attempts are left behind** by an
acknowledgement: every other one has applied every change up to it. -/
theorem acks_leave_only_given_up_behind (hblock : ∀ i, (c.pipeline i).bufferPolicy = .block)
    {s₀ : State ι P V} (hstart : Start c s₀) (hfresh : ∀ i, s₀.tracker.skipped i = false)
    (hrun : Reach (Traced.Step c) (BeforeHalt c) (.start s₀) σ)
    (hinc : Increasing c.order σ.session.delivered) {q : P} (hack : σ.session.Acks q) {i : ι}
    {e : ChangeEvent P V} (he : .change e ∈ σ.session.delivered)
    (htable : e.table = (c.pipeline i).table) {p : P} (hp : e.position = some p)
    (hle : c.order.Le p q) :
    e ∈ appliedChanges (σ.session.log i) ∨
      (c.pipeline i).errorPolicy = .isolate ∧ ∃ d pd, .change d ∈ σ.session.delivered ∧
        d.table = (c.pipeline i).table ∧ d.position = some pd ∧ c.order.Le pd p ∧
        Exhausted (c.pipeline i) (σ.failures i) d := by
  have hacc : Accounted c σ := by
    refine hrun.invariant (Accounted c) (hstart.accounted hfresh) fun h hok hstep => ?_
    cases hstep with
    | step hstep => exact h.step hblock hok hstep
  have hoff : e ∈ changesOf (σ.session.lane c i).offered :=
    mem_changesOf.mpr (List.mem_filter.mpr ⟨he, by simp [Item.For, htable]⟩)
  rcases hacc.acks hinc q hack i with hdone | ⟨hpol, before, d, rest, hspl, happ, hexh⟩
  · exact .inl (hdone.applied e hoff p hp hle)
  · have hd : Item.change d ∈ (σ.session.lane c i).offered :=
      mem_changesOf.mp (hspl ▸ mem_append_right _ mem_cons_self)
    have hmem := List.mem_filter.mp hd
    have hdtable : d.table = (c.pipeline i).table := by simpa [Item.For, eq_comm] using hmem.2
    obtain ⟨pd, hpd⟩ := hinc.nonnil _ hmem.1
    have hpast := (hinc.offered i).pairwise_changes
    rw [hspl] at hpast
    rw [hspl, mem_append, mem_cons] at hoff
    rcases hoff with hin | rfl | hlater
    · exact .inl (happ e hin)
    · exact .inr ⟨hpol, e, p, he, htable, hp, Comparator.Le.refl _ _, hexh⟩
    · refine .inr ⟨hpol, d, pd, hmem.1, hdtable, hpd, ?_, hexh⟩
      have htail := (pairwise_append.mp hpast).2.1
      exact (rel_of_pairwise_cons htail hlater pd p hpd hp).le

/-- The shop with another error policy and number of retries for `accounts`. -/
def Shop.strict (errorPolicy : ErrorPolicyKind) (maxRetries : Nat) :
    Config Shop Int Text :=
  { config with
    pipeline := fun
      | .accounts => { table := Shop.accounts.table, errorPolicy, maxRetries }
      | .orders => { table := Shop.orders.table } }

lemma Shop.start_strict (errorPolicy : ErrorPolicyKind) (maxRetries : Nat) :
    Start (strict errorPolicy maxRetries) Shop.start :=
  have h := start_start
  ⟨h.idle, h.receive, h.buf, h.ops, h.delivered, h.log, h.stopAck, h.notPaused, h.tracker⟩

theorem acks_leave_only_given_up_behind_run : ∃ σ : Traced Shop Int Text,
    Reach (Traced.Step (strict .isolate 1)) (BeforeHalt (strict .isolate 1))
      (.start Shop.start) σ ∧
    σ.session.Acks 12 ∧ appliedChanges (σ.session.log .accounts) = [] ∧
    (Shop.insert .accounts 11 "7" ∈ appliedChanges (σ.session.log .accounts) ∨
      ((strict .isolate 1).pipeline .accounts).errorPolicy = .isolate ∧
        ∃ d pd, .change d ∈ σ.session.delivered ∧ d.table = Shop.accounts.table ∧
          d.position = some pd ∧ PositionOrder.ofInt.Le pd 11 ∧
          Exhausted ((strict .isolate 1).pipeline .accounts) (σ.failures .accounts) d) := by
  let c := strict .isolate 1
  have hinc : Increasing c.order [.change (Shop.insert .accounts 11 "7"),
      .change (Shop.insert .orders 12 "1")] := by
    refine ⟨by simp [Shop.insert, Item.position], ?_⟩
    simp only [Shop.insert, Item.Precedes, Item.position, pairwise_pair]
    rintro p q ⟨⟩ ⟨⟩
    exact (by decide : PositionOrder.ofInt.Lt 11 12)
  have h : Reach (Traced.Step c) (BeforeHalt c) (.start Shop.start) _ := .refl _
  have h := h
    |>.snoc (.step (.deliver (.change (Shop.insert .accounts 11 "7")) rfl rfl))
    |>.snoc (.step (.dispatch (.pass rfl (by decide))))
    |>.snoc (.step (.dispatch (.send rfl (by decide))))
    |>.snoc (.step (.turnAway rfl (by decide)))
    |>.snoc (.step (.dispatch (.done rfl)))
    |>.snoc (.step (.consume .accounts (.receive rfl rfl)))
    |>.snoc (.step (.consume .accounts (.begin rfl rfl)))
    |>.snoc (.step (.consume .accounts (.retry rfl (by decide))))
    |>.snoc (.step (.consume .accounts (.again rfl)))
    |>.snoc (.step (.consume .accounts (.exhausted rfl (by decide))))
    |>.snoc (.step (.consume .accounts (.escalate rfl)))
    |>.snoc (.step (.policy (.consumer .accounts) (.store rfl)))
    |>.snoc (.step (.policy (.consumer .accounts) (.skip rfl)))
    |>.snoc (.step (.deliver (.change (Shop.insert .orders 12 "1")) rfl rfl))
      ⟨by rintro ⟨⟩ - <;> (intro hne; cases hne), fun _ => .inl rfl⟩
    |>.snoc (.step (.turnAway rfl (by decide)))
    |>.snoc (.step (.dispatch (.pass rfl (by decide))))
    |>.snoc (.step (.dispatch (.send rfl (by decide))))
    |>.snoc (.step (.consume .orders (.receive rfl rfl)))
    |>.snoc (.step (.consume .orders (.begin rfl rfl)))
    |>.snoc (.step (.consume .orders (.applied 0 rfl)))
    |>.snoc (.step (.consume .orders (.confirm rfl)))
    |>.snoc (.step (.consume .orders (.advance (q := 12) c.pipelineIdxs rfl (.refl _) rfl)))
  refine ⟨_, h, .inl ⟨.orders, rfl⟩, rfl, ?_⟩
  exact acks_leave_only_given_up_behind (by rintro ⟨⟩ <;> rfl) (start_strict _ _)
    (by rintro ⟨⟩ <;> rfl) h hinc (.inl ⟨.orders, rfl⟩) mem_cons_self rfl rfl (by decide)

/-- `Stop` acknowledges past `accounts`, cancelled after one of two attempts. -/
theorem acks_pass_changes_not_given_up : (∃ σ : Traced Shop Int Text,
      Run (Traced.Step (strict .isolate 1))
        (.start Shop.start) σ ∧
      σ.session.Acks 12 ∧ .change (Shop.insert .accounts 11 "7") ∈ σ.session.delivered ∧
      appliedChanges (σ.session.log .accounts) = [] ∧
      ∀ d, ¬ Exhausted ((strict .isolate 1).pipeline .accounts) (σ.failures .accounts) d) ∧
    ∃ σ : Traced Shop Int Text, Run (Traced.Step (strict .stopSource 0))
        (.start Shop.start) σ ∧
      σ.session.Acks 12 ∧ .change (Shop.insert .accounts 11 "7") ∈ σ.session.delivered ∧
      appliedChanges (σ.session.log .accounts) = [] ∧
      ((strict .stopSource 0).pipeline .accounts).errorPolicy = .stopSource := by
  constructor
  · let c := strict .isolate 1
    have h : Run (Traced.Step c) (.start Shop.start) _ := .refl _
    have h := h
      |>.snoc (.step (.deliver (.change (Shop.insert .accounts 11 "7")) rfl rfl))
      |>.snoc (.step (.dispatch (.pass rfl (by decide))))
      |>.snoc (.step (.dispatch (.send rfl (by decide))))
      |>.snoc (.step (.turnAway rfl (by decide)))
      |>.snoc (.step (.dispatch (.done rfl)))
      |>.snoc (.step (.consume .accounts (.receive rfl rfl)))
      |>.snoc (.step (.consume .accounts (.begin rfl rfl)))
      |>.snoc (.step (.consume .accounts (.retry rfl (by decide))))
      |>.snoc (.step (.deliver (.change (Shop.insert .orders 12 "1")) rfl rfl))
      |>.snoc (.step (.turnAway rfl (by decide)))
      |>.snoc (.step (.dispatch (.pass rfl (by decide))))
      |>.snoc (.step (.dispatch (.send rfl (by decide))))
      |>.snoc (.step (.dispatch (.done rfl)))
      |>.snoc (.step (.consume .orders (.receive rfl rfl)))
      |>.snoc (.step (.consume .orders (.begin rfl rfl)))
      |>.snoc (.step (.consume .orders (.applied 0 rfl)))
      |>.snoc (.step (.consume .orders (.confirm rfl)))
      |>.snoc (.step (.consume .orders (.settled c.pipelineIdxs rfl (.refl _) rfl)))
    -- `Stop` cancels the context while `accounts` waits for its retry
    have h := h
      |>.snoc (.step .cancel)
      |>.snoc (.step (.consume .accounts (.cancelled rfl rfl)))
      |>.snoc (.step (.consume .accounts (.escalate rfl)))
      |>.snoc (.step (.policy (.consumer .accounts) (.store rfl)))
      |>.snoc (.step (.policy (.consumer .accounts) (.skip rfl)))
      |>.snoc (.step (.consume .accounts (.isolated rfl rfl rfl)))
      |>.snoc (.step (.streamEnd (.inl rfl)))
      |>.snoc (.step (.consume .accounts (.exit rfl rfl rfl)))
      |>.snoc (.step (.consume .orders (.exit rfl rfl rfl)))
      |>.snoc (.step (.finalAck (q := 12) c.pipelineIdxs rfl (by rintro ⟨⟩ <;> rfl) (.refl _) rfl))
    refine ⟨_, h, .inr rfl, mem_cons_self, rfl, fun d hd => ?_⟩
    have hsecond : 1 ∈ List.map Prod.snd _ := List.mem_map_of_mem (hd 1 (by decide))
    exact absurd hsecond (by decide +kernel)
  · let c := strict .stopSource 0
    have h : Run (Traced.Step c) (.start Shop.start) _ := .refl _
    have h := h
      |>.snoc (.step (.deliver (.change (Shop.insert .accounts 11 "7")) rfl rfl))
      |>.snoc (.step (.dispatch (.pass rfl (by decide))))
      |>.snoc (.step (.dispatch (.send rfl (by decide))))
      |>.snoc (.step (.turnAway rfl (by decide)))
      |>.snoc (.step (.dispatch (.done rfl)))
      |>.snoc (.step (.deliver (.change (Shop.insert .orders 12 "1")) rfl rfl))
      |>.snoc (.step (.turnAway rfl (by decide)))
      |>.snoc (.step (.dispatch (.pass rfl (by decide))))
      |>.snoc (.step (.dispatch (.send rfl (by decide))))
      |>.snoc (.step (.consume .orders (.receive rfl rfl)))
      |>.snoc (.step (.consume .orders (.begin rfl rfl)))
      |>.snoc (.step (.consume .orders (.applied 0 rfl)))
      |>.snoc (.step (.consume .orders (.confirm rfl)))
      |>.snoc (.step (.consume .accounts (.receive rfl rfl)))
      |>.snoc (.step (.consume .accounts (.begin rfl rfl)))
      |>.snoc (.step (.consume .accounts (.exhausted rfl (by decide))))
      |>.snoc (.step (.consume .accounts (.escalate rfl)))
      |>.snoc (.step (.policy (.consumer .accounts) (.checkLive rfl (by decide))))
      |>.snoc (.step (.policy (.consumer .accounts) (.store rfl)))
      |>.snoc (.step (.policy (.consumer .accounts) (.skip rfl)))
      |>.snoc (.step (.consume .orders (.advance (q := 12) c.pipelineIdxs rfl (.refl _) rfl)))
    exact ⟨_, h, .inl ⟨.orders, rfl⟩, mem_cons_self, rfl, rfl⟩

end Laredo.Engine
