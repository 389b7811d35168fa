import Laredo.Engine.AckOrder

/-!
# Isolation

A pipeline in ERROR and the position that is acknowledged to the source: who calls `AckPosition`
after the pipeline was skipped, and what is passed to `source.Ack` then.
-/

namespace Laredo.Engine

open Shop Transition AckTracker Comparator List Option Function

variable {ι P V : Type} [DecidableEq ι] {c : Config ι P V} {s s' : State ι P V} {a : Act ι P V}

def Paired : List (PolicyOp ι) → Prop
  | [] => True
  | .store i :: ops => .skip i ∈ ops ∧ Paired ops
  | _ :: ops => Paired ops

omit [DecidableEq ι] in
lemma Paired.checks (l : List ι) (ops : List (PolicyOp ι)) (h : Paired ops) :
    Paired (l.map .check ++ ops) := by
  induction l with
  | nil => exact h
  | cons i l ih => exact ih

omit [DecidableEq ι] in
lemma paired_policyOps (i : ι) : Paired (c.policyOps i) := by
  unfold Config.policyOps
  cases (c.pipeline i).errorPolicy with
  | isolate => exact ⟨mem_cons_self, trivial⟩
  | stopSource => simpa using Paired.checks c.pipelineIdxs [] trivial
  | stopAll => exact Paired.checks c.pipelineIdxs [.cancel] trivial

def State.Policing (s : State ι P V) : Thread ι → Prop
  | .dispatcher => ∃ x i rest, s.dispatcher = .policy x i rest
  | .consumer i => ∃ e, s.consumer i = .policy e
  | .elsewhere _ => True

def State.Resting (s : State ι P V) : Prop := ∀ t, ¬ s.Policing t → s.ops t = []

def Begins (s s' : State ι P V) : Prop :=
  ∃ t ops, Paired ops ∧ s.ops t = [] ∧ s'.ops = Function.update s.ops t ops ∧
    s'.tracker = s.tracker ∧ s'.Policing t ∧ ∀ t', s.Policing t' → s'.Policing t'

def Keeps (s s' : State ι P V) : Prop :=
  s'.ops = s.ops ∧ s'.tracker.skipped = s.tracker.skipped ∧
    ∀ t, s.Policing t → s'.Policing t ∨ s.ops t = []

section

omit [DecidableEq ι]

lemma policing_dispatcher (h : s'.dispatcher = s.dispatcher) (ht : s.Policing .dispatcher) :
    s'.Policing .dispatcher := by
  obtain ⟨x, i, rest, hd⟩ := ht
  exact ⟨x, i, rest, h.trans hd⟩

lemma policing_consumer {i : ι} (h : s'.consumer i = s.consumer i) (ht : s.Policing (.consumer i)) :
    s'.Policing (.consumer i) := by
  obtain ⟨e, he⟩ := ht
  exact ⟨e, h.trans he⟩

lemma Keeps.of_dispatcher (hops : s'.ops = s.ops) (htrk : s'.tracker = s.tracker)
    (hcsm : s'.consumer = s.consumer)
    (hidle : s.Policing .dispatcher → s.ops .dispatcher = []) : Keeps s s' := by
  refine ⟨hops, congrArg _ htrk, ?_⟩
  rintro (_ | i | n) ht
  · exact .inr (hidle ht)
  · exact .inl (policing_consumer (congrFun hcsm i) ht)
  · exact .inl trivial

lemma Keeps.of_eq (hops : s'.ops = s.ops) (hskip : s'.tracker.skipped = s.tracker.skipped)
    (hdisp : s'.dispatcher = s.dispatcher) (hcsm : s'.consumer = s.consumer) :
    Keeps s s' := by
  refine ⟨hops, hskip, ?_⟩
  rintro (_ | i | n) ht
  · exact .inl (policing_dispatcher hdisp ht)
  · exact .inl (policing_consumer (congrFun hcsm i) ht)
  · exact .inl trivial

lemma not_policing_dispatcher {d : Dispatcher ι P V} (hpc : s.dispatcher = d)
    (hd : ∀ x i rest, d ≠ .policy x i rest) : ¬ s.Policing .dispatcher := by
  rintro ⟨x, i, rest, h⟩
  exact hd x i rest (hpc.symm.trans h)

lemma not_policing_consumer {i : ι} {pc : Consumer P V} (hpc : s.consumer i = pc)
    (hne : ∀ e, pc ≠ .policy e) : ¬ s.Policing (.consumer i) := by
  rintro ⟨e, he⟩
  exact hne e (hpc.symm.trans he)

end

lemma policing_of_ne {i : ι} {pc : Consumer P V} (hdisp : s'.dispatcher = s.dispatcher)
    (hcsm : s'.consumer = Function.update s.consumer i pc) {t : Thread ι}
    (hne : t ≠ .consumer i) (ht : s.Policing t) : s'.Policing t := by
  cases t with
  | dispatcher => exact policing_dispatcher hdisp ht
  | elsewhere => trivial
  | consumer j =>
    have hj : j ≠ i := by
      rintro rfl
      exact hne rfl
    exact policing_consumer (by rw [hcsm, update_of_ne hj]) ht

lemma Keeps.of_consumer {i : ι} {pc : Consumer P V} (hops : s'.ops = s.ops)
    (hskip : s'.tracker.skipped = s.tracker.skipped) (hdisp : s'.dispatcher = s.dispatcher)
    (hcsm : s'.consumer = Function.update s.consumer i pc)
    (hidle : s.Policing (.consumer i) → s.ops (.consumer i) = []) : Keeps s s' := by
  refine ⟨hops, hskip, fun t ht => ?_⟩
  by_cases hi : t = .consumer i
  · exact .inr (hi ▸ hidle (hi ▸ ht))
  · exact .inl (policing_of_ne hdisp hcsm hi ht)

lemma DispatchStep.policing (h : DispatchStep c s s') (hrest : s.Resting) :
    Begins s s' ∨ Keeps s s' := by
  cases h with
  | overflow hpc =>
    have hidle := not_policing_dispatcher hpc nofun
    refine .inl ⟨.dispatcher, _, paired_policyOps _, hrest _ hidle, rfl, rfl, ⟨_, _, _, rfl⟩, ?_⟩
    rintro (_ | i | n) ht
    · exact absurd ht hidle
    · exact ht
    · trivial
  | goOn _ hops _ | giveUp _ hops _ => exact .inr (.of_dispatcher rfl rfl rfl fun _ => hops)
  | pass hpc | send hpc | cancelled hpc | full hpc | evict hpc | resend hpc | done hpc =>
    refine .inr (.of_dispatcher rfl rfl rfl fun ht => ?_)
    exact absurd ht (not_policing_dispatcher hpc nofun)

lemma ConsumeStep.policing {i : ι} (h : ConsumeStep c i s s') (hrest : s.Resting) :
    Begins s s' ∨ Keeps s s' := by
  cases h with
  | @escalate e hpc =>
    have hidle := not_policing_consumer hpc nofun
    refine .inl ⟨.consumer i, _, paired_policyOps i, hrest _ hidle, rfl, rfl,
      ⟨_, update_self ..⟩, fun t ht => ?_⟩
    have hne : t ≠ .consumer i := by
      rintro rfl
      exact hidle ht
    refine policing_of_ne ?_ (?_ : _ = Function.update s.consumer i (.policy e)) hne ht <;> rfl
  | isolated _ hops _ | stopped _ hops _ => exact .inr (.of_consumer rfl rfl rfl rfl fun _ => hops)
  | settled _ hpc _ hack | advance _ hpc _ hack =>
    refine .inr (.of_consumer rfl (ackPosition_positions hack).2 rfl rfl fun ht => ?_)
    exact absurd ht (not_policing_consumer hpc nofun)
  | receive hpc | exit hpc | beat hpc | begin hpc | applied _ hpc | retry hpc | again hpc
  | cancelled hpc | exhausted hpc | confirm hpc | ack hpc =>
    refine .inr (.of_consumer rfl rfl rfl rfl fun ht => ?_)
    exact absurd ht (not_policing_consumer hpc nofun)

lemma Step.policing (h : Step c s a s') (hrest : s.Resting) :
    (∃ t, a = .policy t ∧ PolicyStep t s s') ∨
      (∀ t, a ≠ .policy t) ∧ (Begins s s' ∨ Keeps s s') := by
  cases h with
  | policy t h => exact .inl ⟨t, rfl, h⟩
  | dispatch h | consume i h => exact .inr ⟨nofun, h.policing hrest⟩
  | stopAll n hops =>
    exact .inr ⟨nofun, .inl ⟨.elsewhere n, _, Paired.checks _ [.cancel] trivial, hops, rfl, rfl,
      trivial, fun t ht => ht⟩⟩
  | deliver _ hpc | turnAway hpc =>
    refine .inr ⟨nofun, .inr (.of_dispatcher rfl rfl rfl fun ht => ?_)⟩
    exact absurd ht (not_policing_dispatcher hpc nofun)
  | discard i hpc =>
    refine .inr ⟨nofun, .inr (.of_consumer rfl rfl rfl rfl fun ht => ?_)⟩
    exact absurd ht (not_policing_consumer hpc nofun)
  | finalAck _ _ _ _ hack =>
    exact .inr ⟨nofun, .inr (.of_eq rfl (ackPosition_positions hack).2 rfl rfl)⟩
  | reload h => cases h <;> exact .inr ⟨nofun, .inr (.of_eq rfl rfl rfl rfl)⟩
  | streamEnd | halt | cancel | pauseSource | resumeSource | pauseCheck | resumeCheck | store =>
    exact .inr ⟨nofun, .inr (.of_eq rfl rfl rfl rfl)⟩

def OnlyByPolicy (s : State ι P V) (a : Act ι P V) (s' : State ι P V) : Prop :=
  (∀ t, a ≠ .policy t) → ∀ i, s'.pstate i = .error → s.pstate i = .error

/-- A step of a session in which the error policy is the only way into ERROR. -/
def PolicedStep (c : Config ι P V) (σ : Acknowledging ι P V) (a : Act ι P V)
    (σ' : Acknowledging ι P V) : Prop :=
  AckStep c σ a σ' ∧ OnlyByPolicy σ.session a σ'.session

/-- A pipeline in ERROR is skipped, or the policy that put it there is about to skip it. -/
structure Isolated (s : State ι P V) : Prop where
  dead : ∀ i, s.pstate i = .error → s.tracker.skipped i = true ∨ ∃ t, .skip i ∈ s.ops t
  paired : ∀ t, Paired (s.ops t)
  resting : s.Resting

namespace Isolated

lemma advance {t : Thread ι} {ops : List (PolicyOp ι)} (h : Isolated s)
    (hops : s'.ops = Function.update s.ops t ops) (hpaired : Paired ops)
    (hskip : ∀ i, .skip i ∈ s.ops t → s'.tracker.skipped i = true ∨ .skip i ∈ ops)
    (hskipped : ∀ i, s.tracker.skipped i = true → s'.tracker.skipped i = true)
    (hdead : ∀ i, s'.pstate i = .error → s.pstate i = .error ∨ .skip i ∈ ops)
    (hpoli : ∀ t', s.Policing t' → s'.Policing t') (hhere : s.ops t = [] → s'.Policing t) :
    Isolated s' where
  dead i hi := by
    rcases hdead i hi with hi | hi
    · rcases h.dead i hi with hi | ⟨t', ht'⟩
      · exact .inl (hskipped i hi)
      · by_cases htt : t' = t
        · subst htt
          exact (hskip i ht').imp_right fun hi => ⟨t', by simpa [hops] using hi⟩
        · exact .inr ⟨t', by simpa [hops, htt] using ht'⟩
    · exact .inr ⟨t, by simpa [hops] using hi⟩
  paired t' := by
    by_cases htt : t' = t
    · simpa [hops, htt] using hpaired
    · simpa [hops, htt] using h.paired t'
  resting t' ht' := by
    have hidle : s.ops t' = [] := h.resting t' fun hp => ht' (hpoli t' hp)
    by_cases htt : t' = t
    · subst htt
      exact absurd (hhere hidle) ht'
    · simpa [hops, htt] using hidle

lemma policy {t : Thread ι} (h : Isolated s) (hstep : PolicyStep t s s') : Isolated s' := by
  have hpaired := h.paired t
  cases hstep with
  | checkLive hops _ =>
    rw [hops] at hpaired
    exact h.advance rfl ⟨mem_cons_self, hpaired⟩ (by simp +contextual [hops]) (fun _ => id)
      (fun _ => .inl) (fun _ => id) (by simp [hops])
  | checkDead hops _ | cancel hops =>
    rw [hops] at hpaired
    exact h.advance rfl hpaired (by simp +contextual [hops]) (fun _ => id) (fun _ => .inl)
      (fun _ => id) (by simp [hops])
  | @store j rest hops =>
    rw [hops] at hpaired
    refine h.advance rfl hpaired.2 (by simp +contextual [hops]) (fun _ => id) (fun i hi => ?_)
      (fun _ => id) (by simp [hops])
    -- the pipeline that dies is the one whose `Skip` comes next
    by_cases hij : i = j
    · exact .inr (hij ▸ hpaired.1)
    · exact .inl (by simpa [hij] using hi)
  | @skip j rest hops =>
    rw [hops] at hpaired
    refine h.advance rfl hpaired (fun i hi => ?_) (fun i hi => ?_) (fun _ => .inl)
      (fun _ => id) (by simp [hops])
    · rw [hops, mem_cons] at hi
      rcases hi with hi | hi
      · cases hi
        exact .inl (update_self ..)
      · exact .inr hi
    · by_cases hij : i = j
      · exact hij ▸ update_self ..
      · simpa [skip, hij] using hi

lemma step (h : Isolated s) (hstep : Step c s a s') (honly : OnlyByPolicy s a s') :
    Isolated s' := by
  rcases hstep.policing h.resting with ⟨t, rfl, hpol⟩ | ⟨hnot, hmoves⟩
  · exact h.policy hpol
  replace honly := honly hnot
  rcases hmoves with ⟨t, ops, hpaired, hidle, hops, htrk, hhere, hpoli⟩ | ⟨hops, hskip, hpoli⟩
  · exact h.advance hops hpaired (by simp [hidle]) (by simp [htrk]) (fun i hi => .inl (honly i hi))
      hpoli (fun _ => hhere)
  · refine ⟨fun i hi => ?_, fun t => hops ▸ h.paired t, fun t ht => ?_⟩
    · rw [hops, hskip]
      exact h.dead i (honly i hi)
    · rw [hops]
      by_cases hp : s.Policing t
      · exact (hpoli t hp).resolve_left ht
      · exact h.resting t hp

lemma run {σ₀ σ : Acknowledging ι P V} (hrun : Run (PolicedStep c) σ₀ σ)
    (h₀ : Isolated σ₀.session) : Isolated σ.session := by
  refine hrun.invariant (fun σ => Isolated σ.session) h₀ ?_
  rintro σ σ' a h - ⟨⟨hstep⟩, honly⟩
  exact h.step hstep honly

end Isolated

/-! ### What reaches the source -/

namespace Acknowledging

variable {σ σ' : Acknowledging ι P V} {q : P}

/-- The source has been acknowledged `q` or a later position, or a consumer is about to. -/
def Passes (c : Config ι P V) (σ : Acknowledging ι P V) (q : P) : Prop :=
  (∃ p ∈ σ.acked, c.order.Le q p) ∨ ∃ j p, σ.session.consumer j = .sendAck p ∧ c.order.Le q p

/-- What `AckPosition` has handed out is passed to the source. -/
def Sent (c : Config ι P V) (σ : Acknowledging ι P V) : Prop :=
  ∀ last, σ.session.tracker.lastAcked = some last → σ.Passes c last

omit [DecidableEq ι] in
lemma Passes.mono {p : P} (h : σ.Passes c p) (hle : c.order.Le q p) : σ.Passes c q := by
  rcases h with ⟨p', hp', hle'⟩ | ⟨j, p', hj, hle'⟩
  · exact .inl ⟨p', hp', hle.trans hle'⟩
  · exact .inr ⟨j, p', hj, hle.trans hle'⟩

end Acknowledging

lemma Step.keeps_sendAck (h : Step c s a s') {j : ι} {q : P} (hj : s.consumer j = .sendAck q) :
    s'.consumer j = .sendAck q ∨ a.passed s s' = some q := by
  cases h with
  | consume i h =>
    by_cases hij : j = i
    · subst hij
      exact .inr (by simp [Act.passed, hj])
    · refine .inl ?_
      cases h <;> simpa [hij] using hj
  | discard i hpc _ =>
    refine .inl ?_
    by_cases hij : j = i
    · subst hij
      simp [hj] at hpc
    · simpa [hij] using hj
  | dispatch h | policy t h | reload h => cases h <;> exact .inl hj
  | _ => exact .inl hj

lemma Step.lastAcked_passed (h : Step c s a s') :
    s'.tracker.lastAcked = s.tracker.lastAcked ∨ ∃ q, s'.tracker.lastAcked = some q ∧
      ((∃ i, s'.consumer i = .sendAck q) ∨ a.passed s s' = some q) := by
  cases h with
  | consume i h =>
    cases h with
    | settled pids hpc hpids hack =>
      rcases ackPosition_cases hack with ⟨-, rfl, -⟩ | ⟨m, -, ⟨-, -, rfl⟩ | ⟨-, hr, -⟩⟩
      · exact .inl rfl
      · exact .inl rfl
      · cases hr
    | @advance pids q tr hpc hpids hack =>
      exact .inr ⟨q, (lt_of_ackPosition hack).1, .inl ⟨i, by simp⟩⟩
    | _ => exact .inl rfl
  | finalAck pids hcl hexited hpids hack =>
    exact .inr ⟨_, (lt_of_ackPosition hack).1, .inr rfl⟩
  | dispatch h | policy t h | reload h => cases h <;> exact .inl rfl
  | _ => exact .inl rfl

namespace Acknowledging

variable {σ σ' : Acknowledging ι P V} {q : P}

lemma Passes.step (h : σ.Passes c q) (hstep : AckStep c σ a σ') : σ'.Passes c q := by
  obtain ⟨hstep⟩ := hstep
  rcases h with ⟨p, hp, hle⟩ | ⟨j, p, hj, hle⟩
  · exact .inl ⟨p, mem_append_left _ hp, hle⟩
  · rcases hstep.keeps_sendAck hj with hj | hpassed
    · exact .inr ⟨j, p, hj, hle⟩
    · exact .inl ⟨p, by simp [hpassed], hle⟩

lemma Sent.step (h : σ.Sent c) (hstep : AckStep c σ a σ') : σ'.Sent c := by
  intro last hlast
  have hpass := fun hq => (h last hq).step hstep
  obtain ⟨hstep⟩ := hstep
  rcases hstep.lastAcked_passed with heq | ⟨q, hq, hwho⟩
  · exact hpass (heq.symm.trans hlast)
  · obtain rfl : q = last := some.inj (hq.symm.trans hlast)
    rcases hwho with ⟨i, hi⟩ | hpassed
    · exact .inr ⟨i, q, hi, Le.refl _ _⟩
    · exact .inl ⟨q, by simp [hpassed], Le.refl _ _⟩

end Acknowledging

omit [DecidableEq ι] in
lemma AckTracker.le_lastAcked {order : PositionOrder P} {tr tr' : AckTracker ι P}
    {pids : List ι} {r : Option P × Bool} {q : P} {j : ι} (hj : j ∈ pids)
    (hcnt : tr.skipped j = false)
    (hall : ∀ i, tr.skipped i = false → ∃ p, tr.positions i = some (some p) ∧ order.Le q p)
    (h : tr.ackPosition order pids = (r, tr')) :
    ∃ last, tr'.lastAcked = some last ∧ order.Le q last := by
  have hnil : ∀ i, tr.skipped i = false → tr.positions i ≠ some none := fun i hi hnone => by
    obtain ⟨p, hp, -⟩ := hall i hi
    simp [hp] at hnone
  cases hscan : scanMin order tr pids none with
  | none =>
    obtain ⟨i, -, hi, hnone⟩ := scanMin_eq_none hscan
    obtain ⟨p, hp, -⟩ := hall i hi
    simp [hp] at hnone
  | some found =>
    obtain ⟨-, m, -, rfl, -⟩ := (scanMin_spec hnil hscan).1 j hj hcnt
    obtain ⟨i, -, hi, hm⟩ := (mem_of_scanMin hscan).resolve_left nofun
    obtain ⟨p, hp, hle⟩ := hall i hi
    obtain rfl : p = m := by simpa [hp] using hm
    obtain ⟨last, hl, hml⟩ := le_lastAcked_of_scanMin h hscan
    exact ⟨last, hl, hle.trans hml⟩

lemma Step.ackPosition (h : Step c s a s') (hcall : a.Computes s) : ∃ pids r,
    pids.Perm c.pipelineIdxs ∧ s.tracker.ackPosition c.order pids = (r, s'.tracker) := by
  rcases hcall with rfl | ⟨i, rfl, hpc⟩
  · cases h with
    | finalAck pids hcl hexited hpids hack => exact ⟨pids, _, hpids, hack⟩
    | reload h => cases h
  · cases h with
    | consume i h =>
      cases h with
      | settled pids _ hpids hack | advance pids _ hpids hack => exact ⟨pids, _, hpids, hack⟩
      | receive h | exit h | beat h | begin h | applied _ h | retry h | again h | cancelled h
      | exhausted h | escalate h | isolated h | stopped h | confirm h | ack h => simp [hpc] at h
    | reload h => cases h

/-- A call of `AckPosition` that is made when the pipelines in ERROR are skipped and the others have
confirmed `q` passes `q` or a later position on. -/
lemma Isolated.passes {σ σ' : Acknowledging ι P V} {q : P} (h : Isolated σ.session)
    (hsent : σ.Sent c) (hquiet : ∀ i t, PolicyOp.skip i ∉ σ.session.ops t)
    (hcounted : ∃ j, σ.session.tracker.skipped j = false)
    (hconf : ∀ i, σ.session.pstate i ≠ .error →
      ∃ p, σ.session.tracker.positions i = some (some p) ∧ c.order.Le q p)
    (hcall : a.Computes σ.session) (hstep : AckStep c σ a σ') : σ'.Passes c q := by
  have hsent' := hsent.step hstep
  obtain ⟨hstep⟩ := hstep
  obtain ⟨j, hj⟩ := hcounted
  have hcount : ∀ i, σ.session.tracker.skipped i = false →
      ∃ p, σ.session.tracker.positions i = some (some p) ∧ c.order.Le q p := by
    refine fun i hi => hconf i fun herror => ?_
    rcases h.dead i herror with hskip | ⟨t, ht⟩
    · simp [hskip] at hi
    · exact hquiet i t ht
  obtain ⟨pids, r, hpids, hack⟩ := hstep.ackPosition hcall
  obtain ⟨last, hlast, hle⟩ := le_lastAcked (hpids.mem_iff.mpr (c.complete j)) hj hcount hack
  exact (hsent' last hlast).mono hle

/-- **A pipeline in ERROR does not hold back the source**, when the error policy is the only way
into ERROR and `AckPosition` is called once more: the pipeline is skipped or its `Skip` comes next,
and after a call that follows the `Skip` the source is acknowledged what the others had
confirmed. -/
theorem error_does_not_hold_back {σ₀ σ : Acknowledging ι P V}
    (hidle : ∀ t, σ₀.session.ops t = [])
    (hskipped : ∀ i, σ₀.session.pstate i = .error → σ₀.session.tracker.skipped i = true)
    (hsent : ∀ last, σ₀.session.tracker.lastAcked = some last → last ∈ σ₀.acked)
    (hrun : Run (PolicedStep c) σ₀ σ) :
    (∀ i, σ.session.pstate i = .error →
      σ.session.tracker.skipped i = true ∨ ∃ t, .skip i ∈ σ.session.ops t) ∧
    ∀ q, (∀ i t, PolicyOp.skip i ∉ σ.session.ops t) →
      (∃ j, σ.session.tracker.skipped j = false) →
      (∀ i, σ.session.pstate i ≠ .error →
        ∃ p, σ.session.tracker.positions i = some (some p) ∧ c.order.Le q p) →
      ∀ a σ₁ σ₂, a.Computes σ.session → AckStep c σ a σ₁ →
        Run (AckStep c) σ₁ σ₂ →
        (∀ j p, σ₂.session.consumer j ≠ .sendAck p) → ∃ p ∈ σ₂.acked, c.order.Le q p := by
  have hinv := Isolated.run hrun
    ⟨fun i hi => .inl (hskipped i hi), fun t => hidle t ▸ trivial, fun t _ => hidle t⟩
  have hsnt : σ.Sent c := by
    refine hrun.invariant (Acknowledging.Sent c) ?_ fun h _ hstep => h.step hstep.1
    exact fun last hlast => .inl ⟨last, hsent last hlast, Le.refl _ _⟩
  refine ⟨hinv.dead, fun q hquiet hcounted hconf a σ₁ σ₂ hcall hstep hrest hnone => ?_⟩
  have hpass : σ₂.Passes c q :=
    hrest.invariant (Acknowledging.Passes c · q)
      (hinv.passes hsnt hquiet hcounted hconf hcall hstep) fun h _ hstep => h.step hstep
  refine hpass.resolve_right ?_
  rintro ⟨j, p, hj, -⟩
  exact hnone j p hj

lemma Acknowledging.reach_policed (acked : List P)
    (hrun : Reach (fun s a s' => Step c s a s' ∧ OnlyByPolicy s a s') Quiet s s') :
    Run (PolicedStep c) ⟨s, acked⟩ ⟨s', acked⟩ := by
  refine hrun.invariant
    (fun t => Run (PolicedStep c) ⟨s, acked⟩ ⟨t, acked⟩) (.refl _) ?_
  rintro t t' a hrch hquiet ⟨hstep, honly⟩
  have hnext := hrch.snoc ⟨.step hstep, honly⟩ trivial
  simpa [hquiet.passed] using hnext

theorem error_does_not_hold_back_run : ∃ σ : Acknowledging Shop Int Text,
    Run (PolicedStep config) ⟨start, [10]⟩ σ ∧
    σ.session.pstate .accounts = .error ∧ σ.session.tracker.positions .accounts = some (some 10) ∧
    ∃ p ∈ σ.acked, config.order.Le 12 p := by
  let c := config
  have h : Reach (fun s a s' => Step c s a s' ∧ OnlyByPolicy s a s') Quiet start _ := .refl _
  have h := h.snoc ⟨.deliver (.change (insert .accounts 11 "7")) rfl rfl, fun _ _ => id⟩
    |>.snoc ⟨.dispatch (.pass rfl (by decide)), fun _ _ => id⟩
    |>.snoc ⟨.dispatch (.send rfl (by decide)), fun _ _ => id⟩
  have h := h.snoc ⟨.turnAway rfl (by decide), fun _ _ => id⟩
    |>.snoc ⟨.dispatch (.done rfl), fun _ _ => id⟩
    |>.snoc ⟨.consume .accounts (.receive rfl rfl), fun _ _ => id⟩
  have h := h.snoc ⟨.consume .accounts (.begin rfl rfl), fun _ _ => id⟩
    |>.snoc ⟨.consume .accounts (.exhausted rfl (by decide)), fun _ _ => id⟩
    |>.snoc ⟨.consume .accounts (.escalate rfl), fun _ _ => id⟩
  have h := h.snoc ⟨.policy (.consumer .accounts) (.store rfl), fun hn => absurd rfl (hn _)⟩
    |>.snoc ⟨.policy (.consumer .accounts) (.skip rfl), fun hn => absurd rfl (hn _)⟩
  -- a heartbeat, which goes to `orders` only
  have h := h.snoc ⟨.deliver (.heartbeat (some 12)) rfl rfl, fun _ _ => id⟩
    |>.snoc ⟨.turnAway rfl (by decide), fun _ _ => id⟩
    |>.snoc ⟨.dispatch (.pass rfl (by decide)), fun _ _ => id⟩
  have h := h.snoc ⟨.dispatch (.send rfl (by decide)), fun _ _ => id⟩
    |>.snoc ⟨.consume .orders (.receive rfl rfl), fun _ _ => id⟩
    |>.snoc ⟨.consume .orders (.beat rfl rfl), fun _ _ => id⟩
  have h := h.snoc ⟨.consume .orders (.confirm rfl), fun _ _ => id⟩
  have h := Acknowledging.reach_policed [10] h
  have h' := h.snoc ⟨.step (.consume .orders (.advance c.pipelineIdxs rfl (.refl _) rfl)),
    fun _ _ => id⟩
  have h' := h'.snoc ⟨.step (.consume .orders (.ack rfl)), fun _ _ => id⟩
  refine ⟨_, h', rfl, rfl,
    (error_does_not_hold_back (fun _ => rfl) nofun (fun last hlast => ?_) h).2
    12 ?_ ⟨.orders, rfl⟩ ?_ (.consume .orders) _ _ (.inr ⟨Shop.orders, rfl, rfl⟩)
    (.step (.consume .orders (.advance c.pipelineIdxs rfl (.refl _) rfl)))
    (.snoc (.refl _) (.step (.consume Shop.orders (.ack rfl))) trivial) ?_⟩
  · obtain rfl : (10 : Int) = last := some.inj hlast
    exact mem_singleton_self _
  · intro i t
    by_cases ht : t = .consumer .accounts <;> simp [ht, start, State.start]
  · intro i hi
    cases i with
    | accounts => exact absurd rfl hi
    | orders => exact ⟨12, rfl, Le.refl _ _⟩
  · intro j p hj
    cases j <;> cases hj

/-- The validation halts `accounts`, which is not skipped: what `orders` confirms is not
acknowledged. When `accounts` gives up after `orders` has confirmed 12 it is skipped, but nobody
calls `AckPosition`: all is at rest, and 10 is the last position the source was acknowledged. -/
theorem halted_pipeline_holds_back : (∃ s : State Shop Int Text, Run (Step config) start s ∧
      s.pstate .accounts = .error ∧ (∀ t, s.ops t = []) ∧
      s.tracker.positions .orders = some (some 12) ∧ s.tracker.skipped .accounts = false ∧
      (s.tracker.ackPosition config.order config.pipelineIdxs).2.lastAcked = some 10) ∧
    (∃ σ : Acknowledging Shop Int Text, Run (PolicedStep config) ⟨start, [10]⟩ σ ∧
      σ.session.pstate .accounts = .error ∧ σ.session.tracker.skipped .accounts = true ∧
      σ.session.tracker.positions .orders = some (some 12) ∧ σ.session.dispatcher = .idle ∧
      (∀ i, σ.session.consumer i = .receive ∧ σ.session.buf i = []) ∧ σ.acked = [10]) ∧
    ((new : AckTracker Shop Int).confirmBaseline config.order
      config.pipelineIdxs [.orders] 10).2.lastAcked = none := by
  let c := config
  refine ⟨?_, ?_, rfl⟩
  · have h : Run (Step c) start _ := .refl _
    have h := h.snoc (.halt .accounts)
      |>.snoc (.deliver (.heartbeat (some 12)) rfl rfl)
      |>.snoc (.turnAway rfl (by decide))
    have h := h.snoc (.dispatch (.pass rfl (by decide)))
      |>.snoc (.dispatch (.send rfl (by decide)))
      |>.snoc (.consume .orders (.receive rfl rfl))
    have h := h.snoc (.consume .orders (.beat rfl rfl))
      |>.snoc (.consume .orders (.confirm rfl))
    exact ⟨_, h, rfl, fun _ => rfl, rfl, rfl, rfl⟩
  · have h : Reach (fun s a s' => Step c s a s' ∧ OnlyByPolicy s a s') Quiet start _ := .refl _
    have h := h.snoc ⟨.deliver (.change (insert .accounts 11 "7")) rfl rfl, fun _ _ => id⟩
      |>.snoc ⟨.dispatch (.pass rfl (by decide)), fun _ _ => id⟩
      |>.snoc ⟨.dispatch (.send rfl (by decide)), fun _ _ => id⟩
    have h := h.snoc ⟨.turnAway rfl (by decide), fun _ _ => id⟩
      |>.snoc ⟨.dispatch (.done rfl), fun _ _ => id⟩
      |>.snoc ⟨.consume .accounts (.receive rfl rfl), fun _ _ => id⟩
    have h := h.snoc ⟨.deliver (.heartbeat (some 12)) rfl rfl, fun _ _ => id⟩
      |>.snoc ⟨.dispatch (.pass rfl (by decide)), fun _ _ => id⟩
      |>.snoc ⟨.dispatch (.send rfl (by decide)), fun _ _ => id⟩
    have h := h.snoc ⟨.dispatch (.pass rfl (by decide)), fun _ _ => id⟩
      |>.snoc ⟨.dispatch (.send rfl (by decide)), fun _ _ => id⟩
      |>.snoc ⟨.dispatch (.done rfl), fun _ _ => id⟩
    have h := h.snoc ⟨.consume .orders (.receive rfl rfl), fun _ _ => id⟩
      |>.snoc ⟨.consume .orders (.beat rfl rfl), fun _ _ => id⟩
      |>.snoc ⟨.consume .orders (.confirm rfl), fun _ _ => id⟩
    have h := h.snoc ⟨.consume .orders (.settled c.pipelineIdxs rfl (.refl _) rfl), fun _ _ => id⟩
      |>.snoc ⟨.consume .accounts (.begin rfl rfl), fun _ _ => id⟩
      |>.snoc ⟨.consume .accounts (.exhausted rfl (by decide)), fun _ _ => id⟩
    have h := h.snoc ⟨.consume .accounts (.escalate rfl), fun _ _ => id⟩
      |>.snoc ⟨.policy (.consumer .accounts) (.store rfl), fun hn => absurd rfl (hn _)⟩
      |>.snoc ⟨.policy (.consumer .accounts) (.skip rfl), fun hn => absurd rfl (hn _)⟩
    have h := h.snoc ⟨.consume .accounts (.isolated rfl rfl rfl), fun _ _ => id⟩
      |>.snoc ⟨.consume .accounts (.receive rfl rfl), fun _ _ => id⟩
      |>.snoc ⟨.discard .accounts rfl (by decide), fun _ _ => id⟩
    refine ⟨_, Acknowledging.reach_policed [10] h, rfl, rfl, rfl, rfl, fun i => ?_, rfl⟩
    cases i <;> exact ⟨rfl, rfl⟩

end Laredo.Engine
