import Laredo.Engine.Reload

/-!
# Snapshot

`doSnapshot` (`engine.go`) beside a streaming session: it pauses the sources, exports the targets
one after the other, then reads the position that was acknowledged last, and saves both.
-/

namespace Laredo.Engine

open AckTracker Transition List Shop

variable {ι P V : Type}

section

variable [GoValue V]

structure Export (t : SyncTarget P V) where
  log : List (LogEntry P V)
  entries : List (Row V)
  holds : Fanout.Target.Iterates entries (rowsOf t log)

inductive Taking (ι P : Type)
  | idle
  | check (rest : List ι)
  | recheck (i : ι) (rest : List ι)
  | exporting (i : ι) (rest : List ι)
  | save (position : Option P)

variable {target : ι → SyncTarget P V}

structure Saved (target : ι → SyncTarget P V) where
  position : Option P
  exported : ∀ i, Option (Export (target i))

structure Snapping (target : ι → SyncTarget P V) where
  session : State ι P V
  taking : Taking ι P
  exported : ∀ i, Option (Export (target i))
  saved : List (Saved target)

inductive SnapAct (ι P V : Type)
  | session (a : Act ι P V)
  | snapshot

variable [DecidableEq ι] (c : Config ι P V)

inductive SnapStep (s : Snapping target) : SnapAct ι P V → Snapping target → Prop
  | session {a : Act ι P V} {s' : State ι P V} (h : Step c s.session a s') :
      SnapStep s (.session a) { s with session := s' }
  | pause (hpc : s.taking = .idle) :
      SnapStep s .snapshot
        { s with
          session := s.session.setSourcePaused true
          taking := .check c.pipelineIdxs
          exported := fun _ => none }
  | paused {i : ι} {rest : List ι} (hpc : s.taking = .check (i :: rest))
      (hstate : s.session.pstate i = .paused) :
      SnapStep s .snapshot { s with taking := .exporting i rest }
  | notPaused {i : ι} {rest : List ι} (hpc : s.taking = .check (i :: rest))
      (hstate : s.session.pstate i ≠ .paused) :
      SnapStep s .snapshot { s with taking := .recheck i rest }
  | streaming {i : ι} {rest : List ι} (hpc : s.taking = .recheck i rest)
      (hstate : s.session.pstate i = .streaming) :
      SnapStep s .snapshot { s with taking := .exporting i rest }
  | leaveOut {i : ι} {rest : List ι} (hpc : s.taking = .recheck i rest)
      (hstate : s.session.pstate i ≠ .streaming) :
      SnapStep s .snapshot { s with taking := .check rest }
  | exportTarget {i : ι} {rest : List ι} (e : Export (target i))
      (hpc : s.taking = .exporting i rest) (hlog : e.log = s.session.log i) :
      SnapStep s .snapshot
        { s with exported := Function.update s.exported i (some e), taking := .check rest }
  | exportFails {i : ι} {rest : List ι} (hpc : s.taking = .exporting i rest) :
      SnapStep s .snapshot
        { s with session := s.session.setSourcePaused false, taking := .idle }
  | readPosition (hpc : s.taking = .check []) :
      SnapStep s .snapshot { s with taking := .save s.session.tracker.lastAcked }
  | save {position : Option P} (hpc : s.taking = .save position) :
      SnapStep s .snapshot
        { s with
          session := s.session.setSourcePaused false
          taking := .idle
          saved := ⟨position, s.exported⟩ :: s.saved }
  | saveFails {position : Option P} (hpc : s.taking = .save position) :
      SnapStep s .snapshot
        { s with session := s.session.setSourcePaused false, taking := .idle }

def Snapping.start (s : State ι P V) : Snapping target := ⟨s, .idle, fun _ => none, []⟩

def Snapping.Open (s : Snapping target) : Prop :=
  match s.taking with
  | .idle | .save _ => False
  | .exporting _ _ => True
  | .check _ | .recheck _ _ => ∃ i, (s.exported i).isSome

/-- The session goes on carefully, and the acknowledged position does not advance between the
export of the first target and the reading of the position. -/
def Still (s : Snapping target) : SnapAct ι P V → Prop
  | .session a => Careful c s.session a ∧
      (s.Open → a.Computes s.session → ∀ pids, pids.Perm c.pipelineIdxs →
        (s.session.tracker.ackPosition c.order pids).1.2 = false)
  | .snapshot => True

omit [GoValue V]

/-- Every `Skip` among these accesses comes when the pipeline is dead, or after it is moved to
ERROR by them. -/
def SkipsDead (dead : ι → Prop) : List (PolicyOp ι) → Prop
  | [] => True
  | .store i :: ops => SkipsDead (fun j => dead j ∨ j = i) ops
  | .skip i :: ops => dead i ∧ SkipsDead dead ops
  | .check _ :: ops | .cancel :: ops => SkipsDead dead ops

variable {c} {s s' : State ι P V} {ops : List (PolicyOp ι)}

omit [DecidableEq ι] in
lemma SkipsDead.mono {dead dead' : ι → Prop} (h : SkipsDead dead ops)
    (himp : ∀ i, dead i → dead' i) : SkipsDead dead' ops := by
  induction ops generalizing dead dead' with
  | nil => trivial
  | cons op ops ih =>
    cases op with
    | store i => exact ih h fun j hj => hj.imp_left (himp j)
    | skip i => exact ⟨himp i h.1, ih h.2 himp⟩
    | check i | cancel => exact ih h himp

omit [DecidableEq ι] in
lemma SkipsDead.checks (dead : ι → Prop) (l : List ι) (ops : List (PolicyOp ι))
    (h : SkipsDead dead ops) : SkipsDead dead (l.map .check ++ ops) := by
  induction l with
  | nil => exact h
  | cons i l ih => exact ih

omit [DecidableEq ι] in
lemma skipsDead_policyOps (dead : ι → Prop) (i : ι) : SkipsDead dead (c.policyOps i) := by
  unfold Config.policyOps
  cases (c.pipeline i).errorPolicy with
  | isolate => exact ⟨.inr rfl, trivial⟩
  | stopSource =>
    have h := SkipsDead.checks dead c.pipelineIdxs [] trivial
    rwa [append_nil] at h
  | stopAll => exact SkipsDead.checks dead c.pipelineIdxs [.cancel] trivial

structure SkippedDead (c : Config ι P V) (s : State ι P V) : Prop where
  ops : ∀ t, SkipsDead (fun i => (s.lane c i).Dead) (s.ops t)
  skipped : ∀ i, s.tracker.skipped i = true → (s.lane c i).Dead

variable {a : Act ι P V}

omit [DecidableEq ι] in
lemma Lane.Step.dead {p : ResolvedPipeline V} {i : ι} {l l' : Lane P V}
    (hstep : Lane.Step p i l a l') (hok : l.Careful p i a) (hdead : l.Dead) : l'.Dead := by
  cases hstep with
  | settle hwork | error => exact .inl rfl
  | store st =>
    rcases hok rfl with ⟨-, h, -⟩ | ⟨-, h⟩ <;> rcases hdead with h' | h' <;> simp [h] at h'
  | reload | note => exact hok.elim
  | _ => exact hdead

lemma SkippedDead.setOps (h : SkippedDead c s) (t : Thread ι)
    (hops : SkipsDead (fun i => (s.lane c i).Dead) ops) :
    ∀ t', SkipsDead (fun i => (s.lane c i).Dead) ((s.setOps t ops).ops t') := by
  intro t'
  by_cases ht : t' = t
  · subst ht
    simpa using hops
  · simpa [ht] using h.ops t'

lemma SkippedDead.policy (h : SkippedDead c s) {t : Thread ι} (hstep : PolicyStep t s s')
    (hdead : ∀ i, (s.lane c i).Dead → (s'.lane c i).Dead) : SkippedDead c s' := by
  have hops := h.ops t
  have hkeep : ∀ {ops : List (PolicyOp ι)}, SkipsDead (fun i => (s.lane c i).Dead) ops →
      ∀ t', SkipsDead (fun i => (s'.lane c i).Dead) ((s.setOps t ops).ops t') :=
    fun hops t' => (h.setOps t hops t').mono hdead
  cases hstep with
  | @checkLive j rest heq hlive =>
    rw [heq] at hops
    exact ⟨hkeep ⟨.inr rfl, SkipsDead.mono hops fun _ => .inl⟩,
      fun i hi => hdead i (h.skipped i hi)⟩
  | @checkDead j rest heq hd | @cancel rest heq =>
    rw [heq] at hops
    exact ⟨hkeep hops, fun i hi => hdead i (h.skipped i hi)⟩
  | @store j rest heq =>
    rw [heq] at hops
    refine ⟨fun t' => ?_, fun i hi => hdead i (h.skipped i hi)⟩
    have hrest : SkipsDead
        (fun i => (((s.setOps t rest).setState j .error).lane c i).Dead) rest := by
      refine SkipsDead.mono hops fun i hi => hi.elim (hdead i) ?_
      rintro rfl
      exact .inl (by simp [State.lane])
    by_cases ht : t' = t
    · subst ht
      simpa using hrest
    · simpa [ht] using (h.ops t').mono hdead
  | @skip j rest heq =>
    rw [heq] at hops
    refine ⟨hkeep hops.2, fun i hi => ?_⟩
    by_cases hij : i = j
    · subst hij
      exact hdead i hops.1
    · exact hdead i (h.skipped i (by simpa [skip, hij] using hi))

lemma SkippedDead.step (h : SkippedDead c s) (hok : Careful c s a)
    (hstep : Step c s a s') : SkippedDead c s' := by
  have hdead : ∀ i, (s.lane c i).Dead → (s'.lane c i).Dead := fun i => (hstep.lane i).dead (hok i)
  have hsame : s'.ops = s.ops → s'.tracker.skipped = s.tracker.skipped → SkippedDead c s' := by
    intro hops hskip
    refine ⟨fun t => ?_, fun i hi => hdead i (h.skipped i (hskip ▸ hi))⟩
    rw [hops]
    exact (h.ops t).mono hdead
  cases hstep with
  | policy t hpol => exact h.policy hpol hdead
  | stopAll n hops =>
    refine ⟨fun t => ?_, fun i hi => hdead i (h.skipped i hi)⟩
    exact (h.setOps _ (SkipsDead.checks _ _ [.cancel] trivial) t).mono hdead
  | consume i hcons =>
    cases hcons with
    | escalate hpc =>
      refine ⟨fun t => ?_, fun j hj => hdead j (h.skipped j hj)⟩
      exact (h.setOps _ (skipsDead_policyOps _ i) t).mono hdead
    | settled pids hpc hpids hack | advance pids hpc hpids hack =>
      exact hsame rfl (ackPosition_positions hack).2
    | _ => exact hsame rfl rfl
  | dispatch hdisp =>
    cases hdisp with
    | @overflow x i rest hpc hblocks hpol hfull =>
      refine ⟨fun t => ?_, fun j hj => hdead j (h.skipped j hj)⟩
      exact (h.setOps _ (skipsDead_policyOps _ i) t).mono hdead
    | _ => exact hsame rfl rfl
  | finalAck pids hcl hexited hpids hack =>
    exact hsame rfl (ackPosition_positions hack).2
  | reload hrel => cases hrel <;> exact hsame rfl rfl
  | _ => exact hsame rfl rfl

def Contains (c : Config ι P V) (s : State ι P V) (i : ι) (log : List (LogEntry P V)) (q : P) :
    Prop :=
  Increasing c.order s.delivered → Lane.Done c.order { s.lane c i with log := log } q

lemma Contains.step {i : ι} {log : List (LogEntry P V)} {q : P}
    (h : Contains c s i log q) (hstep : Step c s a s') : Contains c s' i log q := by
  intro hinc
  obtain ⟨hrd, happ⟩ := h (hinc.sublist hstep.delivered_sublist)
  obtain ⟨x, hx, px, hpx, hqx⟩ := hrd
  have hlane := hstep.lane i
  refine ⟨⟨x, ?_, px, hpx, hqx⟩, fun e he pe hpe hle => ?_⟩
  · rcases hlane.grows.1 with heq | ⟨y, heq⟩
    · show x ∈ (s'.lane c i).offered
      rwa [heq]
    · show x ∈ (s'.lane c i).offered
      rw [heq]
      exact mem_append_left _ hx
  · rcases hlane.offered_cases (hinc.offered i) he with hold | hnew
    · exact happ e hold pe hpe hle
    · exact absurd (hle.trans hqx) (hnew x hx px pe hpx hpe).not_le

def LastBacked (c : Config ι P V) (first : Option P) (s : State ι P V) : Prop :=
  ∀ q, s.tracker.lastAcked = some q → first = some q ∨
    ∀ i, s.tracker.skipped i = false → Contains c s i (s.log i) q

lemma Step.lastAcked (hstep : Step c s a s') : s'.tracker.lastAcked = s.tracker.lastAcked ∨
      a.Computes s ∧ ∃ pids r, pids.Perm c.pipelineIdxs ∧
        s.tracker.ackPosition c.order pids = (r, s'.tracker) := by
  cases hstep.ackEffect with
  | quiet htrk _ => exact .inl (by rw [htrk])
  | confirm i pos _ _ htrk _ | skip i _ htrk _ => exact .inl (by rw [htrk]; rfl)
  | ack pids r ha hpids htrk _ => exact .inr ⟨ha, pids, r, hpids, htrk⟩

lemma LastBacked.step {first : Option P} (h : LastBacked c first s)
    (hsafe : Safe c s) (hskip : ∀ i, s.tracker.skipped i = true → s'.tracker.skipped i = true)
    (hstep : Step c s a s') : LastBacked c first s' := by
  have hcnt : ∀ i, s'.tracker.skipped i = false → s.tracker.skipped i = false := by
    intro i hi
    by_contra hs
    rw [hskip i (by simpa using hs)] at hi
    cases hi
  -- what a target contains it goes on containing
  have hgrow : ∀ i q, Contains c s i (s.log i) q → Contains c s' i (s'.log i) q := by
    intro i q hq hinc
    have hdone : (s.lane c i).Done c.order q := hq (hinc.sublist hstep.delivered_sublist)
    exact hdone.step (hinc.offered i) (hstep.lane i)
  have hsame : s'.tracker.lastAcked = s.tracker.lastAcked → LastBacked c first s' := by
    intro heq q hq
    refine (h q (heq ▸ hq)).imp_right fun hall i hi => ?_
    exact hgrow i q (hall i (hcnt i hi))
  rcases hstep.lastAcked with heq | ⟨-, pids, r, hpids, hack⟩
  · exact hsame heq
  · rcases ackPosition_cases hack with ⟨-, heq, -⟩ | ⟨m, -, ⟨-, -, heq⟩ | ⟨-, rfl, heq⟩⟩
    · exact hsame (by rw [heq])
    · exact hsame (by rw [heq])
    · -- a new minimum
      intro q hq
      obtain rfl : m = q := by rw [heq] at hq; exact Option.some.inj hq
      refine .inr fun i hi => hgrow i m fun hinc => ?_
      exact (hsafe.backed hinc).of_ackPosition hpids hack i (hcnt i hi)

lemma Step.skipped_mono (hstep : Step c s a s') {i : ι}
    (h : s.tracker.skipped i = true) : s'.tracker.skipped i = true := by
  cases hstep.ackEffect with
  | quiet htrk _ => rwa [htrk]
  | confirm j pos _ _ htrk _ => rwa [htrk]
  | skip j _ htrk _ =>
    rw [htrk, skip]
    by_cases hij : i = j
    · subst hij; simp
    · simpa [hij] using h
  | ack pids r _ hpids htrk _ => rwa [(ackPosition_positions htrk).2]

end

section

variable [GoValue V] [DecidableEq ι] {target : ι → SyncTarget P V} {c : Config ι P V}
variable {s s' : Snapping target}

def Vouches (c : Config ι P V) (first : Option P) (s : State ι P V)
    (exported : ∀ i, Option (Export (target i))) (position : Option P) : Prop :=
  ∀ q, position = some q → first = some q ∨
    ∀ i e, exported i = some e → Contains c s i e.log q

variable {first : Option P} {t : State ι P V} {a : Act ι P V}

lemma Vouches.step {position : Option P} {t' : State ι P V}
    {exported : ∀ i, Option (Export (target i))} (h : Vouches c first t exported position)
    (hstep : Step c t a t') : Vouches c first t' exported position :=
  fun q hq => (h q hq).imp_right fun hall i e he => (hall i e he).step hstep

def Taking.Active : Taking ι P → Prop
  | .idle | .save _ => False
  | .check _ | .recheck _ _ | .exporting _ _ => True

structure Snapping.Inv (c : Config ι P V) (first : Option P) (s : Snapping target) : Prop where
  safe : Safe c s.session
  skippedDead : SkippedDead c s.session
  last : LastBacked c first s.session
  exported : s.taking.Active →
    Vouches c first s.session s.exported s.session.tracker.lastAcked
  exporting : ∀ i rest, s.taking = .exporting i rest →
    ∀ q, s.session.tracker.lastAcked = some q → first = some q ∨
      Contains c s.session i (s.session.log i) q
  read : ∀ position, s.taking = .save position → Vouches c first s.session s.exported position
  saved : ∀ snap ∈ s.saved, Vouches c first s.session snap.exported snap.position

lemma Snapping.Inv.of_session (h : s.Inv c first)
    (hblk : ∀ i, (c.pipeline i).bufferPolicy = .block) {taking : Taking ι P}
    {exported : ∀ i, Option (Export (target i))} {saved : List (Saved target)} {paused : Bool}
    (ht : t = s.session.setSourcePaused paused)
    (hexp : taking.Active → Vouches c first s.session exported s.session.tracker.lastAcked)
    (hexpo : ∀ i rest, taking = .exporting i rest →
      ∀ q, s.session.tracker.lastAcked = some q → first = some q ∨
        Contains c s.session i (s.session.log i) q)
    (hread : ∀ position, taking = .save position → Vouches c first s.session exported position)
    (hsaved : ∀ snap ∈ saved, Vouches c first s.session snap.exported snap.position) :
    Snapping.Inv c first (⟨t, taking, exported, saved⟩ : Snapping target) := by
  subst ht
  have hstep : ∃ a, Careful c s.session a ∧
      Step c s.session a (s.session.setSourcePaused paused) := by
    cases paused with
    | true => exact ⟨.pauseSource, fun _ => trivial, .pauseSource⟩
    | false => exact ⟨.resumeSource, fun _ => trivial, .resumeSource⟩
  obtain ⟨a, hok, hstep⟩ := hstep
  exact ⟨h.safe.step hblk hok hstep, h.skippedDead.step hok hstep, h.last, hexp, hexpo,
    hread, hsaved⟩

lemma Snapping.Inv.live (h : s.Inv c first) {i : ι}
    (hlive : s.session.pstate i = .paused ∨ s.session.pstate i = .streaming) :
    ∀ q, s.session.tracker.lastAcked = some q → first = some q ∨
      Contains c s.session i (s.session.log i) q := by
  intro q hq
  refine (h.last q hq).imp_right fun hall => hall i ?_
  cases hskip : s.session.tracker.skipped i with
  | false => rfl
  | true =>
    have hdead := h.skippedDead.skipped i hskip
    rcases hlive with hp | hp <;> rcases hdead with hd | hd <;>
      exact absurd (hp.symm.trans hd) nofun

lemma Still.lastAcked (hok : Still c s (.session a))
    (hopen : s.Open) (hstep : Step c s.session a t) :
    t.tracker.lastAcked = s.session.tracker.lastAcked := by
  rcases hstep.lastAcked with heq | ⟨hcomp, pids, r, hpids, hack⟩
  · exact heq
  · have hno := hok.2 hopen hcomp pids hpids
    rcases ackPosition_cases hack with ⟨-, heq, -⟩ | ⟨m, -, ⟨-, -, heq⟩ | ⟨-, rfl, -⟩⟩
    · rw [heq]
    · rw [heq]
    · rw [hack] at hno
      cases hno

lemma Snapping.Inv.session (h : s.Inv c first) (hblk : ∀ i, (c.pipeline i).bufferPolicy = .block)
    (hok : Still c s (.session a)) (hstep : Step c s.session a t) :
    Snapping.Inv c first { s with session := t } where
  safe := h.safe.step hblk hok.1 hstep
  skippedDead := h.skippedDead.step hok.1 hstep
  last := h.last.step h.safe (fun _ => hstep.skipped_mono) hstep
  exported := by
    intro hactive
    by_cases hopen : s.Open
    · rw [hok.lastAcked hopen hstep]
      exact (h.exported hactive).step hstep
    · -- nothing was exported yet
      intro q _
      refine .inr fun i e he => absurd ?_ hopen
      unfold Snapping.Open
      have hsome : ∃ i, (s.exported i).isSome := ⟨i, by
        rw [show s.exported i = some e from he]; rfl⟩
      cases htaking : s.taking with
      | idle | save position => exact absurd hactive (by simp [Taking.Active, htaking])
      | check rest => exact hsome
      | recheck j rest => exact hsome
      | exporting j rest => trivial
  exporting := by
    intro i rest htaking q hq
    have hopen : s.Open := by
      unfold Snapping.Open
      rw [show s.taking = .exporting i rest from htaking]
      trivial
    rw [show t.tracker.lastAcked = _ from hok.lastAcked hopen hstep] at hq
    refine (h.exporting i rest htaking q hq).imp_right fun hcont hinc => ?_
    have hdone := hcont (hinc.sublist hstep.delivered_sublist)
    exact hdone.step (hinc.offered i) (hstep.lane i)
  read position htaking := (h.read position htaking).step hstep
  saved snap hsnap := (h.saved snap hsnap).step hstep

lemma SnapStep.inv {a : SnapAct ι P V} (hstep : SnapStep c s a s')
    (hblk : ∀ i, (c.pipeline i).bufferPolicy = .block) (hok : Still c s a) (h : s.Inv c first) :
    s'.Inv c first := by
  cases hstep with
  | session hs => exact h.session hblk hok hs
  | pause hpc => exact h.of_session hblk rfl (fun _ q _ => .inr nofun) nofun nofun h.saved
  | @paused i rest hpc hstt =>
    refine ⟨h.safe, h.skippedDead, h.last, fun _ => h.exported (by rw [hpc]; trivial), ?_, nofun,
      h.saved⟩
    rintro j rest' ⟨⟩
    exact h.live (.inl hstt)
  | notPaused hpc hstt | leaveOut hpc hstt =>
    exact ⟨h.safe, h.skippedDead, h.last, fun _ => h.exported (by rw [hpc]; trivial), nofun, nofun,
      h.saved⟩
  | @streaming i rest hpc hstt =>
    refine ⟨h.safe, h.skippedDead, h.last, fun _ => h.exported (by rw [hpc]; trivial), ?_, nofun,
      h.saved⟩
    rintro j rest' ⟨⟩
    exact h.live (.inr hstt)
  | @exportTarget i rest e hpc hlog =>
    refine ⟨h.safe, h.skippedDead, h.last, fun _ q hq => ?_, nofun, nofun, h.saved⟩
    rcases h.exporting i rest hpc q hq with hfst | hcont
    · exact .inl hfst
    · refine (h.exported (by rw [hpc]; trivial) q hq).imp_right fun hall j e' he' => ?_
      by_cases hj : j = i
      · subst hj
        obtain rfl : e = e' := by simpa using he'
        rw [hlog]
        exact hcont
      · exact hall j e' (by simpa [hj] using he')
  | exportFails hpc | saveFails hpc => exact h.of_session hblk rfl nofun nofun nofun h.saved
  | readPosition hpc =>
    refine ⟨h.safe, h.skippedDead, h.last, nofun, nofun, ?_, h.saved⟩
    rintro position ⟨⟩
    exact h.exported (by rw [hpc]; trivial)
  | @save position hpc =>
    refine h.of_session hblk rfl nofun nofun nofun ?_
    intro snap hsnap
    rcases mem_cons.mp hsnap with rfl | hold
    · exact h.read position hpc
    · exact h.saved snap hold

/-- **A snapshot contains the position it claims**, along steps that are `Still`: every change at
or before it that was delivered for an exported pipeline had reached the target when it was
exported. -/
theorem snapshot_position_is_contained (hblock : ∀ i, (c.pipeline i).bufferPolicy = .block)
    {s₀ : State ι P V} (hstart : Start c s₀)
    (hskipped : ∀ i, s₀.tracker.skipped i = true → s₀.pstate i = .error ∨ s₀.pstate i = .stopped)
    (hrun : Reach (SnapStep c) (Still c) (Snapping.start s₀ : Snapping target) s)
    (hinc : Increasing c.order s.session.delivered)
    (hafter : ∀ first, s₀.tracker.lastAcked = some first → ∀ e, .change e ∈ s.session.delivered →
      ∀ p, e.position = some p → c.order.Lt first p)
    {snap : Saved target} (hsnap : snap ∈ s.saved) {q : P} (hq : snap.position = some q) {i : ι}
    {ex : Export (target i)} (hex : snap.exported i = some ex) {e : ChangeEvent P V}
    (he : .change e ∈ s.session.delivered) (htable : e.table = (c.pipeline i).table) {p : P}
    (hp : e.position = some p) (hle : c.order.Le p q) :
    e ∈ appliedChanges ex.log ∧ Fanout.Target.Iterates ex.entries (rowsOf (target i) ex.log) := by
  have hinv : s.Inv c s₀.tracker.lastAcked := by
    refine hrun.invariant (Snapping.Inv c s₀.tracker.lastAcked) ?_ ?_
    · refine ⟨hstart.safe, ⟨fun t => ?_, hskipped⟩, fun q hq => .inl hq, nofun, nofun, nofun, nofun⟩
      show SkipsDead _ (s₀.ops t)
      rw [hstart.ops t]
      trivial
    · intro t t' a hinv hok hstep
      exact hstep.inv hblock hok hinv
  refine ⟨?_, ex.holds⟩
  rcases hinv.saved snap hsnap q hq with hfst | hall
  · exact absurd hle (hafter q hfst e he p hp).not_le
  · have hoff : e ∈ changesOf (s.session.lane c i).offered :=
      mem_changesOf.mpr (List.mem_filter.mpr ⟨he, by simp [Item.For, htable]⟩)
    exact (hall i ex hex hinc).applied e hoff p hp hle

end

def Export.after [GoValue V] (t : SyncTarget P V) (log : List (LogEntry P V)) : Export t :=
  ⟨log, (rowsOf t log).toList.map Prod.snd, List.Perm.refl _⟩

def Shop.emptyTargets : Shop → SyncTarget Int Text := fun _ => Shop.target

/-- The consumer of accounts holds an insert at 11 when the snapshot begins. -/
theorem snapshot_claims_unexported_change :
    ∃ (s : Snapping emptyTargets) (snap : Saved emptyTargets)
      (ex : Export (emptyTargets .accounts)), Run (SnapStep config) (Snapping.start Shop.start) s ∧
      snap ∈ s.saved ∧ snap.position = some 11 ∧ snap.exported .accounts = some ex ∧
      ex.entries = [] ∧ appliedChanges ex.log = [] ∧
      Item.change (Shop.insert .accounts 11 "7") ∈ s.session.delivered := by
  let c := config
  have h : Run (SnapStep c)
      (Snapping.start Shop.start : Snapping emptyTargets) _ := .refl _
  have h := h
    |>.snoc (.session (.deliver (.change (Shop.insert .accounts 11 "7")) rfl rfl))
    |>.snoc (.session (.dispatch (.pass rfl (by decide))))
    |>.snoc (.session (.dispatch (.send rfl (by decide))))
    |>.snoc (.session (.turnAway rfl (by decide)))
    |>.snoc (.session (.dispatch (.done rfl)))
    |>.snoc (.session (.consume .accounts (.receive rfl rfl)))
    |>.snoc (.session (.deliver (.heartbeat (some 12)) rfl rfl))
    |>.snoc (.session (.dispatch (.pass rfl (by decide))))
    |>.snoc (.session (.dispatch (.send rfl (by decide))))
    |>.snoc (.session (.dispatch (.pass rfl (by decide))))
  have h := h
    |>.snoc (.session (.dispatch (.send rfl (by decide))))
  -- the sources are paused and both targets exported
  have h := h
    |>.snoc (.pause rfl)
    |>.snoc (.notPaused rfl nofun)
    |>.snoc (.streaming rfl rfl)
    |>.snoc (.exportTarget (Export.after _ []) rfl rfl)
    |>.snoc (.notPaused rfl nofun)
    |>.snoc (.streaming rfl rfl)
    |>.snoc (.exportTarget (Export.after _ []) rfl rfl)
  -- the consumers go on
  have h := h
    |>.snoc (.session (.consume .accounts (.begin rfl rfl)))
    |>.snoc (.session (.consume .accounts (.applied 0 rfl)))
    |>.snoc (.session (.consume .accounts (.confirm rfl)))
    |>.snoc (.session (.consume .orders (.receive rfl rfl)))
    |>.snoc (.session (.consume .orders (.beat rfl rfl)))
    |>.snoc (.session (.consume .orders (.confirm rfl)))
  have h := h.snoc
    (.session (.consume .orders (.advance (q := 11) c.pipelineIdxs rfl (.refl _) rfl)))
  have h := h.snoc (.readPosition rfl)
    |>.snoc (.save rfl)
  exact ⟨_, _, Export.after _ [], h, mem_cons_self, rfl, rfl, rfl, rfl, mem_cons_self⟩

theorem snapshot_position_is_contained_run :
    ∃ (s : Snapping emptyTargets) (snap : Saved emptyTargets)
      (ex : Export (emptyTargets .accounts)),
      Reach (SnapStep config) (Still config) (Snapping.start Shop.start) s ∧
      snap ∈ s.saved ∧ snap.position = some 11 ∧ snap.exported .accounts = some ex ∧
      ex.entries = [Shop.row "7"] ∧ Shop.insert .accounts 11 "7" ∈ appliedChanges ex.log := by
  let c := config
  have h : Reach (SnapStep c) (Still c)
      (Snapping.start Shop.start : Snapping emptyTargets) _ := .refl _
  have hidle : ∀ (s : State Shop Int Text) (a : Act Shop Int Text),
      Careful c s a → Still c (⟨s, .idle, fun _ => none, []⟩ : Snapping emptyTargets)
        (.session a) := fun s a ha => ⟨ha, nofun⟩
  have h := h
    |>.snoc (.session (.deliver (.change (Shop.insert .accounts 11 "7")) rfl rfl))
    |>.snoc (.session (.dispatch (.pass rfl (by decide))))
    |>.snoc (.session (.dispatch (.send rfl (by decide))))
    |>.snoc (.session (.turnAway rfl (by decide)))
    |>.snoc (.session (.dispatch (.done rfl)))
    |>.snoc (.session (.consume .accounts (.receive rfl rfl)))
    |>.snoc (.session (.consume .accounts (.begin rfl rfl)))
    |>.snoc (.session (.consume .accounts (.applied 0 rfl)))
    |>.snoc (.session (.consume .accounts (.confirm rfl)))
    |>.snoc (.session (.consume .accounts (.settled c.pipelineIdxs rfl (.refl _) rfl)))
  have h := h
    |>.snoc (.session (.deliver (.heartbeat (some 12)) rfl rfl))
    |>.snoc (.session (.dispatch (.pass rfl (by decide))))
    |>.snoc (.session (.dispatch (.send rfl (by decide))))
    |>.snoc (.session (.dispatch (.pass rfl (by decide))))
    |>.snoc (.session (.dispatch (.send rfl (by decide))))
    |>.snoc (.session (.consume .orders (.receive rfl rfl)))
    |>.snoc (.session (.consume .orders (.beat rfl rfl)))
    |>.snoc (.session (.consume .orders (.confirm rfl)))
    |>.snoc (.session (.consume .orders (.advance (q := 11) c.pipelineIdxs rfl (.refl _) rfl)))
    |>.snoc (.pause rfl)
  have h := h
    |>.snoc (.notPaused rfl nofun)
    |>.snoc (.streaming rfl rfl)
    |>.snoc (.exportTarget (Export.after _ [.change (Shop.insert .accounts 11 "7")
      (some (.insert (Shop.row "7")))]) rfl rfl)
    |>.snoc (.notPaused rfl nofun)
    |>.snoc (.streaming rfl rfl)
    |>.snoc (.exportTarget (Export.after _ []) rfl rfl)
    |>.snoc (.readPosition rfl)
    |>.snoc (.save rfl)
  refine ⟨_, _, Export.after _ [.change (Shop.insert .accounts 11 "7")
    (some (.insert (Shop.row "7")))], h, mem_cons_self, rfl, rfl, rfl, ?_⟩
  refine (snapshot_position_is_contained (fun _ => rfl) start_start nofun h ⟨?_, ?_⟩ ?_
    mem_cons_self rfl rfl mem_cons_self rfl rfl (by decide)).1
  · simp [Snapping.start, Shop.start, State.start, Shop.insert, Item.position]
  · simp [Snapping.start, Shop.start, State.start, Shop.insert, Item.position, Item.Precedes]
    decide
  · intro first hfst e he p hp
    cases hfst
    simp [Snapping.start, Shop.start, State.start] at he
    subst he
    cases hp
    decide

end Laredo.Engine
