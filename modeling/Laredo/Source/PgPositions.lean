import Laredo.Engine.SyncTarget
import Laredo.Source.PgFlush

/-!
# PostgreSQL: positions

What the positions of the PostgreSQL source are good for (`Usable`).
-/

namespace Laredo.Pg

open Transition List Option
open Engine (Config Item Lane Work LogEntry AckTracker changesOf)
open Fanout (Op)

section

variable {V : Type} [GoValue V] (text : String → V) {tableSet : List String}
variable {relations : Nat → Option RelationMessage} {msg : LogicalMessage}

def Silent (tableSet : List String) (relations : Nat → Option RelationMessage) :
    LogicalMessage → Prop
  | .insert id _ | .update id _ _ | .delete id _ => replicated tableSet relations id = none
  | .truncate ids => ∀ id ∈ ids, replicated tableSet relations id = none
  | .relation _ | .other => True

lemma events_of_silent (h : Silent tableSet relations msg) :
    (handleWALData text tableSet relations msg).2 = [] := by
  cases msg with
  | insert id tuple | update id newTuple oldTuple | delete id oldTuple =>
    have hnone : replicated tableSet relations id = none := h
    simp [handleWALData, hnone]
  | truncate ids =>
    have hnone := filterMap_eq_nil_iff.mpr h
    simp [handleWALData, hnone]
  | relation msg | other => rfl

end

variable {ι V : Type}

def beatsOf : Work LSN V → List (Item LSN V)
  | .confirming pos => [.heartbeat pos]
  | _ => []

def line (l : Lane LSN V) : List (Item LSN V) := beatsOf l.work ++ l.queue

def Rises (xs : List (Item LSN V)) : Prop :=
  xs.Pairwise fun x y => ∀ p q, x.position = some p → y.position = some q → p ≤ q

structure Rising (top : LSN) (l : Lane LSN V) : Prop where
  beats : ∀ x ∈ line l, ∃ p, x = .heartbeat (some p) ∧ top ≤ p
  offered : ∀ x ∈ line l, x ∈ l.offered
  rises : Rises (line l)
  work : l.work = .ready ∨ ∃ pos, l.work = .confirming pos
  nonnil : l.confirmed ≠ some none
  highest : ∀ p, l.confirmed = some (some p) → p = top
  log : ∀ e call, .change e call ∉ l.log

section

variable {top : LSN} {l l' : Lane LSN V}

lemma Rising.of_sublist (h : Rising top l) (hline : (line l').Sublist (line l))
    (hoff : l'.offered = l.offered) (hwork : l'.work = .ready ∨ ∃ pos, l'.work = .confirming pos)
    (hconf : l'.confirmed = l.confirmed) (hlog : l'.log = l.log) : Rising top l' where
  beats x hx := h.beats x (hline.subset hx)
  offered x hx := hoff ▸ h.offered x (hline.subset hx)
  rises := h.rises.sublist hline
  work := hwork
  nonnil := hconf ▸ h.nonnil
  highest := hconf ▸ h.highest
  log := hlog ▸ h.log

lemma Rising.of_queue (h : Rising top l) {q : List (Item LSN V)} (hq : q.Sublist l.queue) :
    Rising top { l with queue := q } :=
  h.of_sublist ((List.Sublist.refl _).append hq) rfl h.work rfl rfl

lemma Rising.accept (h : Rising top l) {b : LSN} (htop : top ≤ b)
    (hbd : ∀ x ∈ l.offered, ∀ p, x.position = some p → p ≤ b) :
    Rising top { l with
      queue := l.queue ++ [.heartbeat (some b)]
      offered := l.offered ++ [.heartbeat (some b)] } := by
  have hline : line { l with
      queue := l.queue ++ [.heartbeat (some b)]
      offered := l.offered ++ [.heartbeat (some b)] } = line l ++ [.heartbeat (some b)] := by
    simp [line]
  refine ⟨?_, ?_, ?_, h.work, h.nonnil, h.highest, h.log⟩
  · rw [hline]
    intro x hx
    rcases mem_append.mp hx with hx | hx
    · exact h.beats x hx
    · exact ⟨b, mem_singleton.mp hx, htop⟩
  · rw [hline]
    intro x hx
    rcases mem_append.mp hx with hx | hx
    · exact mem_append_left _ (h.offered x hx)
    · exact mem_append_right _ hx
  · rw [hline]
    refine pairwise_append.mpr ⟨h.rises, pairwise_singleton _ _, ?_⟩
    intro x hx y hy p q hp hq
    obtain rfl := mem_singleton.mp hy
    obtain rfl : b = q := some.inj hq
    exact hbd x (h.offered x hx) p hp

lemma Rising.confirm (h : Rising top l) {pos : Option LSN} (hwork : l.work = .confirming pos) :
    ∃ b, pos = some b ∧ top ≤ b ∧ Rising b { l with work := .ready, confirmed := some pos } := by
  have hline : line l = .heartbeat pos :: l.queue := by simp [line, hwork, beatsOf]
  obtain ⟨b, hb, htop⟩ := h.beats _ (hline ▸ mem_cons_self)
  obtain rfl := Item.heartbeat.inj hb
  have hrises := h.rises
  rw [hline] at hrises
  refine ⟨b, rfl, htop, ?_, ?_, ?_, .inl rfl, nofun, ?_, h.log⟩
  · intro x hx
    have hx : x ∈ l.queue := hx
    obtain ⟨p, rfl, -⟩ := h.beats x (hline ▸ mem_cons_of_mem _ hx)
    exact ⟨p, rfl, rel_of_pairwise_cons hrises hx b p rfl rfl⟩
  · intro x hx
    have hx : x ∈ l.queue := hx
    exact h.offered x (hline ▸ mem_cons_of_mem _ hx)
  · exact (pairwise_cons.mp hrises).2
  · intro p hp
    exact (some.inj (some.inj hp)).symm

lemma Rising.step {p : Engine.ResolvedPipeline V} {i : ι} {a : Engine.Act ι LSN V}
    (h : Rising top l) (hstep : Lane.Step p i l a l')
    (hdlv : ∀ x, a = .deliver x → ∃ b, x = .heartbeat (some b) ∧ top ≤ b ∧
      ∀ y ∈ l.offered, ∀ q, y.position = some q → q ≤ b) :
    ∃ top', Rising top' l' ∧
      (top' = top ∨ top ≤ top' ∧ a = .consume i ∧ l.work = .confirming (some top')) := by
  have hbusy : ∀ {w : Work LSN V}, l.work = w → w ≠ .ready → ∃ pos, w = .confirming pos := by
    intro w hw hne
    rcases h.work with hready | ⟨pos, hpos⟩
    · exact absurd (hw.symm.trans hready) hne
    · exact ⟨pos, hw.symm.trans hpos⟩
  cases hstep with
  | stay => exact ⟨top, h, .inl rfl⟩
  | @accept x hfor =>
    obtain ⟨b, rfl, htop, hbd⟩ := hdlv x rfl
    exact ⟨top, h.accept htop hbd, .inl rfl⟩
  | @refuse x q hfor hph hq =>
    exact ⟨top, h.of_queue (hq ▸ sublist_append_left q [x]), .inl rfl⟩
  | @evict x q r hpol hq =>
    exact ⟨top, h.of_queue (hq ▸ (List.Sublist.refl q).append (sublist_cons_self x r)), .inl rfl⟩
  | @overflow x q hpol hq => exact ⟨top, h.of_queue (hq ▸ sublist_append_left q [x]), .inl rfl⟩
  | @discard x q hph hwork hq => exact ⟨top, h.of_queue (hq ▸ sublist_cons_self x q), .inl rfl⟩
  | @begin e q hph hwork hq =>
    -- there is no change to begin with
    obtain ⟨b, hb, -⟩ := h.beats (.change e) (by simp [line, hq])
    cases hb
  | @beat pos q hph hwork hq =>
    refine ⟨top, h.of_sublist ?_ rfl ?_ rfl rfl, .inl rfl⟩
    · rcases Work.after_cases p pos (V := V) with haft | haft <;>
        simp [line, haft, hwork, hq, beatsOf]
    · exact (Work.after_cases p pos (V := V)).symm.imp_right fun haft => ⟨pos, haft⟩
  | finish now hwork | fail hwork | settle hwork | settleDead hwork | abandon hwork =>
    obtain ⟨pos, hpos⟩ := hbusy hwork nofun
    cases hpos
  | @confirm pos hwork =>
    obtain ⟨b, rfl, htop, hrising⟩ := h.confirm hwork
    exact ⟨b, hrising, .inr ⟨htop, rfl, hwork⟩⟩
  | error | store st | reload hst =>
    exact ⟨top, h.of_sublist (List.Sublist.refl _) rfl h.work rfl rfl, .inl rfl⟩
  | @note entry hent =>
    refine ⟨top, ⟨h.beats, h.offered, h.rises, h.work, h.nonnil, h.highest, ?_⟩, .inl rfl⟩
    intro e call hmem
    rcases mem_append.mp hmem with hmem | hmem
    · exact h.log e call hmem
    · obtain rfl := mem_singleton.mp hmem
      cases hent

end

section

variable [DecidableEq ι]

/-- What the positions are good for. `confirmed` is the highest position that a pipeline has
confirmed so far. -/
structure Usable (c : Config ι LSN V) (σ : State ι V) : Prop where
  changes : ∀ e ∈ changesOf σ.engine.delivered, e.position ≠ none
  rises : Rises ((changesOf σ.engine.delivered).map Item.change)
  nonnil : ∀ i, σ.engine.tracker.positions i ≠ some none
  kept : ∀ i p, σ.engine.tracker.positions i = some (some p) → p = σ.confirmed i
  counted : ∀ pids q tr, pids.Perm c.pipelineIdxs →
    σ.engine.tracker.ackPosition c.order pids = ((some q, true), tr) →
    ∀ i, σ.engine.tracker.skipped i = false →
      ∃ p, σ.engine.tracker.positions i = some (some p) ∧ q ≤ p
  journal : ∀ i, Op.setChangePosition none ∉ (σ.engine.log i).flatMap LogEntry.ops

/-- No WAL message is about a replicated table, and a keepalive is not behind what was confirmed
or handed over. -/
def Quiet (tableSet : List String) (σ : State ι V) : Act ι V → Prop
  | .walData _ _ msg => Silent tableSet σ.relations msg
  | .keepalive serverWALEnd _ => (∀ i, σ.confirmed i ≤ max σ.currentLSN serverWALEnd) ∧
      ∀ x ∈ σ.engine.delivered, ∀ p, x.position = some p → p ≤ max σ.currentLSN serverWALEnd
  | _ => True

structure Positioned (c : Config ι LSN V) (σ : State ι V) : Prop where
  beats : ∀ x ∈ σ.engine.delivered, ∃ p, x = .heartbeat (some p)
  lanes : ∀ i, Rising (σ.confirmed i) (σ.engine.lane c i)
  events : ∀ rest, σ.receiver = .events rest ∨ σ.receiver = .inChange rest → rest = []

variable {c : Config ι LSN V} {σ σ' : State ι V} {a : Engine.Act ι LSN V} {s : Engine.State ι LSN V}

lemma confirmed_of_confirms {s' : Engine.State ι LSN V} {i : ι}
    {p : LSN} (hstep : Engine.Step c s a s') (h : confirms s i a = some p) :
    s'.tracker.positions i = some (some p) := by
  cases hstep with
  | consume j hcons =>
    simp only [confirms] at h
    split at h
    · next p' hpc =>
        split at h
        · next hj =>
            subst hj
            cases h
            cases hcons with
            | confirm hpc' =>
              obtain rfl := Engine.Consumer.confirming.inj (hpc.symm.trans hpc')
              simp [AckTracker.confirm]
            | receive hpc' | exit hpc' | beat hpc' | begin hpc' | applied _ hpc' | retry hpc'
            | again hpc' | cancelled hpc' | exhausted hpc' | escalate hpc' | isolated hpc'
            | stopped hpc' | settled _ hpc' | advance _ hpc' | ack hpc' => simp [hpc] at hpc'
        · cases h
    · cases h
  | reload hmove => cases hmove <;> cases h
  | _ => cases h

lemma Positioned.lane (h : Positioned c σ)
    (hstep : Engine.Step c σ.engine a s) (ha : ∀ x, a ≠ .deliver x) (i : ι) :
    Rising (max (σ.confirmed i) ((confirms σ.engine i a).getD 0)) (s.lane c i) := by
  obtain ⟨top, hrising, hcase⟩ := (h.lanes i).step (hstep.lane i) fun x hx => absurd hx (ha x)
  have htop : max (σ.confirmed i) ((confirms σ.engine i a).getD 0) = top := by
    cases hconf : confirms σ.engine i a with
    | some p =>
      obtain rfl := hrising.highest p (confirmed_of_confirms hstep hconf)
      exact Nat.max_eq_right (hcase.elim Eq.ge (·.1))
    | none =>
      rcases hcase with rfl | ⟨-, rfl, hwork⟩
      · exact Nat.max_eq_left (Nat.zero_le _)
      · -- a lane that confirms is a consumer that does
        cases hpc : σ.engine.consumer i <;>
          simp [Engine.State.lane, Engine.Consumer.work, hpc] at hwork
        · split at hwork <;> cases hwork
        · simp [confirms, hpc, hwork] at hconf
  exact htop ▸ hrising

lemma Positioned.engine (h : Positioned c σ)
    (hstep : Engine.Step c σ.engine a s) (ha : ∀ x, a ≠ .deliver x) :
    Positioned c (σ.advance a s) where
  beats x hx := h.beats x (hstep.delivered_eq ha ▸ hx)
  lanes := h.lane hstep ha
  events := h.events

lemma Positioned.beat (h : Positioned c σ) {b : LSN}
    (hstep : Engine.Step c σ.engine (.deliver (.heartbeat (some b))) s)
    (hconf : ∀ i, σ.confirmed i ≤ b)
    (hbd : ∀ x ∈ σ.engine.delivered, ∀ p, x.position = some p → p ≤ b) :
    (∀ x ∈ s.delivered, ∃ p, x = .heartbeat (some p)) ∧
      ∀ i, Rising (σ.confirmed i) (s.lane c i) := by
  refine ⟨?_, fun i => ?_⟩
  · cases hstep with
    | reload hmove => cases hmove
    | deliver x hidle hopen =>
      intro x hx
      rcases mem_append.mp hx with hx | hx
      · exact h.beats x hx
      · exact ⟨b, mem_singleton.mp hx⟩
  · obtain ⟨top, hrising, hcase⟩ := (h.lanes i).step (hstep.lane i) <| by
      rintro x hx
      obtain rfl := Engine.Act.deliver.inj hx
      exact ⟨b, rfl, hconf i, fun y hy => hbd y (List.mem_filter.mp hy).1⟩
    rcases hcase with rfl | ⟨-, hact, -⟩
    · exact hrising
    · cases hact

lemma Start.positioned (h : Start c σ) : Positioned c σ where
  beats := by simp [h.engine.delivered]
  lanes i := by
    rw [h.engine.lane i]
    refine ⟨nofun, nofun, .nil, .inl rfl, h.engine.tracker.nonnil i, fun p hp => ?_, nofun⟩
    have hp : σ.engine.tracker.positions i = some (some p) := hp
    simp [h.confirmed i, hp]
  events := by simp [h.receiver]

lemma Positioned.usable (h : Positioned c σ) (horder : c.order = order) : Usable c σ := by
  have hnone : changesOf σ.engine.delivered = [] := by
    refine eq_nil_iff_forall_not_mem.mpr fun e he => ?_
    obtain ⟨p, hp⟩ := h.beats _ (Engine.mem_changesOf.mp he)
    cases hp
  have hnil : ∀ i, σ.engine.tracker.positions i ≠ some none := fun i => (h.lanes i).nonnil
  refine ⟨by simp [hnone], by simp [hnone, Rises], hnil, fun i => (h.lanes i).highest, ?_, ?_⟩
  · intro pids q tr hpids hack i hcnt
    obtain ⟨q', hq, -, -, hall⟩ := AckTracker.ackPosition_advanced (fun j _ => hnil j) hack
    cases hq
    obtain ⟨p, hp, hle⟩ := hall i (hpids.mem_iff.mpr (c.complete i)) hcnt
    rw [horder] at hle
    exact ⟨p, hp, order_le.mp hle⟩
  · intro i hmem
    obtain ⟨entry, hent, hop⟩ := mem_flatMap.mp hmem
    cases entry with
    | change e call => exact (h.lanes i).log e call hent
    | truncated | baselineRow row | baselineComplete pos => simp [LogEntry.ops] at hop

variable [GoValue V] {text : String → V} {tableSet : List String} {a : Act ι V}

lemma Positioned.step (h : Positioned c σ) (hquiet : Quiet tableSet σ a)
    (hstep : Step c text tableSet σ a σ') : Positioned c σ' := by
  cases hstep with
  | engine hstep ha => exact h.engine hstep (by rintro x rfl; exact ha)
  | walData walStart length msg hpc =>
    refine ⟨h.beats, h.lanes, ?_⟩
    rw [events_of_silent text hquiet]
    rintro rest (hrest | hrest)
    · exact (Receiver.events.inj hrest).symm
    · cases hrest
  | hand hpc hstep => cases h.events _ (.inl hpc)
  | handled hpc hidle =>
    refine ⟨h.beats, h.lanes, ?_⟩
    rintro rest (hrest | hrest)
    · exact Receiver.events.inj hrest ▸ h.events _ (.inr hpc)
    · cases hrest
  | keepalive serverWALEnd replyRequested hpc hstep =>
    obtain ⟨hbeats, hlanes⟩ := h.beat hstep hquiet.1 hquiet.2
    exact ⟨hbeats, hlanes, by simp⟩
  | streamEnd hpc hstep =>
    have hengine := h.engine hstep nofun
    refine ⟨hengine.beats, fun i => ?_, h.events⟩
    simpa [State.advance, confirms] using hengine.lanes i
  | @beaten replyRequested hpc hidle =>
    refine ⟨h.beats, h.lanes, ?_⟩
    cases replyRequested <;> simp
  | _ => exact ⟨h.beats, h.lanes, by simp⟩

/-- **The positions are usable as long as nothing is streamed.** -/
theorem positions_usable_while_quiet (horder : c.order = order) {σ₀ : State ι V}
    (hstart : Start c σ₀)
    (hrun : Reach (Step c text tableSet) (Quiet tableSet) σ₀ σ) : Usable c σ :=
  (hrun.invariant (Positioned c) hstart.positioned
    fun h hok hstep => h.step hok hstep).usable horder

end

open Engine (Shop)

theorem positions_usable_while_quiet_run : ∃ σ : State Shop Text,
    Reach (Step shopConfig some shopTables) (Quiet shopTables) shopStart σ ∧
    σ.engine.consumer .orders = .sendAck 200 ∧ Usable shopConfig σ := by
  let c := shopConfig
  have h : Reach (Step c some shopTables) (Quiet shopTables) shopStart _ := .refl _
  have h := h
    |>.snoc (.early rfl)
    |>.snoc (.walData 100 36 (.relation ⟨1, "public", "accounts", ["id"]⟩) rfl)
    |>.snoc (.eventsDone rfl)
    |>.snoc (.early rfl)
    |>.snoc (.keepalive 200 false rfl (.deliver _ rfl rfl))
    |>.snoc (.engine (.dispatch (.pass rfl (by decide))) trivial)
    |>.snoc (.engine (.dispatch (.send rfl (by decide))) trivial)
    |>.snoc (.engine (.dispatch (.pass rfl (by decide))) trivial)
    |>.snoc (.engine (.dispatch (.send rfl (by decide))) trivial)
    |>.snoc (.engine (.dispatch (.done rfl)) trivial)
    |>.snoc (.engine (.consume .accounts (.receive rfl rfl)) trivial)
    |>.snoc (.engine (.consume .accounts (.beat rfl rfl)) trivial)
    |>.snoc (.engine (.consume .accounts (.confirm rfl)) trivial)
    |>.snoc (.engine (.consume .orders (.receive rfl rfl)) trivial)
    |>.snoc (.engine (.consume .orders (.beat rfl rfl)) trivial)
    |>.snoc (.engine (.consume .orders (.confirm rfl)) trivial)
    |>.snoc
      (.engine (.consume .orders (.advance (q := 200) c.pipelineIdxs rfl (.refl _) rfl)) trivial)
  exact ⟨_, h, rfl, positions_usable_while_quiet rfl shopStart_start h⟩

/-- An insert is applied and leaves `accounts` at nil, where the baseline had left it at 10. -/
theorem streamed_change_confirms_nil : ∃ σ : State Shop Text,
    Run (Step shopConfig some shopTables) shopStart σ ∧
    (changesOf σ.engine.delivered).map (·.position) = [none] ∧
    shopStart.engine.tracker.positions .accounts = some (some 10) ∧
    σ.engine.tracker.positions .accounts = some none ∧
    σ.engine.tracker.skipped .accounts = false ∧
    σ.engine.buf .accounts = [.heartbeat (some 200)] ∧
    σ.engine.consumer .orders = .sendAck 200 ∧
    Op.setChangePosition none ∈ (σ.engine.log .accounts).flatMap LogEntry.ops ∧
    ¬ Usable shopConfig σ := by
  let c := shopConfig
  have h : Run (Step c some shopTables) shopStart _ := .refl _
  have h := h
    |>.snoc (.early rfl)
    |>.snoc (.walData 100 36 (.relation ⟨1, "public", "accounts", ["id"]⟩) rfl)
    |>.snoc (.eventsDone rfl)
    |>.snoc (.early rfl)
    |>.snoc (.walData 136 14 (.insert 1 (some [.text "7"])) rfl)
    |>.snoc (.hand rfl (.deliver _ rfl rfl))
    |>.snoc (.engine (.dispatch (.pass rfl (by decide))) trivial)
    |>.snoc (.engine (.dispatch (.send rfl (by decide))) trivial)
    |>.snoc (.engine (.turnAway rfl (by decide)) trivial)
    |>.snoc (.engine (.dispatch (.done rfl)) trivial)
    |>.snoc (.handled rfl rfl)
    |>.snoc (.eventsDone rfl)
    |>.snoc (.engine (.consume .accounts (.receive rfl rfl)) trivial)
    |>.snoc (.engine (.consume .accounts (.begin rfl rfl)) trivial)
    |>.snoc (.engine (.consume .accounts (.applied 0 rfl)) trivial)
    |>.snoc (.engine (.consume .accounts (.confirm rfl)) trivial)
    |>.snoc (.early rfl)
    |>.snoc (.keepalive 200 false rfl (.deliver _ rfl rfl))
    |>.snoc (.engine (.dispatch (.pass rfl (by decide))) trivial)
    |>.snoc (.engine (.dispatch (.send rfl (by decide))) trivial)
    |>.snoc (.engine (.dispatch (.pass rfl (by decide))) trivial)
    |>.snoc (.engine (.dispatch (.send rfl (by decide))) trivial)
    |>.snoc (.engine (.dispatch (.done rfl)) trivial)
    |>.snoc (.engine (.consume .orders (.receive rfl rfl)) trivial)
    |>.snoc (.engine (.consume .orders (.beat rfl rfl)) trivial)
    |>.snoc (.engine (.consume .orders (.confirm rfl)) trivial)
    |>.snoc
      (.engine (.consume .orders (.advance (q := 200) c.pipelineIdxs rfl (.refl _) rfl)) trivial)
  refine ⟨_, h, rfl, rfl, rfl, rfl, rfl, rfl, mem_cons_self, fun husable => ?_⟩
  exact husable.nonnil .accounts rfl

end Laredo.Pg
