import Laredo.Engine.Heartbeat
import Laredo.Source.Pg

/-!
# PostgreSQL: flush

How far the flush position that is reported to PostgreSQL may run ahead of what the pipelines have
confirmed.
-/

namespace Laredo.Pg

open Transition List
open Engine (Config AckTracker AckEffect)

variable {ι V : Type} [DecidableEq ι]

section

variable {c : Config ι LSN V} {s s' : Engine.State ι LSN V} {a : Engine.Act ι LSN V}

lemma position_of_ackEffect (h : AckEffect c s a s') {i : ι} {p : LSN}
    (hp : s'.tracker.positions i = some (some p)) :
    s.tracker.positions i = some (some p) ∨ confirms s i a = some p := by
  cases h with
  | quiet htrk hacks | skip j hmrk htrk hacks => exact .inl (by rwa [htrk] at hp)
  | confirm j pos ha hpc htrk hacks =>
    rw [htrk, AckTracker.confirm] at hp
    by_cases hj : i = j
    · subst hj
      obtain rfl : pos = some p := by simpa using hp
      exact .inr (by simp [confirms, ha, hpc])
    · exact .inl (by simpa [hj] using hp)
  | ack pids r ha hpids htrk hacks =>
    exact .inl (by rwa [(AckTracker.ackPosition_positions htrk).1] at hp)

omit [DecidableEq ι] in
lemma acks_of_acked {q : LSN} (h : acked s s' a = some q) : s.Acks q ∨ s'.Acks q := by
  cases a with
  | consume i =>
    simp only [acked] at h
    split at h
    · next q' hpc =>
        cases h
        exact .inl (.inl ⟨i, hpc⟩)
    · cases h
  | finalAck => exact .inr (.inr h)
  | _ => cases h

end

def Comparable (tr : AckTracker ι LSN) : Prop :=
  ∀ i j, tr.skipped i = false → tr.skipped j = false → tr.positions i = some none →
    ∀ p, tr.positions j ≠ some (some p)

/-- Nothing is on its way to the target of pipeline `i` or to its confirmation. -/
def AtRest (c : Config ι LSN V) (s : Engine.State ι LSN V) (i : ι) : Prop :=
  (s.lane c i).queue = [] ∧ (s.lane c i).work = .ready

/-- The receive loop sends a status only before it has a position, or when the last item it
handed over is the heartbeat at its position and every pipeline that counts is durable and
at rest; no such pipeline drops a heartbeat; and `AckPosition` finds comparable positions. -/
def FlushesAtRest (c : Config ι LSN V) (σ : State ι V) : Act ι V → Prop
  | .periodic | .reply => σ.currentLSN = 0 ∨
      σ.engine.delivered.getLast? = some (.heartbeat (some σ.currentLSN)) ∧
        ∀ i, σ.engine.tracker.skipped i = false →
          (c.pipeline i).durable = true ∧ AtRest c σ.engine i
  | .engine a => (∀ i, σ.engine.tracker.skipped i = false → ¬ a.DropsBeat i) ∧
      (a.Computes σ.engine → Comparable σ.engine.tracker)
  | _ => True

omit [DecidableEq ι] in
lemma Comparable.bounds {tr tr' : AckTracker ι LSN} (h : Comparable tr) {pids : List ι} {q : LSN}
    (hack : tr.ackPosition order pids = ((some q, true), tr')) {i : ι} (hi : i ∈ pids)
    (hcnt : tr.skipped i = false) : ∃ p, tr.positions i = some (some p) ∧ q ≤ p := by
  obtain ⟨k, -, hk, hkq⟩ := AckTracker.mem_of_ackPosition hack
  have hnil : ∀ j, tr.skipped j = false → tr.positions j ≠ some none :=
    fun j hj hnone => h j k hj hk hnone q hkq
  obtain ⟨q', hq', -, -, hall⟩ := AckTracker.ackPosition_advanced hnil hack
  cases hq'
  obtain ⟨p, hp, hle⟩ := hall i hi hcnt
  exact ⟨p, hp, order_le.mp hle⟩

/-- What has been reported or is about to be acknowledged is confirmed, and so is the last
heartbeat, unless it is still on its way. -/
structure Within (c : Config ι LSN V) (σ : State ι V) : Prop where
  recorded : ∀ i p, σ.engine.tracker.positions i = some (some p) → p ≤ σ.confirmed i
  acks : ∀ q, σ.engine.Acks q → ∀ i, σ.engine.tracker.skipped i = false → q ≤ σ.confirmed i
  reported : ∀ q ∈ σ.reported, ∀ i, σ.engine.tracker.skipped i = false → q ≤ σ.confirmed i
  beat : ∀ h, σ.engine.delivered.getLast? = some (.heartbeat (some h)) →
    σ.engine.dispatcher.Beats ∧ ∀ i, σ.engine.tracker.skipped i = false →
      (c.pipeline i).durable = true → (σ.engine.lane c i).Pending h ∨ h ≤ σ.confirmed i

variable {c : Config ι LSN V} {σ σ' : State ι V} {a : Engine.Act ι LSN V} {s : Engine.State ι LSN V}

lemma le_confirmed_of_confirms {i : ι}
    {p : LSN} (h : confirms σ.engine i a = some p) : p ≤ (σ.advance a s).confirmed i := by
  show p ≤ max (σ.confirmed i) ((confirms σ.engine i a).getD 0)
  rw [h]
  exact Nat.le_max_right _ _

lemma Within.engine (h : Within c σ) (horder : c.order = order)
    (ha : Act.Inner a) (hok : FlushesAtRest c σ (.engine a))
    (hstep : Engine.Step c σ.engine a s) : Within c (σ.advance a s) := by
  have heff := hstep.ackEffect
  have hmono : ∀ i, σ.confirmed i ≤ (σ.advance a s).confirmed i := fun i => Nat.le_max_left _ _
  have hdlv : ∀ x, a ≠ .deliver x := by
    rintro x rfl
    exact ha
  have hacks : ∀ q, s.Acks q → ∀ i, s.tracker.skipped i = false →
      q ≤ (σ.advance a s).confirmed i := by
    intro q hq i hi
    have hi' := heff.counted hi
    rcases heff.acks hq with hold | ⟨hcomp, pids, tr, hpids, hack⟩
    · exact Nat.le_trans (h.acks q hold i hi') (hmono i)
    · rw [horder] at hack
      obtain ⟨p, hp, hqp⟩ := (hok.2 hcomp).bounds hack (hpids.mem_iff.mpr (c.complete i)) hi'
      exact Nat.le_trans (Nat.le_trans hqp (h.recorded i p hp)) (hmono i)
  refine ⟨fun i p hp => ?_, hacks, fun q hq i hi => ?_, fun pos hlast => ?_⟩
  · rcases position_of_ackEffect heff hp with hold | hnew
    · exact Nat.le_trans (h.recorded i p hold) (hmono i)
    · exact le_confirmed_of_confirms hnew
  · rcases mem_append.mp hq with hq | hq
    · exact Nat.le_trans (h.reported q hq i (heff.counted hi)) (hmono i)
    · rcases acks_of_acked (Option.mem_toList.mp hq) with hold | hnew
      · exact Nat.le_trans (h.acks q hold i (heff.counted hi)) (hmono i)
      · exact hacks q hnew i hi
  · rw [State.advance, hstep.delivered_eq hdlv] at hlast
    obtain ⟨hbeats, hpnd⟩ := h.beat pos hlast
    refine ⟨hstep.beats hdlv hbeats, fun i hi hdur => ?_⟩
    have hi' := heff.counted hi
    rcases hpnd i hi' hdur with hwaits | hdone
    · refine (hstep.pending hdlv hbeats hdur (hok.1 i hi') hwaits).imp_right ?_
      rintro ⟨rfl, hpc⟩
      exact le_confirmed_of_confirms (by simp [confirms, hpc])
    · exact .inr (Nat.le_trans hdone (hmono i))

omit [DecidableEq ι] in
lemma not_pending_of_queue {l : Engine.Lane LSN V} {h : LSN} (hq : l.queue = [])
    (hwork : l.work = .ready) : ¬ l.Pending h := by
  rintro (hmem | hw)
  · simp [hq] at hmem
  · simp [hwork] at hw

lemma Within.status (h : Within c σ) (hok : FlushesAtRest c σ .periodic) :
    Within c σ.sendStandbyStatus := by
  refine ⟨h.recorded, h.acks, fun q hq i hi => ?_, h.beat⟩
  rcases mem_append.mp hq with hq | hq
  · exact h.reported q hq i hi
  · obtain rfl := mem_singleton.mp hq
    rcases hok with hzero | ⟨hlast, hrest⟩
    · rw [hzero]
      exact Nat.zero_le _
    · obtain ⟨hdur, hqueue, hwork⟩ := hrest i hi
      exact ((h.beat _ hlast).2 i hi hdur).resolve_left (not_pending_of_queue hqueue hwork)

lemma Within.deliver (h : Within c σ) {x : Engine.Item LSN V}
    (hstep : Engine.Step c σ.engine (.deliver x) s) : Within c (σ.setEngine s) := by
  cases hstep with
  | reload hmove => cases hmove
  | deliver x hidle hopen =>
    refine ⟨h.recorded, h.acks, h.reported, fun pos hlast => ?_⟩
    obtain rfl : x = .heartbeat (some pos) := by simpa using hlast
    refine ⟨trivial, fun i _ _ => .inl (.inl ?_)⟩
    have hcount := count_eq_one_of_mem c.nodup (c.complete i)
    simp [Engine.State.lane, Engine.Dispatcher.holds, Engine.Item.For, hcount]

variable [GoValue V] {text : String → V} {tableSet : List String} {a : Act ι V}

lemma Within.step (h : Within c σ) (horder : c.order = order) (hok : FlushesAtRest c σ a)
    (hstep : Step c text tableSet σ a σ') : Within c σ' := by
  cases hstep with
  | engine hstep ha => exact h.engine horder ha hok hstep
  | periodic hpc | reply hpc =>
    have hstatus := h.status hok
    exact ⟨hstatus.recorded, hstatus.acks, hstatus.reported, hstatus.beat⟩
  | hand hpc hstep | keepalive serverWALEnd replyRequested hpc hstep =>
    have hdlv := h.deliver hstep
    exact ⟨hdlv.recorded, hdlv.acks, hdlv.reported, hdlv.beat⟩
  | streamEnd hpc hstep =>
    cases hstep with
    | reload hmove => cases hmove
    | streamEnd => exact ⟨h.recorded, h.acks, h.reported, h.beat⟩
  | _ => exact ⟨h.recorded, h.acks, h.reported, h.beat⟩

omit [GoValue V] in
lemma Start.within (h : Start c σ) : Within c σ := by
  refine ⟨fun i p hp => ?_, fun q hq => ?_, fun q hq => ?_, fun pos hlast => ?_⟩
  · simp [h.confirmed, hp]
  · rcases hq with ⟨i, hi⟩ | hq
    · simp [h.engine.receive i] at hi
    · simp [h.engine.stopAck] at hq
  · simp [h.reported] at hq
  · simp [h.engine.delivered] at hlast

/-- **Flushing at rest stays within what is confirmed.** Every flush position that was
reported to the server, by the receive loop or by an acknowledgement, is at or below what
each pipeline that counts has confirmed. -/
theorem flush_within_confirmed (horder : c.order = order) {σ₀ : State ι V} (hstart : Start c σ₀)
    (hrun : Reach (Step c text tableSet) (FlushesAtRest c) σ₀ σ) :
    ∀ q ∈ σ.reported, ∀ i, σ.engine.tracker.skipped i = false → q ≤ σ.confirmed i :=
  (hrun.invariant (Within c) hstart.within fun h hok hstep => h.step horder hok hstep).reported

open Engine (Shop)

def shopConfig : Config Shop LSN Text where
  order := order
  pipelineIdxs := [.accounts, .orders]
  nodup := Shop.nodup
  complete := Shop.complete
  pipeline i := { table := i.table }

def shopTables : List String := ["public.accounts", "public.orders"]

def shopStart : State Shop Text where
  engine := .start (fun _ => .streaming)
    (AckTracker.new.confirmBaseline order shopConfig.pipelineIdxs shopConfig.pipelineIdxs 10).2
  receiver := .top
  currentLSN := 0
  relations _ := none
  reported := []
  confirmed _ := 10

lemma shopStart_start : Start shopConfig shopStart where
  engine := {
    idle := rfl
    receive := fun _ => rfl
    buf := fun _ => rfl
    ops := fun _ => rfl
    delivered := rfl
    log := fun _ => rfl
    stopAck := rfl
    notPaused := fun _ => nofun
    tracker := AckTracker.settled_confirmBaseline shopConfig.complete
      (fun i => .inl (shopConfig.complete i)) (by simp [AckTracker.new]) (by simp [AckTracker.new])
      (show AckTracker.new.confirmBaseline order _ _ 10 = (_, shopStart.engine.tracker) from rfl) }
  receiver := rfl
  currentLSN := rfl
  reported := rfl
  confirmed i := by cases i <;> rfl

theorem flush_within_confirmed_run : ∃ σ : State Shop Text,
    Reach (Step shopConfig some shopTables) (FlushesAtRest shopConfig) shopStart σ ∧
    σ.reported = [200, 200] ∧
    ∀ q ∈ σ.reported, ∀ i, σ.engine.tracker.skipped i = false → q ≤ σ.confirmed i := by
  let c := shopConfig
  -- no heartbeat is dropped on the way, and no pipeline confirms nil
  have hkeep : ∀ {σ : State Shop Text} {a : Engine.Act Shop LSN Text},
      (∀ i, ¬ a.DropsBeat i) → (∀ i, σ.engine.tracker.positions i ≠ some none) →
      FlushesAtRest c σ (.engine a) :=
    fun hkept hnil => ⟨fun i _ => hkept i, fun _ i _ _ _ hnone => absurd hnone (hnil i)⟩
  have h : Reach (Step c some shopTables) (FlushesAtRest c) shopStart _ := .refl _
  have h := h
    |>.snoc (.early rfl)
    |>.snoc (.keepalive 200 false rfl (.deliver _ rfl rfl))
    |>.snoc (.engine (.dispatch (.pass rfl (by decide))) trivial)
      (hkeep nofun (by rintro ⟨⟩ <;> nofun))
    |>.snoc (.engine (.dispatch (.send rfl (by decide))) trivial)
      (hkeep nofun (by rintro ⟨⟩ <;> nofun))
    |>.snoc (.engine (.dispatch (.pass rfl (by decide))) trivial)
      (hkeep nofun (by rintro ⟨⟩ <;> nofun))
    |>.snoc (.engine (.dispatch (.send rfl (by decide))) trivial)
      (hkeep nofun (by rintro ⟨⟩ <;> nofun))
    |>.snoc (.engine (.dispatch (.done rfl)) trivial) (hkeep nofun (by rintro ⟨⟩ <;> nofun))
    |>.snoc (.beaten rfl rfl)
    |>.snoc (.engine (.consume .accounts (.receive rfl rfl)) trivial)
      (hkeep nofun (by rintro ⟨⟩ <;> nofun))
    |>.snoc (.engine (.consume .accounts (.beat rfl rfl)) trivial)
      (hkeep nofun (by rintro ⟨⟩ <;> nofun))
    |>.snoc (.engine (.consume .accounts (.confirm rfl)) trivial)
      (hkeep nofun (by rintro ⟨⟩ <;> nofun))
    |>.snoc (.engine (.consume .accounts (.settled c.pipelineIdxs rfl (.refl _) rfl)) trivial)
      (hkeep nofun (by rintro ⟨⟩ <;> nofun))
    |>.snoc (.engine (.consume .orders (.receive rfl rfl)) trivial)
      (hkeep nofun (by rintro ⟨⟩ <;> nofun))
    |>.snoc (.engine (.consume .orders (.beat rfl rfl)) trivial)
      (hkeep nofun (by rintro ⟨⟩ <;> nofun))
    |>.snoc (.engine (.consume .orders (.confirm rfl)) trivial)
      (hkeep nofun (by rintro ⟨⟩ <;> nofun))
    |>.snoc
      (.engine (.consume .orders (.advance (q := 200) c.pipelineIdxs rfl (.refl _) rfl)) trivial)
      (hkeep nofun (by rintro ⟨⟩ <;> nofun))
    |>.snoc (.engine (.consume .orders (.ack rfl)) trivial) (hkeep nofun (by rintro ⟨⟩ <;> nofun))
    |>.snoc (.periodic rfl) (.inr ⟨rfl, fun i _ => by cases i <;> exact ⟨rfl, rfl, rfl⟩⟩)
  exact ⟨_, h, by decide +kernel, flush_within_confirmed rfl shopStart_start h⟩

/-- The loop receives an insert and sends its status while the change is in the buffer. -/
theorem status_outruns_buffer : ∃ σ : State Shop Text,
    Run (Step shopConfig some shopTables) shopStart σ ∧
    σ.reported = [150] ∧ σ.engine.tracker.skipped .accounts = false ∧ σ.confirmed .accounts = 10 ∧
    (σ.engine.buf .accounts).length = 1 := by
  let c := shopConfig
  have h : Run (Step c some shopTables) shopStart _ := .refl _
  have h := h
    |>.snoc (.early rfl)
    |>.snoc (.walData 100 36 (.relation ⟨1, "public", "accounts", ["id"]⟩) rfl)
    |>.snoc (.eventsDone rfl)
    |>.snoc (.early rfl)
    |>.snoc (.walData 136 14 (.insert 1 (some [.text "7"])) rfl)
    |>.snoc (.hand rfl (.deliver _ rfl rfl))
    |>.snoc (.engine (.dispatch (.pass rfl (by decide))) trivial)
    |>.snoc (.engine (.dispatch (.send rfl (by decide))) trivial)
    |>.snoc (.engine (.turnAway rfl (by decide)) trivial)
    |>.snoc (.engine (.dispatch (.done rfl)) trivial)
    |>.snoc (.handled rfl rfl)
    |>.snoc (.eventsDone rfl)
    |>.snoc (.periodic rfl)
  exact ⟨_, h, rfl, rfl, rfl, rfl⟩

end Laredo.Pg
