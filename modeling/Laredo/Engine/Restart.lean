import Laredo.Engine.Baseline
import Laredo.Engine.Reload

/-!
# Restart

A source that can resume, with targets that start empty.
-/

namespace Laredo.Engine

open Transition List Shop

variable {ι P V : Type} [DecidableEq ι] [GoValue V] {c : Config ι P V}

def Resumes : Life ι P V → LifeAct ι P V → Prop
  | _, .noResume | _, .reBaseline => False
  | _, _ => True

/-- Until a resumed stream ends the targets stay as empty as they started; there is no way to a
restore or to a baseline. -/
def Life.Bare (l : Life ι P V) : Prop :=
  match l.phase with
  | .init | .resume | .stream _ _ => ∀ i, (l.fleet.member i).target.rows = ∅
  | .restore | .baseline => False
  | .done => True

namespace Member

variable {m : Member P V}

omit [GoValue V] in
lemma rows_onInit (h : m.target.rows = ∅) (cols : List ColumnDefinition) (fails : Bool) :
    (m.onInit cols fails).target.rows = ∅ := by
  unfold onInit
  split
  · next target hinit =>
      split
      · exact h
      · exact SyncTarget.rows_onInit hinit h
  · exact h

omit [GoValue V] in
lemma rows_stream (m : Member P V) (st : PipelineState) :
    (m.stream st).target.rows = m.target.rows := by
  unfold stream
  split <;> rfl

end Member

lemma LifeStep.bare {l l' : Life ι P V} {act : LifeAct ι P V} (h : LifeStep c l act l')
    (hl : l.Bare) (hok : Resumes l act) : l'.Bare := by
  unfold Life.Bare at hl
  cases h with
  | init schemas fails hph =>
    rw [hph] at hl
    exact fun i => Member.rows_onInit (hl i) _ _
  | resume lastPos hph =>
    rw [hph] at hl
    exact fun i => (Member.rows_stream _ _).trans (hl i)
  | noResume | reBaseline => exact hok.elim
  | restored snapshot fails hph | notRestored snapshot fails hph
  | baselined b hph | notBaselined b hph =>
    rw [hph] at hl
    exact hl.elim
  | initFails | streamFails | streamEnds => trivial

omit [DecidableEq ι] [GoValue V] in
lemma Life.Fresh.bare {l : Life ι P V} (h : l.Fresh) : l.Bare := by
  unfold Life.Bare
  rw [h.phase]
  exact h.rows

def Life.session (l : Life ι P V) : State ι P V :=
  .start (fun i => (l.fleet.member i).state) l.fleet.tracker

omit [GoValue V] in
lemma Life.lane_session (l : Life ι P V) (i : ι) : l.session.lane c i =
      ⟨(l.fleet.member i).state, [], .ready, l.fleet.tracker.positions i, [], []⟩ := rfl

/-- **When a restart by resuming is faithful.** A source that supports resume is started with empty
targets and resumes from `a`. -/
theorem resumed_rows_iff {l₀ l : Life ι P V} (hfresh : l₀.Fresh)
    (hrun : Reach (LifeStep c) Resumes l₀ l) {a : P} {resumed : Bool}
    (hphase : l.phase = .stream a resumed) {i : ι} (hstate : (l.fleet.member i).state = .streaming)
    (hplain : (c.pipeline i).Plain) (hblock : (c.pipeline i).bufferPolicy = .block)
    (src : SourceTable P V (l.fleet.member i).target.key)
    (hcan : ∀ x ∈ src.changes, (l.fleet.member i).target.CanFollow x.2) :
    (∀ (s : State ι P V) (q : P), Reach (Step c) (fun s act => ReadsTable (src.since a) c i s act ∧
        ReloadsAtRest (src.since a) c i s act) l.session s →
      StreamsAt (src.since a) c i s q → src.order.Le a q →
      rowsOf (l.fleet.member i).target (s.log i) = src.tableAt q) ↔ src.tableAt a = ∅ := by
  have hbare : l.Bare := hrun.invariant Life.Bare hfresh.bare fun hl hok hstep => hstep.bare hl hok
  unfold Life.Bare at hbare
  rw [hphase] at hbare
  have hemp := hbare i
  constructor
  · intro hall
    -- before the first change the stream is at `a`
    have hat : StreamsAt (src.since a) c i l.session a := by
      refine ⟨hstate, nil_prefix, nofun, fun x hx => iff_of_false ?_ nofun⟩
      simpa [SourceTable.since] using (List.mem_filter.mp hx).2
    exact (hall l.session a (.refl _) hat (Comparator.Le.refl _ _)).symm.trans hemp
  · intro htab s q hrch hat haq
    have hlane := l.lane_session (c := c) i
    rw [hstate] at hlane
    have hinv : Reloading (src.since a) c i s :=
      hrch.invariant _ (.of_lane rfl hlane (hemp.trans htab.symm)) fun h hok hstep =>
        h.step hplain (fun x hx => hcan x (List.mem_of_mem_filter hx)) hblock hok.1 hok.2 hstep
    rw [hinv.rows_eq hat, SourceTable.tableAt_since haq]

def Shop.resumed (lastPos : Int) : Life Shop Int Text :=
  ⟨Shop.initialised.fleet.each fun _ m => m.stream .initializing, .stream lastPos true⟩

lemma Shop.reach_resumed (lastPos : Int) :
    Reach (LifeStep config) Resumes life (Shop.resumed lastPos) := by
  have h : Reach (LifeStep config) Resumes life _ := .refl _
  have h := h.snoc (.init (fun _ => [⟨"id", true, 1⟩]) (fun _ => false) rfl)
  exact h.snoc (.resume lastPos rfl) trivial

/-- A session of the shop in which the reload does nothing unfit for the accounts from `a` on. -/
def Shop.AtRest (a : Int) (s : State Shop Int Text) (act : Act Shop Int Text) :
    Prop :=
  ReadsTable (Shop.source.since a) config .accounts s act ∧
    ReloadsAtRest (Shop.source.since a) config .accounts s act

lemma Shop.reach_inserted (lastPos pos : Int) (id : String) : ∃ s : State Shop Int Text,
    Reach (Step config) (Shop.AtRest lastPos) (Shop.resumed lastPos).session s ∧
    s.pstate .accounts = .streaming ∧
    s.handed config .accounts = [Shop.insert .accounts pos id] ∧
    s.underway config .accounts = [] ∧
    s.log .accounts = [.change (Shop.insert .accounts pos id) (some (.insert (Shop.row id)))] := by
  let c := config
  have h : Reach (Step c) (Shop.AtRest lastPos) (Shop.resumed lastPos).session _ := .refl _
  have h := h
    |>.snoc (.deliver (.change (Shop.insert .accounts pos id)) rfl rfl)
    |>.snoc (.dispatch (.pass rfl ⟨rfl, rfl⟩))
    |>.snoc (.dispatch (.send rfl (Nat.zero_lt_succ _)))
  have hother : (c.pipeline .orders).table ≠ Shop.accounts.table := by decide
  have h := h
    |>.snoc (.turnAway rfl fun hgate => hother hgate.1)
    |>.snoc (.dispatch (.done rfl))
    |>.snoc (.consume .accounts (.receive rfl rfl))
    |>.snoc (.consume .accounts (.begin rfl rfl))
    |>.snoc (.consume .accounts (.applied 0 rfl))
  exact ⟨_, h, rfl, rfl, rfl, rfl⟩

/-- Account 7 was inserted at 11 and acknowledged by the engine before the restart, which resumes
from 12. -/
theorem resume_on_empty_targets : ∃ s : State Shop Int Text,
    Reach (LifeStep config) Resumes life (Shop.resumed 12) ∧
    ((Shop.resumed 12).fleet.member .accounts).target = Shop.target ∧
    Reach (Step config) (Shop.AtRest 12) (Shop.resumed 12).session s ∧
    StreamsAt (Shop.source.since 12) config .accounts s 13 ∧
    (Shop.source.tableAt 13)["7"]? = some (Shop.row "7") ∧
    (rowsOf Shop.target (s.log .accounts))["7"]? = none := by
  obtain ⟨s, hrch, hstrm, hhanded, hund, hlog⟩ := reach_inserted 12 13 "8"
  refine ⟨s, reach_resumed 12, rfl, hrch, ⟨hstrm, ?_, ?_, ?_⟩, ?_, ?_⟩
  · rw [hhanded]
    exact prefix_refl _
  · rw [hlog]
    nofun
  · intro x hx
    obtain rfl : x = (13, .insert (Shop.row "8")) := mem_singleton.mp hx
    rw [hhanded, hund]
    exact iff_of_true (by decide) ⟨mem_cons_self, nofun⟩
  · rfl
  · rw [hlog]
    rfl

theorem resumed_rows_iff_run : ∃ s : State Shop Int Text,
    Reach (Step config) (Shop.AtRest 10) (Shop.resumed 10).session s ∧
    rowsOf Shop.target (s.log .accounts) = Shop.source.tableAt 11 ∧
    (Shop.source.tableAt 11)["7"]? = some (Shop.row "7") := by
  obtain ⟨s, hrch, hstrm, hhanded, hund, hlog⟩ := reach_inserted 10 11 "7"
  refine ⟨s, hrch, ?_, rfl⟩
  refine (resumed_rows_iff life_fresh (reach_resumed 10) rfl rfl ⟨rfl, rfl, rfl⟩ rfl
    Shop.source source_canFollow).mpr rfl s 11 hrch ⟨hstrm, ?_, ?_, ?_⟩ (by decide)
  · rw [hhanded]
    exact prefix_append [_] [_]
  · rw [hlog]
    rintro b ⟨⟩
  · intro x hx
    rw [hhanded, hund]
    replace hx : x ∈ Shop.source.changes := (List.mem_filter.mp hx).1
    simp only [Shop.source, mem_cons, not_mem_nil, or_false] at hx
    rcases hx with rfl | rfl
    · exact iff_of_true (by decide) ⟨mem_cons_self, not_mem_nil⟩
    · refine iff_of_false (by decide) fun h => ?_
      have hevent := congrArg ChangeEvent.position (mem_singleton.mp h.1)
      simp [Shop.insert] at hevent

end Laredo.Engine
