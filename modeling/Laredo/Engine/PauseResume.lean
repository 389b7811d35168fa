import Laredo.Engine.AckSafety

/-!
# Pause resume

`Pause` and `Resume` beside a running stream. A change for a PAUSED pipeline is turned away or
discarded.
-/

namespace Laredo.Engine

open Transition Shop

variable {ι P V : Type} [DecidableEq ι]

namespace State

variable (c : Config ι P V) (s : State ι P V) (i : ι)

def AppliedUpTo (q : P) : Prop :=
  ∀ e ∈ s.handed c i, ∀ p, e.position = some p → c.order.Le p q → e ∈ appliedChanges (s.log i)

end State

def PausesAtRest (c : Config ι P V) (s : State ι P V) : Act ι P V → Prop
  | .deliver (.change e) => ∀ i, (c.pipeline i).table = e.table → s.pstate i ≠ .paused
  | .store i .paused => s.pstate i = .streaming ∧ s.waiting c i = []
  | .store i .streaming => s.pstate i = .paused
  | .store _ _ => False
  | .reload | .snapshot _ _ => False
  | _ => True

variable {c : Config ι P V} {s : State ι P V}

lemma PausesAtRest.careful {a : Act ι P V} (h : PausesAtRest c s a) : Careful c s a := by
  intro i
  cases a with
  | deliver x =>
    cases x with
    | change e => exact fun htab => h i htab
    | heartbeat pos => trivial
  | store j st =>
    rintro rfl
    cases st with
    | paused => exact .inl ⟨rfl, h⟩
    | streaming => exact .inr ⟨rfl, h⟩
    | _ => exact h.elim
  | reload | snapshot => exact h.elim
  | _ => trivial

/-- **A pause at rest loses nothing**: what was handed over for a pipeline is behind its target or
on its way, and no confirmation or acknowledgement passes over a change that is not applied. -/
theorem pause_at_rest_loses_nothing (hblock : ∀ i, (c.pipeline i).bufferPolicy = .block)
    {s₀ : State ι P V} (hstart : Start c s₀)
    (hrun : Reach (Step c) (PausesAtRest c) s₀ s) :
    (∀ i, s.pstate i = .streaming ∨ s.pstate i = .paused →
      s.handed c i = appliedChanges (s.log i) ++ s.underway c i) ∧
    (Increasing c.order s.delivered →
      (∀ i q, s.consumer i = .confirming (some q) → s.AppliedUpTo c i q) ∧
      ∀ q, s.Acks q → ∀ i, s.tracker.skipped i = false → s.AppliedUpTo c i q) := by
  have hsafe := hstart.safe_of_reach hblock (hrun.mono fun _ _ => PausesAtRest.careful)
  refine ⟨fun i hlive => ?_, fun hinc => ⟨fun i q hpc => ?_, fun q hack i hi => ?_⟩⟩
  · have hbalance := (hsafe.conserves i).balance hlive
    rwa [List.append_assoc] at hbalance
  · have hwork : (s.lane c i).work = .confirming (some q) := by
      simp [State.lane, hpc, Consumer.work]
    obtain ⟨q', hq', hdone⟩ := (hsafe.covered hinc i).confirming _ hwork
    cases hq'
    exact hdone.applied
  · exact ((hsafe.backed hinc).acks q hack i hi).applied

theorem pause_at_rest_loses_nothing_run : ∃ s : State Shop Int Text,
    Reach (Step config) (PausesAtRest config) Shop.start s ∧
    appliedChanges (s.log .accounts) = [Shop.insert .accounts 11 "7"] ∧
    s.underway config .accounts = [Shop.insert .accounts 13 "8"] ∧
    s.handed config .accounts =
      [Shop.insert .accounts 11 "7", Shop.insert .accounts 13 "8"] := by
  let c := config
  have h : Reach (Step c) (PausesAtRest c) Shop.start _ := .refl _
  have h := h
    |>.snoc (.deliver (.change (Shop.insert .accounts 11 "7")) rfl rfl)
    |>.snoc (.dispatch (.pass rfl (by decide)))
    |>.snoc (.dispatch (.send rfl (by decide)))
    |>.snoc (.turnAway rfl (by decide))
    |>.snoc (.dispatch (.done rfl))
    |>.snoc (.consume .accounts (.receive rfl rfl))
    |>.snoc (.consume .accounts (.begin rfl rfl))
  -- the pause finds the change in the consumer's hands
  have h := h
    |>.snoc .pauseSource
    |>.snoc (.pauseCheck .accounts rfl)
    |>.snoc (.store .accounts .paused (by decide))
    |>.snoc (.consume .accounts (.applied 0 rfl))
    |>.snoc .resumeSource
    |>.snoc (.resumeCheck .accounts rfl)
    |>.snoc (.store .accounts .streaming (by decide))
    |>.snoc (.deliver (.change (Shop.insert .accounts 13 "8")) rfl rfl)
  refine ⟨_, h, rfl, rfl, ?_⟩
  exact (pause_at_rest_loses_nothing (fun _ => rfl) start_start h).1 .accounts (.inl rfl)

/-- A change that arrives while its pipeline is PAUSED is turned away at the gate. -/
theorem paused_change_is_lost : ∃ s : State Shop Int Text,
    Reach (Step config) (fun _ a => a ≠ .reload) Shop.start s ∧
    Increasing Shop.config.order s.delivered ∧
    (∀ i, s.pstate i = .streaming) ∧ s.dispatcher = .idle ∧
    s.handed config .accounts = [Shop.insert .accounts 11 "7"] ∧
    appliedChanges (s.log .accounts) = [] ∧ s.underway config .accounts = [] ∧
    s.Acks 12 ∧ s.tracker.skipped .accounts = false := by
  let c := config
  have h : Reach (Step c) (fun _ a => a ≠ .reload) Shop.start _ := .refl _
  have h := h
    |>.snoc .pauseSource
    |>.snoc (.pauseCheck .accounts rfl)
    |>.snoc (.store .accounts .paused (by decide))
  -- the insert meets the closed gate
  have h := h
    |>.snoc (.deliver (.change (Shop.insert .accounts 11 "7")) rfl rfl)
    |>.snoc (.turnAway rfl (by decide))
    |>.snoc (.turnAway rfl (by decide))
    |>.snoc (.dispatch (.done rfl))
    |>.snoc .resumeSource
    |>.snoc (.resumeCheck .accounts rfl)
    |>.snoc (.store .accounts .streaming (by decide))
  -- the heartbeat after it goes through
  have h := h
    |>.snoc (.deliver (.heartbeat (some 12)) rfl rfl)
    |>.snoc (.dispatch (.pass rfl (by decide)))
    |>.snoc (.dispatch (.send rfl (by decide)))
    |>.snoc (.dispatch (.pass rfl (by decide)))
    |>.snoc (.dispatch (.send rfl (by decide)))
    |>.snoc (.dispatch (.done rfl))
    |>.snoc (.consume .accounts (.receive rfl rfl))
    |>.snoc (.consume .accounts (.beat rfl rfl))
    |>.snoc (.consume .accounts (.confirm rfl))
    |>.snoc (.consume .accounts (.settled c.pipelineIdxs rfl (.refl _) rfl))
    |>.snoc (.consume .orders (.receive rfl rfl))
    |>.snoc (.consume .orders (.beat rfl rfl))
    |>.snoc (.consume .orders (.confirm rfl))
    |>.snoc (.consume .orders (.advance (q := 12) c.pipelineIdxs rfl (.refl _) rfl))
  refine ⟨_, h, ⟨?_, ?_⟩, ?_, rfl, rfl, rfl, rfl, .inl ⟨.orders, rfl⟩, rfl⟩
  · simp [Shop.start, State.start, Shop.insert, Item.position]
  · simp [Shop.start, State.start, Shop.insert, Item.position, Item.Precedes]
    decide
  · intro i
    cases i <;> rfl

end Laredo.Engine
