import Laredo.Engine.AckSafety

/-!
# Heartbeat

A heartbeat on its way through a session.
-/

namespace Laredo.Engine

variable {ι P V : Type}

def Dispatcher.Beats : Dispatcher ι P V → Prop
  | idle | scan (.heartbeat _) _ | send (.heartbeat _) _ _ | aborted (.heartbeat _) _ _ => True
  | _ => False

def Lane.Pending (h : P) (l : Lane P V) : Prop :=
  .heartbeat (some h) ∈ l.queue ∨ l.work = .confirming (some h)

def Act.DropsBeat (i : ι) : Act ι P V → Prop
  | .turnAway j (.heartbeat _) | .discard j (.heartbeat _) => j = i
  | _ => False

lemma Lane.Step.pending {p : ResolvedPipeline V} {i : ι} {l l' : Lane P V} {a : Act ι P V} {h : P}
    (hstep : Lane.Step p i l a l') (hdur : p.durable = true) (hkept : ¬ a.DropsBeat i)
    (hinner : a ≠ .dispatch) (hpnd : l.Pending h) :
    l'.Pending h ∨ a = .consume i ∧ l.work = .confirming (some h) := by
  have hqueue : ∀ {x : Item P V} {q : List (Item P V)} {w : Work P V}, l.work = w →
      w ≠ .confirming (some h) → l.queue = x :: q → x ≠ .heartbeat (some h) →
      .heartbeat (some h) ∈ q := by
    intro x q w hw hne hq hx
    rcases hpnd with hmem | hwork
    · rw [hq] at hmem
      exact (List.mem_cons.mp hmem).resolve_left (Ne.symm hx)
    · exact absurd (hw.symm.trans hwork) hne
  cases hstep with
  | stay | store | reload | note | error => exact .inl hpnd
  | accept hfor => exact .inl (hpnd.imp (List.mem_append_left _) id)
  | @refuse x q hfor hph heq =>
    cases x with
    | heartbeat pos => exact absurd rfl hkept
    | change e => exact .inl (hpnd.imp (fun hmem => by simpa [heq] using hmem) id)
  | evict | overflow => exact absurd rfl hinner
  | @discard x q hph hwork heq =>
    cases x with
    | heartbeat pos => exact absurd rfl hkept
    | change e => exact .inl (.inl (hqueue hwork nofun heq nofun))
  | begin hph hwork heq => exact .inl (.inl (hqueue hwork nofun heq nofun))
  | @beat pos q hph hwork heq =>
    by_cases hpos : pos = some h
    · exact .inl (.inr (by simp [Work.after, hdur, hpos]))
    · refine .inl (.inl (hqueue hwork nofun heq fun hx => hpos ?_))
      exact Item.heartbeat.inj hx
  | finish now hwork | fail hwork | abandon hwork | settle hwork | settleDead hwork hdead =>
    exact .inl (.inl (hpnd.resolve_right fun hw => by simp [hwork] at hw))
  | @confirm pos hwork =>
    rcases hpnd with hmem | hw
    · exact .inl (.inl hmem)
    · exact .inr ⟨rfl, hw⟩

section

variable [DecidableEq ι] {c : Config ι P V} {s s' : State ι P V} {a : Act ι P V}

lemma DispatchStep.beats (h : DispatchStep c s s') (hbeats : s.dispatcher.Beats) :
    s'.dispatcher.Beats ∧ ∀ i, s'.lane c i = s.lane c i := by
  refine ⟨?_, h.lane_cases.resolve_right ?_⟩
  · cases h with
    | @pass x j rest hpc | @cancelled x j rest hpc | @send x j rest hpc =>
      rw [hpc] at hbeats
      cases x with
      | heartbeat pos => trivial
      | change e => exact hbeats.elim
    | @full x j rest hpc hblocks | @overflow x j rest hpc hblocks =>
      rw [hpc] at hbeats
      cases x with
      | heartbeat pos => exact absurd trivial hblocks
      | change e => exact hbeats.elim
    | done hpc => trivial
    | evict hpc | resend hpc | goOn hpc | giveUp hpc =>
      rw [hpc] at hbeats
      exact hbeats.elim
  · rintro ⟨⟨x, j, rest, hpc⟩ | ⟨x, j, rest, hpc, hblocks⟩, -⟩ <;> rw [hpc] at hbeats
    · exact hbeats
    · cases x with
      | heartbeat pos => exact hblocks trivial
      | change e => exact hbeats

lemma Step.delivered_eq (h : Step c s a s') (ha : ∀ x, a ≠ .deliver x) :
    s'.delivered = s.delivered := by
  cases h with
  | deliver x => exact absurd rfl (ha x)
  | dispatch h | consume i h | policy t h | reload h => cases h <;> rfl
  | _ => rfl

lemma Step.beats (h : Step c s a s') (ha : ∀ x, a ≠ .deliver x) (hbeats : s.dispatcher.Beats) :
    s'.dispatcher.Beats := by
  cases h with
  | deliver x => exact absurd rfl (ha x)
  | dispatch h => exact (h.beats hbeats).1
  | @turnAway x j rest hpc hgate =>
    rw [hpc] at hbeats
    cases x with
    | heartbeat pos => trivial
    | change e => exact hbeats.elim
  | consume i h | policy t h | reload h => cases h <;> exact hbeats
  | _ => exact hbeats

lemma Step.pending (h : Step c s a s') (ha : ∀ x, a ≠ .deliver x) (hbeats : s.dispatcher.Beats)
    {i : ι} (hdur : (c.pipeline i).durable = true) (hkept : ¬ a.DropsBeat i) {pos : P}
    (hpnd : (s.lane c i).Pending pos) :
    (s'.lane c i).Pending pos ∨ a = .consume i ∧ s.consumer i = .confirming (some pos) := by
  by_cases hdisp : a = .dispatch
  · subst hdisp
    cases h with
    | dispatch h => exact .inl ((h.beats hbeats).2 i ▸ hpnd)
    | reload h => cases h
  · refine ((h.lane i).pending hdur hkept hdisp hpnd).imp_right ?_
    rintro ⟨ha, hwork⟩
    refine ⟨ha, ?_⟩
    simp only [State.lane] at hwork
    cases hpc : s.consumer i with
    | confirming pos' => simpa [hpc, Consumer.work] using hwork
    | policy e =>
      rw [hpc, Consumer.work] at hwork
      split at hwork <;> cases hwork
    | _ => simp [hpc, Consumer.work] at hwork

end

end Laredo.Engine
