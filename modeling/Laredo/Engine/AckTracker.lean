import Mathlib.Logic.Function.Basic
import Laredo.Types

/-!
# Ack tracker

The tracker of confirmed positions (`internal/engine/ack.go`), for the pipelines of one source.
-/

namespace Laredo.Engine

open Comparator List Option

structure AckTracker (ι P : Type) where
  positions : ι → Option (Option P)
  skipped : ι → Bool
  lastAcked : Option P

namespace AckTracker

variable {ι P : Type} [DecidableEq ι]

def new : AckTracker ι P := ⟨fun _ => none, fun _ => false, none⟩

def confirm (tr : AckTracker ι P) (i : ι) (position : Option P) : AckTracker ι P :=
  { tr with positions := Function.update tr.positions i (some position) }

def skip (tr : AckTracker ι P) (i : ι) : AckTracker ι P :=
  { tr with skipped := Function.update tr.skipped i true }

/-- The loop of `AckPosition`: `none` when some pipeline has confirmed nothing yet,
otherwise the minimum so far. -/
def scanMin (order : PositionOrder P) (tr : AckTracker ι P) :
    List ι → Option P → Option (Option P)
  | [], minPos => some minPos
  | i :: rest, minPos =>
      if tr.skipped i then scanMin order tr rest minPos
      else
        match tr.positions i with
        | none => none
        | some pos =>
            scanMin order tr rest
              (if minPos.isNone ∨ order.comparePositions pos minPos < 0 then pos else minPos)

/-- `AckPosition(sourceID)`: the minimum, whether it advanced, and the tracker after. -/
def ackPosition (order : PositionOrder P) (pipelines : List ι) (tr : AckTracker ι P) :
    (Option P × Bool) × AckTracker ι P :=
  match scanMin order tr pipelines none with
  | none => ((none, false), tr)
  | some none => ((none, false), tr)
  | some (some minPos) =>
      if tr.lastAcked.isSome ∧ order.comparePositions (some minPos) tr.lastAcked ≤ 0 then
        ((some minPos, false), tr)
      else ((some minPos, true), { tr with lastAcked := some minPos })

section

omit [DecidableEq ι]

variable {order : PositionOrder P} {tr tr' : AckTracker ι P} {minPos r : Option P}

lemma scanMin_cons {i : ι} {rest : List ι} (h : scanMin order tr (i :: rest) minPos = some r) :
    tr.skipped i = true ∧ scanMin order tr rest minPos = some r ∨
    tr.skipped i = false ∧ ∃ pos, tr.positions i = some pos ∧ scanMin order tr rest
        (if minPos.isNone ∨ order.comparePositions pos minPos < 0 then pos else minPos) =
          some r := by
  rw [scanMin] at h
  by_cases hskip : tr.skipped i = true
  · rw [if_pos hskip] at h
    exact .inl ⟨hskip, h⟩
  · rw [if_neg hskip] at h
    cases hpos : tr.positions i with
    | none => simp [hpos] at h
    | some pos =>
      rw [hpos] at h
      exact .inr ⟨by simpa using hskip, pos, rfl, h⟩

variable {l : List ι}

lemma scanMin_eq_none (h : scanMin order tr l minPos = none) :
    ∃ i ∈ l, tr.skipped i = false ∧ tr.positions i = none := by
  induction l generalizing minPos with
  | nil => cases h
  | cons i rest ih =>
    rw [scanMin] at h
    by_cases hskip : tr.skipped i = true
    · rw [if_pos hskip] at h
      obtain ⟨k, hk, hkk⟩ := ih h
      exact ⟨k, mem_cons_of_mem _ hk, hkk⟩
    · rw [if_neg hskip] at h
      cases hpos : tr.positions i with
      | none => exact ⟨i, mem_cons_self, by simpa using hskip, hpos⟩
      | some pos =>
        rw [hpos] at h
        obtain ⟨k, hk, hkk⟩ := ih h
        exact ⟨k, mem_cons_of_mem _ hk, hkk⟩

lemma mem_of_scanMin (h : scanMin order tr l minPos = some r) :
    r = minPos ∨ ∃ i ∈ l, tr.skipped i = false ∧ tr.positions i = some r := by
  induction l generalizing minPos with
  | nil => exact .inl (some.inj h).symm
  | cons i rest ih =>
    have hlater : (∃ k ∈ rest, tr.skipped k = false ∧ tr.positions k = some r) →
        ∃ k ∈ i :: rest, tr.skipped k = false ∧ tr.positions k = some r :=
      fun ⟨k, hk, hkr⟩ => ⟨k, mem_cons_of_mem _ hk, hkr⟩
    rcases scanMin_cons h with ⟨-, hrest⟩ | ⟨hcnt, pos, hpos, hrest⟩
    · exact (ih hrest).imp_right hlater
    · rcases ih hrest with hat | hat
      · split at hat
        · exact .inr ⟨i, mem_cons_self, hcnt, hat ▸ hpos⟩
        · exact .inl hat
      · exact .inr (hlater hat)

lemma exists_kept (order : PositionOrder P) (p : P) (minPos : Option P) : ∃ m,
    (if minPos.isNone ∨ order.comparePositions (some p) minPos < 0 then some p else minPos) =
      some m ∧ order.Le m p ∧ ∀ m₀, minPos = some m₀ → order.Le m m₀ := by
  cases minPos with
  | none => exact ⟨p, by simp, Le.refl _ _, by simp⟩
  | some m₀ =>
    rw [order.comparePositions_some]
    by_cases hlt : order.Lt p m₀
    · refine ⟨p, if_pos (Or.inr hlt), Le.refl _ _, ?_⟩
      rintro _ ⟨⟩
      exact hlt.le
    · refine ⟨m₀, if_neg (not_or.mpr ⟨by simp, hlt⟩), not_lt.mp hlt, ?_⟩
      rintro _ ⟨⟩
      exact Le.refl _ _

lemma scanMin_spec (hnil : ∀ i, tr.skipped i = false → tr.positions i ≠ some none)
    (h : scanMin order tr l minPos = some r) :
    (∀ i ∈ l, tr.skipped i = false →
      ∃ p m, tr.positions i = some (some p) ∧ r = some m ∧ order.Le m p) ∧
    ∀ m₀, minPos = some m₀ → ∃ m, r = some m ∧ order.Le m m₀ := by
  induction l generalizing minPos with
  | nil =>
    obtain rfl : minPos = r := some.inj h
    exact ⟨by simp, fun m₀ hm => ⟨m₀, hm, Le.refl _ _⟩⟩
  | cons i rest ih =>
    rcases scanMin_cons h with ⟨hskip, hrest⟩ | ⟨hcnt, pos, hpos, hrest⟩
    · obtain ⟨hall, hst0⟩ := ih hrest
      refine ⟨fun k hk hkskip => ?_, hst0⟩
      rcases mem_cons.mp hk with rfl | hk
      · simp [hskip] at hkskip
      · exact hall k hk hkskip
    · cases pos with
      | none => exact absurd hpos (hnil i hcnt)
      | some p =>
        obtain ⟨hall, hst0⟩ := ih hrest
        obtain ⟨m', hm', hmp, hm₀⟩ := exists_kept order p minPos
        obtain ⟨m, hm, hmm'⟩ := hst0 m' hm'
        refine ⟨fun k hk hkskip => ?_, fun m₀ h₀ => ⟨m, hm, hmm'.trans (hm₀ m₀ h₀)⟩⟩
        rcases mem_cons.mp hk with rfl | hk
        · exact ⟨p, m, hpos, hm, hmm'.trans hmp⟩
        · exact hall k hk hkskip

variable {pipelines : List ι} {r : Option P × Bool}

lemma ackPosition_cases (h : ackPosition order pipelines tr = (r, tr')) :
    (r = (none, false) ∧ tr' = tr ∧ ∀ m, scanMin order tr pipelines none ≠ some (some m)) ∨
    ∃ m, scanMin order tr pipelines none = some (some m) ∧
      ((∃ last, tr.lastAcked = some last ∧ order.Le m last) ∧ r = (some m, false) ∧ tr' = tr ∨
       (∀ last, tr.lastAcked = some last → order.Lt last m) ∧ r = (some m, true) ∧
        tr' = { tr with lastAcked := some m }) := by
  unfold ackPosition at h
  cases hscan : scanMin order tr pipelines none with
  | none =>
    rw [hscan] at h
    cases h
    exact .inl ⟨rfl, rfl, nofun⟩
  | some found =>
    cases found with
    | none =>
      rw [hscan] at h
      cases h
      exact .inl ⟨rfl, rfl, nofun⟩
    | some m =>
      refine .inr ⟨m, rfl, ?_⟩
      rw [hscan] at h
      dsimp only at h
      split at h
      · next hlast =>
          cases h
          obtain ⟨last, hl⟩ := isSome_iff_exists.mp hlast.1
          rw [hl, order.comparePositions_some] at hlast
          exact .inl ⟨⟨last, hl, hlast.2⟩, rfl, rfl⟩
      · next hlast =>
          cases h
          refine .inr ⟨fun last hl => ?_, rfl, rfl⟩
          rw [hl, order.comparePositions_some] at hlast
          exact not_le.mp fun hle => hlast ⟨rfl, hle⟩

lemma mem_of_ackPosition {q : P} (h : ackPosition order pipelines tr = ((some q, true), tr')) :
    ∃ i ∈ pipelines, tr.skipped i = false ∧ tr.positions i = some (some q) := by
  rcases ackPosition_cases h with ⟨hr, -⟩ | ⟨m, hscan, ⟨-, hr, -⟩ | ⟨-, hr, -⟩⟩ <;> cases hr
  exact (mem_of_scanMin hscan).resolve_left nofun

lemma ackPosition_advanced {pos : Option P}
    (hnil : ∀ i, tr.skipped i = false → tr.positions i ≠ some none)
    (h : ackPosition order pipelines tr = ((pos, true), tr')) :
    ∃ q, pos = some q ∧ tr' = { tr with lastAcked := some q } ∧
      (∀ l, tr.lastAcked = some l → order.Lt l q) ∧
      (∀ i ∈ pipelines, tr.skipped i = false →
        ∃ p, tr.positions i = some (some p) ∧ order.Le q p) := by
  rcases ackPosition_cases h with ⟨hr, -⟩ | ⟨m, hscan, ⟨-, hr, -⟩ | ⟨hlast, hr, rfl⟩⟩ <;> cases hr
  refine ⟨m, rfl, rfl, hlast, fun i hi hcnt => ?_⟩
  obtain ⟨p, m', hp, hm, hle⟩ := (scanMin_spec hnil hscan).1 i hi hcnt
  obtain rfl : m = m' := some.inj hm
  exact ⟨p, hp, hle⟩

section

variable (h : tr.ackPosition order pipelines = (r, tr'))
include h

lemma ackPosition_positions : tr'.positions = tr.positions ∧ tr'.skipped = tr.skipped := by
  rcases ackPosition_cases h with ⟨-, rfl, -⟩ | ⟨m, -, ⟨-, -, rfl⟩ | ⟨-, -, rfl⟩⟩ <;>
    exact ⟨rfl, rfl⟩

lemma ackPosition_lastAcked {last : P} (hlast : tr.lastAcked = some last) :
    ∃ last', tr'.lastAcked = some last' ∧ order.Le last last' := by
  rcases ackPosition_cases h with ⟨-, rfl, -⟩ | ⟨m, -, ⟨-, -, rfl⟩ | ⟨hadv, -, rfl⟩⟩
  · exact ⟨last, hlast, Le.refl _ _⟩
  · exact ⟨last, hlast, Le.refl _ _⟩
  · exact ⟨m, rfl, (hadv last hlast).le⟩

lemma le_lastAcked_of_scanMin {m : P} (hscan : scanMin order tr pipelines none = some (some m)) :
    ∃ last, tr'.lastAcked = some last ∧ order.Le m last := by
  rcases ackPosition_cases h with ⟨-, -, hnone⟩ | ⟨m', hscan', hcas⟩
  · exact absurd hscan (hnone m)
  · obtain rfl : m = m' := by simpa [hscan] using hscan'
    rcases hcas with ⟨hold, -, rfl⟩ | ⟨-, -, rfl⟩
    · exact hold
    · exact ⟨m, rfl, Le.refl _ _⟩

end

end

/-- The tracker when a stream begins, with `dead` the pipelines out of it: what the
counted pipelines have confirmed is acknowledged already, or a dead one holds the
minimum back. -/
structure Settled (order : PositionOrder P) (dead : ι → Prop) (tr : AckTracker ι P) : Prop where
  nonnil : ∀ i, tr.positions i ≠ some none
  minimum : (∀ i, tr.skipped i = false → ∀ p, tr.positions i = some (some p) →
      ∃ last, tr.lastAcked = some last ∧ order.Le p last) ∨
    ∃ i, tr.skipped i = false ∧ dead i ∧ (tr.positions i = none ∨
      ∃ p last, tr.positions i = some (some p) ∧ tr.lastAcked = some last ∧ order.Le p last)

/-- The end of `runBaseline`: the pipelines that came through confirm the position of the
baseline, and the minimum is acknowledged. -/
def confirmBaseline (order : PositionOrder P) (pipelines : List ι) (through : List ι)
    (position : P) (tr : AckTracker ι P) : (Option P × Bool) × AckTracker ι P :=
  (through.foldl (fun tr i => tr.confirm i (some position)) tr).ackPosition order pipelines

lemma foldl_confirm (through : List ι) (pos : P) (tr : AckTracker ι P) :
    (∀ i, (through.foldl (fun tr i => tr.confirm i (some pos)) tr).positions i =
      if i ∈ through then some (some pos) else tr.positions i) ∧
    (through.foldl (fun tr i => tr.confirm i (some pos)) tr).skipped = tr.skipped ∧
    (through.foldl (fun tr i => tr.confirm i (some pos)) tr).lastAcked = tr.lastAcked := by
  induction through generalizing tr with
  | nil => simp
  | cons j rest ih =>
    obtain ⟨hpos, hskip, hlast⟩ := ih (tr.confirm j (some pos))
    refine ⟨fun i => ?_, hskip, hlast⟩
    rw [foldl_cons, hpos]
    by_cases hi : i ∈ rest
    · simp [hi]
    · by_cases hij : i = j
      · subst hij; simp [confirm, hi]
      · simp [confirm, hi, hij]

lemma settled_confirmBaseline {order : PositionOrder P} {pipelines through : List ι}
    {position : P} {tr tr' : AckTracker ι P} {r : Option P × Bool} {dead : ι → Prop}
    (hall : ∀ i, i ∈ pipelines) (hthrough : ∀ i, i ∈ through ∨ dead i)
    (hnil : ∀ i, tr.positions i ≠ some none)
    (hold : ∀ i p, tr.positions i = some (some p) → order.Le p position)
    (h : tr.confirmBaseline order pipelines through position = (r, tr')) :
    tr'.Settled order dead := by
  obtain ⟨hpos, hskip, hlast⟩ := foldl_confirm through position tr
  unfold confirmBaseline at h
  generalize through.foldl (fun tr i => tr.confirm i (some position)) tr = tr₁ at h hpos hskip hlast
  obtain ⟨hpos', hskip'⟩ := ackPosition_positions h
  have hnil₁ : ∀ i, tr₁.positions i ≠ some none := fun i => by
    rw [hpos]
    split
    · simp
    · exact hnil i
  have hle : ∀ i p, tr₁.positions i = some (some p) → order.Le p position := fun i p hp => by
    rw [hpos] at hp
    split at hp
    · cases hp; exact Le.refl _ _
    · exact hold i p hp
  refine ⟨fun i => hpos' ▸ hnil₁ i, ?_⟩
  rw [hpos', hskip']
  cases hscan : scanMin order tr₁ pipelines none with
  | none =>
    -- a pipeline that did not come through has confirmed nothing
    obtain ⟨i, -, hi, hnone⟩ := scanMin_eq_none hscan
    have hdead := (hthrough i).resolve_left fun hin => by simp [hpos, hin] at hnone
    exact .inr ⟨i, hi, hdead, .inl hnone⟩
  | some found =>
    cases found with
    | none =>
      refine .inl fun i hi p hp => ?_
      obtain ⟨-, m, -, hm, -⟩ := (scanMin_spec (fun i _ => hnil₁ i) hscan).1 i (hall i) hi
      cases hm
    | some m =>
      obtain ⟨last, hl, hml⟩ := le_lastAcked_of_scanMin h hscan
      by_cases hpm : order.Le position m
      · exact .inl fun i _ p hp => ⟨last, hl, (hle i p hp).trans (hpm.trans hml)⟩
      · -- the minimum lies before the baseline, with a pipeline that did not come through
        obtain ⟨i, -, hi, hp⟩ := (mem_of_scanMin hscan).resolve_left nofun
        have hdead := (hthrough i).resolve_left fun hin => hpm (by
          rw [hpos, if_pos hin] at hp
          cases hp
          exact Le.refl _ _)
        exact .inr ⟨i, hi, hdead, .inr ⟨m, last, hp, hl, hml⟩⟩

end AckTracker

end Laredo.Engine
