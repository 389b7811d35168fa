import Laredo.Source.Archive

/-!
# Archive foreign

What `Stream` of the archive source does on a manifest that does not know its position.
-/

namespace Laredo.Archive

open Snapshotter List Option
open Snapshotter (Artifact Manifest Reader Destination contiguousDiffChain)

variable {B V : Type}

def Boundary (m : Manifest) (p : String) : Prop :=
  ∃ a ∈ m.artifacts, a.toPosition = p ∨ a.fromPosition = some p

/-- Diffs lead from `p` to the head, so that `Plan` needs no snapshot. -/
def Continued (m : Manifest) (p : String) (cmp : String → String → Int) : Prop :=
  ∃ fuel chain head, contiguousDiffChain fuel m.diffs p = some (chain, head, true) ∧
    cmp head m.headPosition ≥ 0

variable {m : Manifest} {f : String} {cmp : String → String → Int}

lemma Continued.boundary (h : Continued m f cmp) : Boundary m f := by
  obtain ⟨fuel, chain, head, hchain, -⟩ := h
  simp only [contiguousDiffChain, map_eq_some_iff, Prod.mk.injEq] at hchain
  obtain ⟨chain, hfollow, rfl, -, hne⟩ := hchain
  cases chain with
  | nil => cases hne
  | cons d chain =>
    obtain ⟨_, ⟨hd, -⟩, -⟩ := Links.follow_spec hfollow
    obtain ⟨l₁, l₂, hsplit, hfrom, -⟩ := getElem?_byFrom_eq_some.mp hd
    have hmem : d ∈ m.diffs := by simp [hsplit]
    exact ⟨d, List.mem_of_mem_filter hmem, .inr hfrom.2⟩

lemma Continued.plan (h : Continued m f cmp) :
    ∃ fuel plan, m.plan fuel f cmp = some (some plan) ∧ plan.snapshot = none := by
  obtain ⟨a, ha, -⟩ := h.boundary
  have hne : m.artifacts.isEmpty = false := by simpa using ne_nil_of_mem ha
  obtain ⟨fuel, chain, head, hchain, hreach⟩ := h
  exact ⟨fuel, ⟨none, chain, head⟩, by simp [Manifest.plan, hne, hchain, hreach], rfl⟩

lemma continued_of_plan {fuel : Nat} {plan : ReplayPlan}
    (h : m.plan fuel f cmp = some (some plan)) (hnone : plan.snapshot = none) :
    Continued m f cmp := by
  unfold Manifest.plan at h
  split at h
  · cases h
  · split at h
    · cases h
    · next chain head ok hchain =>
        split at h
        · next hok => exact ⟨fuel, chain, head, hok.1 ▸ hchain, hok.2⟩
        · split at h
          · cases h
          · split at h
            · cases h
            · cases h
              cases hnone

variable [GoValue V]

/-- **A foreign archive.** `Stream` goes on with nothing but `ErrReBaselineRequired` if and only if
the head is ahead of the position, `Plan` returns, and no diffs lead to the head. -/
theorem rebaselines_iff (src : Source B V) {arch : Destination B}
    (hload : Reader.loadManifest arch = .ok m) (f : String) :
    (((∃ out c, Move src arch ⟨.polling, f⟩ out c) ∧
        ∀ out c, Move src arch ⟨.polling, f⟩ out c → c.pc = .rebaseline) ↔
      src.cmp m.headPosition f > 0 ∧ (∃ fuel, (m.plan fuel f src.cmp).isSome = true) ∧
        ¬Continued m f src.cmp) ∧
    (¬Boundary m f → ¬Continued m f src.cmp) := by
  refine ⟨⟨?_, ?_⟩, fun hforeign h => hforeign h.boundary⟩
  · rintro ⟨⟨out, c, hmove⟩, hall⟩
    have hpc := hall out c hmove
    obtain ⟨-, ⟨-, -, hstay | hstay⟩ | ⟨hhead, fuel, found, hplan, -⟩⟩ :=
      hmove.polling_inv rfl hload
    · cases hpc.symm.trans hstay
    · cases hpc.symm.trans hstay
    · refine ⟨hhead, ⟨fuel, by simp [hplan]⟩, fun hcont => ?_⟩
      obtain ⟨fuel, plan, hplan, hnone⟩ := hcont.plan
      cases hall _ _ (.plan rfl hload hhead hplan hnone)
  · rintro ⟨hhead, ⟨fuel, hfuel⟩, hcont⟩
    obtain ⟨found, hplan⟩ := isSome_iff_exists.1 hfuel
    have hsnap : ∀ plan ∈ found, plan.snapshot ≠ none := by
      rintro plan rfl hnone
      exact hcont (continued_of_plan hplan hnone)
    refine ⟨⟨_, _, .rebase rfl hload hhead hplan hsnap⟩, fun out c hmove => ?_⟩
    obtain ⟨-, ⟨hnot, -⟩ | ⟨-, fuel', found', hplan', ⟨plan, rfl, hnone, -⟩ | ⟨-, rfl⟩⟩⟩ :=
      hmove.polling_inv rfl hload
    · exact absurd hhead hnot
    · exact absurd (continued_of_plan hplan' hnone) hcont
    · rfl

def headAt (p : String) : Destination (Payload Text) :=
  ⟨∅, some ⟨1, 1, p, [⟨.snapshot, 1, none, p, []⟩]⟩, 1⟩

def follower : Source (Payload Text) Text :=
  ⟨plainReader, ⟨"public", "accounts"⟩, ["id"], (Comparator.ofOrd String).cmp, true⟩

theorem rebaselines_iff_ahead :
    (∃ out c, Move follower (headAt "0/20") ⟨.polling, "0/10"⟩ out c) ∧
      ∀ out c, Move follower (headAt "0/20") ⟨.polling, "0/10"⟩ out c → c.pc = .rebaseline := by
  have hload : Reader.loadManifest (headAt "0/20") =
      .ok ⟨1, 1, "0/20", [⟨.snapshot, 1, none, "0/20", []⟩]⟩ := rfl
  have hspec := rebaselines_iff follower hload "0/10"
  refine hspec.1.2 ⟨by decide +kernel, ⟨1, by decide +kernel⟩, hspec.2 ?_⟩
  rintro ⟨a, ha, hpos⟩
  obtain rfl := mem_singleton.1 ha
  simp at hpos

/-- The archive was rolled back to 0/10. The follower at 0/20 polls it and goes on polling. -/
theorem rolled_back_archive_is_polled :
    ¬Boundary ⟨1, 1, "0/10", [⟨.snapshot, 1, none, "0/10", []⟩]⟩ "0/20" ∧
      Move follower (headAt "0/10") ⟨.polling, "0/20"⟩ .nothing ⟨.polling, "0/20"⟩ := by
  refine ⟨?_, .wait rfl rfl (by decide +kernel) rfl⟩
  rintro ⟨a, ha, hpos⟩
  obtain rfl := mem_singleton.1 ha
  simp at hpos

end Laredo.Archive
