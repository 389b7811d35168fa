import Mathlib.Data.List.Basic

/-!
# Links

Following links: every key has at most one item (`next`), and an item points to another key
(`target`).
-/

universe u v

namespace Links

open List Option

variable {K : Type u} {α : Type v} (next : K → Option α) (target : α → K)

def follow (keep : α → Bool) : Nat → K → Option (List α)
  | 0, _ => none
  | fuel + 1, k =>
      match next k with
      | none => some []
      | some a => if keep a then (follow keep fuel (target a)).map (a :: ·) else some []

def Path : K → List α → K → Prop
  | k, [], k' => k = k'
  | k, a :: l, k' => next k = some a ∧ Path (target a) l k'

variable {next target} {keep : α → Bool} {k k' : K} {l l' : List α}

lemma Path.append {k'' : K} (h : Path next target k l k')
    (h' : Path next target k' l' k'') : Path next target k (l ++ l') k'' := by
  induction l generalizing k with
  | nil =>
    obtain rfl : k = k' := h
    exact h'
  | cons a l ih => exact ⟨h.1, ih h.2⟩

lemma Path.split {k'' : K} (h : Path next target k (l ++ l') k'') :
    ∃ k', Path next target k l k' ∧ Path next target k' l' k'' := by
  induction l generalizing k with
  | nil => exact ⟨k, rfl, h⟩
  | cons a l ih =>
    obtain ⟨k', hpath, hrest⟩ := ih h.2
    exact ⟨k', ⟨h.1, hpath⟩, hrest⟩

lemma Path.mono {next' : K → Option α} (h : Path next target k l k')
    (hfnd : ∀ k, ∀ a ∈ l, next k = some a → next' k = some a) : Path next' target k l k' := by
  induction l generalizing k with
  | nil => exact h
  | cons a l ih =>
    refine ⟨hfnd k a mem_cons_self h.1, ih h.2 fun k b hb => ?_⟩
    exact hfnd k b (mem_cons_of_mem _ hb)

lemma Path.getLast_target (h : Path next target k l k') :
    (l.getLast?.map target).getD k = k' := by
  induction l generalizing k with
  | nil => exact h
  | cons a l ih =>
    have hrest := ih h.2
    cases l with
    | nil => exact h.2
    | cons b l =>
      rw [getLast?_cons_cons]
      cases hlast : (b :: l).getLast? with
      | none => simp at hlast
      | some x =>
        rw [hlast] at hrest
        exact hrest

lemma Path.exists_next (h : Path next target k l k') {a : α}
    (ha : a ∈ l) : ∃ k, next k = some a := by
  induction l generalizing k with
  | nil => cases ha
  | cons b l ih =>
    rcases mem_cons.mp ha with rfl | ha
    · exact ⟨k, h.1⟩
    · exact ih h.2 ha

lemma Path.unique_of_end {k₁ k₂ : K} {l₁ l₂ : List α} (h₁ : Path next target k l₁ k₁)
    (h₂ : Path next target k l₂ k₂) (hend₁ : next k₁ = none) (hend₂ : next k₂ = none) :
    l₁ = l₂ ∧ k₁ = k₂ := by
  induction l₁ generalizing k l₂ with
  | nil =>
    obtain rfl : k = k₁ := h₁
    cases l₂ with
    | nil => exact ⟨rfl, h₂⟩
    | cons b l₂ =>
      have hnext := h₂.1
      rw [hend₁] at hnext
      cases hnext
  | cons a l₁ ih =>
    cases l₂ with
    | nil =>
      obtain rfl : k = k₂ := h₂
      have hnext := h₁.1
      rw [hend₂] at hnext
      cases hnext
    | cons b l₂ =>
      obtain rfl : a = b := some.inj (h₁.1.symm.trans h₂.1)
      obtain ⟨rfl, hend⟩ := ih h₁.2 h₂.2
      exact ⟨rfl, hend⟩

lemma follow_of_path (h : Path next target k l k')
    (hkeep : ∀ a ∈ l, keep a = true) (hend : ∀ a, next k' = some a → keep a = false) :
    follow next target keep (l.length + 1) k = some l := by
  induction l generalizing k with
  | nil =>
    obtain rfl : k = k' := h
    unfold follow
    cases hnext : next k with
    | none => rfl
    | some a => simp [hend a hnext]
  | cons a l ih =>
    unfold follow
    rw [h.1]
    simp only [hkeep a mem_cons_self, if_true]
    rw [length_cons, ih h.2 fun b hb => hkeep b (mem_cons_of_mem _ hb)]
    rfl

variable {fuel : Nat}

lemma follow_spec (h : follow next target keep fuel k = some l) :
    ∃ k', Path next target k l k' ∧ (∀ a ∈ l, keep a = true) ∧
      ∀ a, next k' = some a → keep a = false := by
  induction fuel generalizing k l with
  | zero => cases h
  | succ fuel ih =>
    unfold follow at h
    cases hnext : next k with
    | none =>
      rw [hnext] at h
      obtain rfl := some.inj h
      refine ⟨k, rfl, nofun, ?_⟩
      intro a ha
      rw [hnext] at ha
      cases ha
    | some a =>
      rw [hnext] at h
      cases hkeep : keep a with
      | false =>
        simp only [hkeep, Bool.false_eq_true, if_false] at h
        obtain rfl := some.inj h
        refine ⟨k, rfl, nofun, ?_⟩
        intro b hb
        rw [hnext] at hb
        rwa [← some.inj hb]
      | true =>
        simp only [hkeep, if_true] at h
        obtain ⟨l', hl', rfl⟩ := map_eq_some_iff.mp h
        obtain ⟨k', hpath, hall, hend⟩ := ih hl'
        refine ⟨k', ⟨hnext, hpath⟩, ?_, hend⟩
        intro b hb
        rcases mem_cons.mp hb with rfl | hb
        · exact hkeep
        · exact hall b hb

lemma follow_succ (h : follow next target keep fuel k = some l) :
    follow next target keep (fuel + 1) k = some l := by
  induction fuel generalizing k l with
  | zero => cases h
  | succ fuel ih =>
    unfold follow at h ⊢
    cases hnext : next k with
    | none => simpa [hnext] using h
    | some a =>
      simp only [hnext] at h ⊢
      split_ifs at h ⊢ with hkeep
      · obtain ⟨l', hl', rfl⟩ := map_eq_some_iff.mp h
        rw [ih hl', map_some]
      · exact h

lemma follow_suffix
    (h : follow next target keep fuel k = some (l ++ l')) (hpath : Path next target k l k') :
    follow next target keep fuel k' = some l' := by
  induction l generalizing fuel k with
  | nil =>
    obtain rfl : k = k' := hpath
    exact h
  | cons a l ih =>
    cases fuel with
    | zero => cases h
    | succ fuel =>
      unfold follow at h
      rw [hpath.1] at h
      dsimp only at h
      split_ifs at h with hkeep
      · obtain ⟨rest, hrest, heq⟩ := map_eq_some_iff.mp h
        obtain rfl : rest = l ++ l' := (List.cons.inj heq).2
        exact follow_succ (ih hrest hpath.2)
      · cases h

lemma follow_total (rank : α → Nat) (bound : Nat)
    (hbd : ∀ {k a}, next k = some a → rank a < bound)
    (hgrows : ∀ {k a b}, next k = some a → next (target a) = some b → rank a < rank b)
    (keep : α → Bool) (k : K) : (follow next target keep (bound + 1) k).isSome = true := by
  -- from an item of rank `r` on, `bound - r` more of them are left at most
  have hfrom : ∀ fuel k, (∀ a, next k = some a → bound ≤ rank a + fuel) →
      (follow next target keep (fuel + 1) k).isSome = true := by
    intro fuel
    induction fuel with
    | zero =>
      intro k hk
      unfold follow
      cases hnext : next k with
      | none => rfl
      | some a =>
        have hlt := hbd hnext
        have hle := hk a hnext
        omega
    | succ fuel ih =>
      intro k hk
      unfold follow
      cases hnext : next k with
      | none => rfl
      | some a =>
        by_cases hkeep : keep a = true
        · simp only [hkeep, if_true, isSome_map]
          refine ih (target a) ?_
          intro b hb
          have hlt := hgrows hnext hb
          have hle := hk a hnext
          omega
        · simp [hkeep]
  exact hfrom bound k fun a _ => Nat.le_add_left bound (rank a)

lemma follow_loop {a : α} (hnext : next k = some a) (hback : target a = k)
    (hkeep : keep a = true) (fuel : Nat) : follow next target keep fuel k = none := by
  induction fuel with
  | zero => rfl
  | succ fuel ih =>
    unfold follow
    rw [hnext]
    simp only [hkeep, if_true, hback, ih, map_none]

end Links
