import Mathlib.Tactic.Common

/-!
# Consecutive

Runs of consecutive integers. `Consec n l` says that `l` is `n, n + 1, n + 2, …`: no gap, no
duplicate, no reordering.
-/

def Consec (n : Int) : List Int → Prop
  | [] => True
  | x :: xs => x = n ∧ Consec (n + 1) xs

namespace Consec

open List

@[simp] lemma nil (n : Int) : Consec n [] := trivial

variable {n x : Int}

@[simp] lemma cons_iff {xs : List Int} : Consec n (x :: xs) ↔ x = n ∧ Consec (n + 1) xs := Iff.rfl

lemma append_iff {l₁ l₂ : List Int} :
    Consec n (l₁ ++ l₂) ↔ Consec n l₁ ∧ Consec (n + l₁.length) l₂ := by
  induction l₁ generalizing n with
  | nil => simp
  | cons x xs ih =>
    have hlen : n + 1 + (xs.length : Int) = n + ((x :: xs).length : Int) := by
      simp only [length_cons]
      omega
    rw [cons_append, cons_iff, cons_iff, ih, hlen, and_assoc]

variable {l : List Int}

lemma snoc (h : Consec n l) (hx : x = n + l.length) : Consec n (l ++ [x]) :=
  append_iff.mpr ⟨h, hx, trivial⟩

lemma drop (h : Consec n l) {k : Nat} (hk : k ≤ l.length) : Consec (n + k) (l.drop k) := by
  rw [← take_append_drop k l, append_iff] at h
  simpa [length_take, Nat.min_eq_left hk] using h.2

lemma mem_iff (h : Consec n l) : x ∈ l ↔ n ≤ x ∧ x < n + l.length := by
  induction l generalizing n with
  | nil => simp
  | cons y ys ih =>
    obtain ⟨rfl, hys⟩ := h
    rw [mem_cons, ih hys]
    simp only [length_cons]
    omega

lemma pairwise_lt (h : Consec n l) : l.Pairwise (· < ·) := by
  induction l generalizing n with
  | nil => exact .nil
  | cons x xs ih =>
    refine .cons (fun y hy => ?_) (ih h.2)
    have hbd := (mem_iff h.2).mp hy
    have hx := h.1
    omega

lemma mem_drop_iff {α : Type} (f : α → Int) {l : List α} {k : Nat} {x : α}
    (h : Consec n (l.map f)) (hk : k ≤ l.length) : x ∈ l.drop k ↔ x ∈ l ∧ n + k ≤ f x := by
  have hspl := take_append_drop k l
  rw [← hspl, map_append, append_iff, length_map, length_take, Nat.min_eq_left hk] at h
  constructor
  · intro hx
    have hbd := (mem_iff h.2).mp (List.mem_map_of_mem hx)
    exact ⟨mem_of_mem_drop hx, hbd.1⟩
  · intro hx
    rw [← hspl, mem_append] at hx
    refine hx.1.resolve_left fun htake => ?_
    have hbd := (mem_iff h.1).mp (List.mem_map_of_mem htake)
    rw [length_map, length_take, Nat.min_eq_left hk] at hbd
    omega

lemma getElem?_eq (h : Consec n l) {i : Nat} (hx : l[i]? = some x) : x = n + i := by
  induction l generalizing n i with
  | nil => simp at hx
  | cons y l ih =>
    cases i with
    | zero =>
      obtain rfl : y = x := by simpa using hx
      simpa using h.1
    | succ i =>
      have hrest := ih h.2 (by simpa using hx)
      rw [hrest]
      push_cast
      omega

lemma getLast_getD (h : Consec n l) : l.getLast?.getD (n - 1) = n - 1 + l.length := by
  induction l generalizing n with
  | nil => simp
  | cons x xs ih =>
    obtain ⟨rfl, hxs⟩ := h
    have hlast := ih hxs
    rw [Int.add_sub_cancel] at hlast
    rw [getLast?_cons, Option.getD_some, hlast, length_cons]
    omega

lemma filter_gt_eq_self {a : Int} (h : Consec n l) (ha : a < n) :
    l.filter (fun x => decide (a < x)) = l := by
  rw [filter_eq_self]
  intro x hx
  have := (mem_iff h).mp hx
  exact decide_eq_true (by omega)

lemma filter_gt {a : Int} (h : Consec n l) (hfront : n ≤ a + 1) :
    Consec (a + 1) (l.filter (fun x => decide (a < x))) := by
  induction l generalizing n with
  | nil => trivial
  | cons x xs ih =>
    obtain ⟨rfl, hxs⟩ := h
    by_cases hx : a < x
    · -- the cursor sits right before the head: nothing is dropped any more
      have ha : x = a + 1 := by omega
      rw [filter_cons_of_pos (by simpa using hx), filter_gt_eq_self hxs (by omega), cons_iff]
      exact ⟨ha, ha ▸ hxs⟩
    · rw [filter_cons_of_neg (by simpa using hx)]
      exact ih hxs (by omega)

lemma filter_gt_drop {α : Type} (f : α → Int) {a : Int} {l : List α} {k : Nat}
    (h : Consec n (l.map f)) (hk : n + k ≤ a + 1) :
    (l.drop k).filter (fun x => decide (a < f x)) = l.filter (fun x => decide (a < f x)) := by
  induction k generalizing n l with
  | zero => rfl
  | succ k ih =>
    cases l with
    | nil => rfl
    | cons x xs =>
      obtain ⟨hx, hxs⟩ := h
      have hmiss : ¬ a < f x := by omega
      rw [drop_succ_cons, filter_cons_of_neg (by simpa using hmiss)]
      exact ih hxs (by omega)

end Consec
