import Mathlib.Tactic.Common

/-!
# Comparator

Three-way comparison functions that return an integer: negative for *less*, zero for *equal*,
positive for *greater*.
-/

universe u

structure Comparator (P : Type u) where
  cmp : P → P → Int
  swap : ∀ a b, cmp a b < 0 ↔ 0 < cmp b a
  trans : ∀ a b c, cmp a b ≤ 0 → cmp b c ≤ 0 → cmp a c ≤ 0

namespace Comparator

open List

variable {P : Type u} (c : Comparator P)

def Le (a b : P) : Prop := c.cmp a b ≤ 0

def Lt (a b : P) : Prop := c.cmp a b < 0

instance (a b : P) : Decidable (c.Le a b) := inferInstanceAs (Decidable (_ ≤ _))

instance (a b : P) : Decidable (c.Lt a b) := inferInstanceAs (Decidable (_ < _))

variable {c} {a b d : P}

lemma not_lt : ¬ c.Lt a b ↔ c.Le b a := by
  unfold Lt Le
  have := c.swap b a
  have := c.swap a b
  omega

lemma not_le : ¬ c.Le a b ↔ c.Lt b a := by
  rw [← not_lt, not_not]

lemma Lt.le (h : c.Lt a b) : c.Le a b := by
  unfold Lt at h
  unfold Le
  omega

lemma Le.refl (c : Comparator P) (a : P) : c.Le a a := by
  have := c.swap a a
  unfold Le
  omega

lemma cmp_self (c : Comparator P) (a : P) : c.cmp a a = 0 := by
  have := c.swap a a
  omega

lemma Lt.irrefl (h : c.Lt a a) : False := not_lt.mpr (Le.refl c a) h

lemma Le.trans (hab : c.Le a b) (hbd : c.Le b d) : c.Le a d := c.trans a b d hab hbd

lemma Lt.trans_le (hab : c.Lt a b) (hbd : c.Le b d) : c.Lt a d := by
  rw [← not_le] at hab ⊢
  exact fun hda => hab (hbd.trans hda)

lemma Le.trans_lt (hab : c.Le a b) (hbd : c.Lt b d) : c.Lt a d := by
  rw [← not_le] at hbd ⊢
  exact fun hda => hbd (hda.trans hab)

lemma Lt.trans (hab : c.Lt a b) (hbd : c.Lt b d) : c.Lt a d := hab.trans_le hbd.le

lemma Lt.not_le (h : c.Lt a b) : ¬ c.Le b a := Comparator.not_le.mpr h

lemma le_getLast {l : List P} {last : P} (h : l.Pairwise c.Lt) (hlast : l.getLast? = some last)
    (ha : a ∈ l) : c.Le a last := by
  obtain ⟨front, rfl⟩ := getLast?_eq_some_iff.mp hlast
  rcases mem_append.mp ha with hfront | hlast
  · exact ((pairwise_append.mp h).2.2 a hfront last (by simp)).le
  · obtain rfl := mem_singleton.mp hlast
    exact Le.refl c a

def ofOrd (P : Type u) [Ord P] [Std.TransOrd P] : Comparator P where
  cmp a b := match compare a b with
    | .lt => -1
    | .eq => 0
    | .gt => 1
  swap a b := by
    rw [show compare b a = (compare a b).swap from Std.OrientedCmp.eq_swap]
    cases compare a b <;> decide
  trans a b d := by
    have htrans : (compare a b).isLE → (compare b d).isLE → (compare a d).isLE :=
      Std.TransCmp.isLE_trans
    revert htrans
    cases compare a b <;> cases compare b d <;> cases compare a d <;> decide

def ofInt : Comparator Int where
  cmp a b := a - b
  swap a b := by omega
  trans a b d := by omega

end Comparator
