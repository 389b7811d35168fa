import Mathlib.Data.List.Flatten

/-!
# Joined lists

Parts joined with a separator still show the pieces between the separators, and nothing of where one
part ended and the next began.
-/

namespace Laredo.Joined

open List

variable {α ι : Type} [BEq α] [LawfulBEq α] {sep : α} {l : List ι} {f g : ι → List α}

lemma splitOn_intercalate_flatMap {parts : List (List α)} (h : parts ≠ []) :
    ([sep].intercalate parts).splitOn sep = parts.flatMap (·.splitOn sep) := by
  induction parts with
  | nil => exact absurd rfl h
  | cons part parts ih =>
    cases parts with
    | nil => simp
    | cons next parts =>
      rw [intercalate_cons_cons, append_assoc, singleton_append,
        splitOn_append_cons_self, ih (by simp), ← flatMap_cons]

/-- Two families of parts are joined to the same list just when they have the same pieces. -/
lemma intercalate_eq_iff (sep : α) (h : l ≠ []) :
    [sep].intercalate (l.map f) = [sep].intercalate (l.map g) ↔
      l.flatMap (fun i => (f i).splitOn sep) = l.flatMap (fun i => (g i).splitOn sep) := by
  rw [← flatMap_map f, ← flatMap_map g, ← splitOn_intercalate_flatMap (by simpa using h),
    ← splitOn_intercalate_flatMap (by simpa using h)]
  refine ⟨fun heq => by rw [heq], fun hpieces => ?_⟩
  simpa only [intercalate_splitOn] using congrArg [sep].intercalate hpieces

/-- The pieces give the parts back once it is known how many of them are in each. -/
lemma eq_of_pieces_eq
    (hpieces : l.flatMap (fun i => (f i).splitOn sep) = l.flatMap (fun i => (g i).splitOn sep))
    (hlen : ∀ i ∈ l, ((f i).splitOn sep).length = ((g i).splitOn sep).length) :
    ∀ i ∈ l, f i = g i := by
  have hmap : l.map (fun i => (f i).splitOn sep) = l.map (fun i => (g i).splitOn sep) := by
    rw [eq_iff_flatten_eq, List.map_map, List.map_map]
    exact ⟨by simpa only [flatMap_def] using hpieces, map_congr_left hlen⟩
  intro i hi
  simpa only [intercalate_splitOn] using
    congrArg [sep].intercalate (map_inj_left.mp hmap i hi)

end Laredo.Joined
