import Laredo.Lib.Joined
import Laredo.Snapshotter.Buffer

/-!
# Composite keys

Whether `RowKey` (`snapshotter/keys.go`) tells rows apart that have several key columns.
-/

namespace Laredo.Snapshotter

open KeyedMap List Buffer Change

variable {V : Type} [GoValue V]

/-- The words of a value: the pieces between the spaces of what is printed for it. -/
def words (v : V) : List (List Char) := (GoValue.sprint v).toList.splitOn ' '

lemma rowKey_eq_iff {keyFields : List String} (hlen : 2 ≤ keyFields.length) (row row' : Row V) :
    rowKey keyFields (some row) = rowKey keyFields (some row') ↔
      keyFields.flatMap (fun f => words (row.get f)) =
        keyFields.flatMap (fun f => words (row'.get f)) := by
  match keyFields, hlen with
  | f :: g :: fields, _ =>
    unfold words
    rw [← Joined.intercalate_eq_iff ' ' (by simp)]
    simp only [rowKey, Row.orEmpty, isEmpty_cons, Bool.false_eq_true, if_false,
      Option.getD_some, bracket_inj]
    rw [← String.toList_inj, String.toList_intercalate, String.toList_intercalate, List.map_map,
      List.map_map]
    rfl

lemma key_of_some (keyFields : List String) (old : Option (Row V)) (row : Row V) :
    (Change.of keyFields old (some row)).key = rowKey keyFields (some row) := by
  cases old <;> rfl

/-- **Composite keys collide** just when the key columns of two rows have the same words in the same
order, but not as many of them in each column. -/
theorem composite_keys_distinct_iff {str : String → V} (hstr : ∀ s, GoValue.sprint (str s) = s)
    {keyFields : List String} (hlen : 2 ≤ keyFields.length) {row row' : Row V}
    (hrow : ∀ f ∈ keyFields, ∃ s, row.get f = str s)
    (hrow' : ∀ f ∈ keyFields, ∃ s, row'.get f = str s) :
    ((rowKey keyFields (some row) = rowKey keyFields (some row') →
        ∀ f ∈ keyFields, row.get f = row'.get f) ∧
      ((¬ ∀ f ∈ keyFields, row.get f = row'.get f) →
        (∀ (buffer : Buffer V) (old old' : Option (Row V)),
          ((buffer.onChange keyFields old (some row)).onChange keyFields old' (some row'))[
            rowKey keyFields (some row)]? = some (Change.of keyFields old (some row))) ∧
        ∀ state : Store V, (load (fun row => rowKey keyFields (some row)) state [row, row'])[
            rowKey keyFields (some row)]? = some row)) ↔
    (keyFields.flatMap (fun f => words (row.get f)) =
      keyFields.flatMap (fun f => words (row'.get f)) →
      ∀ f ∈ keyFields, (words (row.get f)).length = (words (row'.get f)).length) := by
  constructor
  · rintro ⟨hinj, -⟩ hwords f hf
    rw [hinj ((rowKey_eq_iff hlen row row').mpr hwords) f hf]
  · intro hcount
    have hinj : rowKey keyFields (some row) = rowKey keyFields (some row') →
        ∀ f ∈ keyFields, row.get f = row'.get f := by
      intro hkey f hf
      have hwords := (rowKey_eq_iff hlen row row').mp hkey
      have hchars := Joined.eq_of_pieces_eq hwords (hcount hwords) f hf
      exact GoValue.sprint_inj hstr (hrow f hf) (hrow' f hf) (String.toList_inj.mp hchars)
    refine ⟨hinj, fun hne => ?_⟩
    have hkey : rowKey keyFields (some row') ≠ rowKey keyFields (some row) :=
      fun h => hne (hinj h.symm)
    refine ⟨fun buffer old old' => ?_, fun state => ?_⟩
    · rw [onChange_of_ne (by simp [of_truncate_iff]),
        onChange_of_ne (by simp [of_truncate_iff]), getElem?_put, getElem?_put, key_of_some,
        key_of_some, if_neg hkey, if_pos rfl]
    · rw [load_cons, load_cons, load_nil, getElem?_put, if_neg hkey, getElem?_put, if_pos rfl]

/-- The key (`x y`, `z`) against the key (`x`, `y z`). -/
theorem composite_keys_collide :
    rowKey ["a", "b"] (some (.ofList [("a", some "x y"), ("b", some "z")])) =
        rowKey ["a", "b"] (some (.ofList [("a", some "x"), ("b", some "y z")])) ∧
      (Buffer.onChange ["a", "b"]
        (Buffer.onChange ["a", "b"] ∅ none (some (.ofList [("a", some "x y"), ("b", some "z")])))
        none (some (.ofList [("a", some "x"), ("b", some "y z")]))).size = 1 := by
  decide +kernel

theorem composite_keys_distinct_iff_pair :
    rowKey ["a", "b"] (some (.ofList [("a", some "x"), ("b", some "z")])) ≠
      rowKey ["a", "b"] (some (.ofList [("a", some "x"), ("b", some "y z")])) := by
  intro hkey
  have hiff := @composite_keys_distinct_iff Text _ some (fun _ => rfl) ["a", "b"]
    (by decide) (.ofList [("a", some "x"), ("b", some "z")])
    (.ofList [("a", some "x"), ("b", some "y z")])
    (forall_mem_cons.mpr ⟨⟨"x", by decide +kernel⟩,
      forall_mem_singleton.mpr ⟨"z", by decide +kernel⟩⟩)
    (forall_mem_cons.mpr ⟨⟨"x", by decide +kernel⟩,
      forall_mem_singleton.mpr ⟨"y z", by decide +kernel⟩⟩)
  exact absurd ((hiff.mpr (by decide +kernel)).1 hkey) (by decide +kernel)

end Laredo.Snapshotter
