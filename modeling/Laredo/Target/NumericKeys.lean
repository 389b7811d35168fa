import Laredo.Snapshotter.DecodedKeys
import Laredo.Target.Indexes

/-!
# Numeric keys

Integer columns as `int64`, as changes carry them, and as `float64`, as a query or a snapshot has
them.
-/

namespace Laredo.Memory

open List Option KeyedMap

open Snapshotter (decodeRow get_decodeRow formatFloat_of_small e_mem_formatFloat)

/-- The values of the columns, and the floats as `%v` prints them. -/
abbrev Cell := Snapshotter.KeyValue String

def floats (fields : List String) (row : Row Cell) : List Cell :=
  fields.map fun f => (row.get f).decode

lemma buildKey_decoded (fields : List String) (row : Row Cell) :
    buildKey fields (decodeRow row) = buildKeyFromValues (floats fields row) := by
  rw [buildKey_eq, floats, map_congr_left fun f _ => get_decodeRow row f]

lemma e_mem_key {values : List Cell} : 'e' ∈ (buildKeyFromValues values).toList ↔
    ∃ v ∈ values, 'e' ∈ (GoValue.sprint v).toList := by
  unfold buildKeyFromValues
  induction values with
  | nil => simp
  | cons v values ih =>
    cases values with
    | nil => simp
    | cons w values =>
      rw [map_cons, map_cons, String.intercalate_cons_cons, ← map_cons]
      simp only [String.toList_append, mem_append, ih, mem_cons, exists_eq_or_imp]
      simp

lemma key_decoded_iff {fields : List String} {row : Row Cell}
    (hints : ∀ f ∈ fields, ∃ n, row.get f = .int n) :
    buildKeyFromValues (floats fields row) = buildKey fields row ↔
      ∀ f ∈ fields, ∀ n, row.get f = .int n → n.natAbs < 1000000 := by
  rw [buildKey_eq]
  constructor
  · intro heq f hf n hn
    by_contra hlarge
    -- the text of a large float has an `e`, and that of an integer has not
    have he : 'e' ∈ (buildKeyFromValues (floats fields row)).toList :=
      e_mem_key.2 ⟨_, List.mem_map_of_mem hf, by
        rw [hn]
        exact e_mem_formatFloat (Nat.not_lt.1 hlarge)⟩
    rw [heq, e_mem_key] at he
    obtain ⟨v, hv, he⟩ := he
    obtain ⟨f', hf', rfl⟩ := List.mem_map.1 hv
    obtain ⟨n', hn'⟩ := hints f' hf'
    rw [hn'] at he
    rcases Snapshotter.mem_toString (n := n') he with hc | hc <;> simp at hc
  · intro hsmall
    simp only [buildKeyFromValues, floats, List.map_map]
    congr 1
    refine map_congr_left fun f hf => ?_
    obtain ⟨n, hn⟩ := hints f hf
    simp only [Function.comp_apply, hn]
    exact formatFloat_of_small (hsmall f hf n hn)

namespace IndexedTarget

variable {t : IndexedTarget Cell} {row : Row Cell} {rows : List (Row Cell)}

def KeyField (t : IndexedTarget Cell) (f : String) : Prop :=
  f ∈ t.pkCols ∨ (t.lookupIndex.isSome ∧ f ∈ t.lookupFields) ∨
    ∃ (name : String) (idx : SecondaryIndex Cell), t.indexes[name]? = some idx ∧
      f ∈ idx.definition.fields

def FoundByFloats (t : IndexedTarget Cell) (row : Row Cell) : Prop :=
  t.get (floats t.pkCols row) = some row ∧
    (t.lookupIndex.isSome → t.lookup (floats t.lookupFields row) = some row) ∧
    ∀ (name : String) (idx : SecondaryIndex Cell), t.indexes[name]? = some idx →
      row ∈ t.lookupAll name (floats idx.definition.fields row)

lemma mem_lookupAll_iff (ht : t.Mirrors) (hrow : t.Holds row)
    (hrows : Fanout.Target.Iterates rows t.store) {name : String} {idx : SecondaryIndex Cell}
    (hidx : t.indexes[name]? = some idx) (values : List Cell) : row ∈ t.lookupAll name values ↔
      buildKeyFromValues values = buildKey idx.definition.fields row := by
  simp only [lookupAll, hidx]
  cases hunique : idx.definition.unique with
  | true =>
    simpa [hrow, eq_comm] using ht.unique (.secondary hidx hunique) (buildKeyFromValues values) row
  | false =>
    have hperm := ht.lists ⟨⟨name, hidx⟩, hunique⟩ hrows (buildKeyFromValues values)
    simp [hperm.mem_iff, hrows.mem_iff_exists.2 hrow, eq_comm]

lemma foundByFloats_iff (ht : t.Mirrors) (hrow : t.Holds row)
    (hrows : Fanout.Target.Iterates rows t.store)
    (hints : ∀ f, t.KeyField f → ∃ n, row.get f = .int n) :
    t.FoundByFloats row ↔ ∀ f n, t.KeyField f → row.get f = .int n → n.natAbs < 1000000 := by
  have hget : ∀ values, t.get values = some row ↔
      buildKeyFromValues values = buildKey t.pkCols row :=
    fun values => (ht.unique .primary _ _).trans (by simp [hrow, eq_comm])
  have hlookup : t.lookupIndex.isSome → ∀ values, t.lookup values = some row ↔
      buildKeyFromValues values = buildKey t.lookupFields row := by
    intro hsome values
    obtain ⟨m, hm⟩ := isSome_iff_exists.1 hsome
    simpa [lookup, hm, hrow, eq_comm] using ht.unique (.lookup hm) (buildKeyFromValues values) row
  have hpk := key_decoded_iff fun f hf => hints f (.inl hf)
  unfold FoundByFloats
  rw [hget, hpk]
  constructor
  · rintro ⟨hall, hlook, hindexes⟩ f n (hf | ⟨hsome, hf⟩ | ⟨name, idx, hidx, hf⟩) hn
    · exact hall f hf n hn
    · have heq := (hlookup hsome _).1 (hlook hsome)
      exact (key_decoded_iff fun f hf => hints f (.inr (.inl ⟨hsome, hf⟩))).1 heq f hf n hn
    · have heq := (mem_lookupAll_iff ht hrow hrows hidx _).1 (hindexes name idx hidx)
      exact (key_decoded_iff fun f hf =>
        hints f (.inr (.inr ⟨name, idx, hidx, hf⟩))).1 heq f hf n hn
  · intro hall
    refine ⟨fun f hf n => hall f n (.inl hf), fun hsome => (hlookup hsome _).2 ?_,
      fun name idx hidx => (mem_lookupAll_iff ht hrow hrows hidx _).2 ?_⟩
    · exact (key_decoded_iff fun f hf => hints f (.inr (.inl ⟨hsome, hf⟩))).2
        fun f hf n => hall f n (.inr (.inl ⟨hsome, hf⟩))
    · exact (key_decoded_iff fun f hf => hints f (.inr (.inr ⟨name, idx, hidx, hf⟩))).2
        fun f hf n => hall f n (.inr (.inr ⟨name, idx, hidx, hf⟩))

lemma count_onUpdate (hmem : row ∈ rows)
    (hkey : buildKey t.pkCols (decodeRow row) = buildKey t.pkCols row) {new : Row Cell}
    (hnew : ∀ f ∈ t.pkCols, new.get f = row.get f) :
    ((t.restoreSnapshot (rows.map decodeRow)).onUpdate new (some new)).count =
      (t.restoreSnapshot (rows.map decodeRow)).count := by
  have hnew : buildKey t.pkCols new = buildKey t.pkCols (decodeRow row) := by
    rw [hkey, buildKey_eq, buildKey_eq, map_congr_left hnew]
  have hstored : buildKey t.pkCols new ∈ (t.restoreSnapshot (rows.map decodeRow)).store := by
    rw [restoreSnapshot_eq, hnew]
    rcases getElem?_load (buildKey t.pkCols) ∅ (rows.map decodeRow)
      (buildKey t.pkCols (decodeRow row)) with ⟨x, -, -, hx⟩ | ⟨hnone, -⟩
    · exact Std.ExtTreeMap.mem_iff_isSome_getElem?.2 (by simp [hx])
    · exact absurd rfl (hnone _ (List.mem_map_of_mem hmem))
  have hcols : (t.restoreSnapshot (rows.map decodeRow)).pkCols = t.pkCols := by
    rw [restoreSnapshot_eq]
  rw [count, (store_onUpdate _ _ _).1, hcols, Row.orEmpty, getD_some, size_put,
    if_neg (by simp), KeyedMap.size_erase hstored, count]

/-- **Integer keys as floats.** Floats find the row, and after a restore it has the key of a later
change, which then does not add a row, if and only if the integers in the columns by which rows are
found are below a million. -/
theorem numeric_keys_iff (ht : t.Mirrors) (hrow : t.Holds row)
    (hrows : Fanout.Target.Iterates rows t.store)
    (hints : ∀ f, t.KeyField f → ∃ n, row.get f = .int n) :
    let restored := t.restoreSnapshot (rows.map decodeRow)
    (t.FoundByFloats row ∧ buildKey t.pkCols (decodeRow row) = buildKey t.pkCols row ∧
      ∀ new : Row Cell, (∀ f ∈ t.pkCols, new.get f = row.get f) →
        (restored.onUpdate new (some new)).count = restored.count) ↔
    ∀ f n, t.KeyField f → row.get f = .int n → n.natAbs < 1000000 := by
  intro restored
  rw [foundByFloats_iff ht hrow hrows hints, buildKey_decoded,
    key_decoded_iff fun f hf => hints f (.inl hf)]
  refine ⟨And.left, fun hall => ⟨hall, fun f hf n => hall f n (.inl hf), fun new hnew => ?_⟩⟩
  refine count_onUpdate (hrows.mem_iff_exists.2 hrow) ?_ hnew
  rw [buildKey_decoded, key_decoded_iff fun f hf => hints f (.inl hf)]
  exact fun f hf n => hall f n (.inl hf)

def withID (v : Cell) : Row Cell := .ofList [("id", v)]

def numbered (n : Int) : IndexedTarget Cell :=
  { new [] [] with pkCols := ["id"] }.onInsert (withID (.int n))

theorem numeric_keys_iff_small : (numbered 17).FoundByFloats (withID (.int 17)) := by
  have hmirrors : (numbered 17).Mirrors := by
    refine ⟨fun hindex => ?_, fun hlist => ?_⟩
    · cases hindex with
      | primary => exact (KeyedMap.Keyed.empty.put _).files
      | lookup h => cases h
      | secondary h => simp [numbered, onInsert, addToIndexes, new] at h
    · obtain ⟨⟨name, h⟩, -⟩ := hlist
      simp [numbered, onInsert, addToIndexes, new] at h
  have hid : (withID (.int 17)).get "id" = .int 17 := rfl
  have hfields : ∀ f, (numbered 17).KeyField f → f = "id" := by
    intro f hf
    simpa [KeyField, numbered, onInsert, addToIndexes, new] using hf
  refine ((numeric_keys_iff hmirrors ⟨"17", rfl⟩ (List.Perm.refl _) fun f hf =>
    ⟨17, hfields f hf ▸ hid⟩).2 fun f n hf hn => ?_).1
  rw [hfields f hf, hid] at hn
  cases hn
  decide

/-- Row 1000000 is not found, and after a restore a change to it adds a second row. -/
theorem million_is_stored_twice :
    let restored := (numbered 1000000).restoreSnapshot [withID (.whole 1000000)]
    let row := withID (.int 1000000)
    (numbered 1000000).get [.whole 1000000] = none ∧
    (restored.onUpdate row (some row)).count = 2 := by
  decide +kernel

end IndexedTarget

end Laredo.Memory
