import Laredo.Source.PgKeys

/-!
# Keys of the targets

The keys by which the in-memory target (`target/memory/memory.go`) and the fan-out target
(`target/fanout/fanout.go`) file rows.
-/

namespace Laredo.Memory

open GoValue List

variable {V : Type} [GoValue V]

/-- The body of `buildKey` and `buildKeyFromValues`: one part is taken as it is, several are written
to a builder, with a NUL byte before each but the first. -/
def writeParts : List String → String
  | [part] => part
  | parts => parts.zipIdx.foldl (fun b (part, i) => (if i > 0 then b ++ "\x00" else b) ++ part) ""

lemma foldl_zipIdx_eq (b : String) (n : Nat) (parts : List String) :
    (parts.zipIdx (n + 1)).foldl
        (fun b (part, i) => (if i > 0 then b ++ "\x00" else b) ++ part) b =
      "\x00".intercalate (b :: parts) := by
  induction parts generalizing b n with
  | nil => simp
  | cons part parts ih =>
    rw [zipIdx_cons, foldl_cons, ih]
    simp

lemma writeParts_eq (parts : List String) : writeParts parts = "\x00".intercalate parts := by
  match parts with
  | [] => rfl
  | [part] => simp [writeParts]
  | part :: next :: rest =>
    rw [writeParts, zipIdx_cons, foldl_cons, foldl_zipIdx_eq]
    · simp
    · simp

section

variable {str : String → V} {fields : List String} {row row' : Row V}

lemma buildKey_inj (hstr : ∀ s, sprint (str s) = s)
    (hrow : ∀ f ∈ fields, ∃ s, Pg.NoNul s ∧ row.get f = str s)
    (hrow' : ∀ f ∈ fields, ∃ s, Pg.NoNul s ∧ row'.get f = str s)
    (h : buildKey fields row = buildKey fields row') : ∀ f ∈ fields, row.get f = row'.get f := by
  have hnul : ∀ {row : Row V}, (∀ f ∈ fields, ∃ s, Pg.NoNul s ∧ row.get f = str s) →
      ∀ part ∈ fields.map (fun f => sprint (row.get f)), Pg.NoNul part := by
    intro row hrow
    refine List.forall_mem_map.mpr fun f hf => ?_
    obtain ⟨s, hs, hget⟩ := hrow f hf
    rwa [hget, hstr]
  have hparts := Pg.intercalate_nul_inj (by simp) (hnul hrow) (hnul hrow') h
  intro f hf
  exact sprint_inj hstr ((hrow f hf).imp fun _ => And.right)
    ((hrow' f hf).imp fun _ => And.right) (map_inj_left.mp hparts f hf)

lemma buildKey_congr (h : ∀ f ∈ fields, row.get f = row'.get f) :
    buildKey fields row = buildKey fields row' := by
  rw [buildKey, buildKey, map_congr_left fun f hf => by rw [h f hf]]

lemma fanout_buildKey_eq {cols : List ColumnDefinition}
    (hcols : (cols.filter (·.primaryKey)).map (·.name) = fields) (hne : fields ≠ []) (row : Row V) :
    Fanout.buildKey cols row = buildKey fields row := by
  subst hcols
  simp_all [Fanout.buildKey, Fanout.keyParts, buildKey, Function.comp_def]

end

/-- **Keys of the targets** are equal just when the rows agree on every key field. -/
theorem target_keys_agree {str : String → V} (hstr : ∀ s, sprint (str s) = s)
    (fields : List String) {row row' : Row V}
    (hrow : ∀ f ∈ fields, ∃ s, Pg.NoNul s ∧ row.get f = str s)
    (hrow' : ∀ f ∈ fields, ∃ s, Pg.NoNul s ∧ row'.get f = str s) :
    (buildKey fields row = buildKey fields row' ↔ ∀ f ∈ fields, row.get f = row'.get f) ∧
    buildKey fields row = writeParts (fields.map fun f => sprint (row.get f)) ∧
    buildKeyFromValues (fields.map row.get) =
      writeParts ((fields.map row.get).map sprint) ∧
    buildKey fields row = buildKeyFromValues (fields.map row.get) ∧
    (∀ t : IndexedTarget V, t.pkCols = fields →
      (t.onInsert row).get (fields.map row.get) = some row) ∧
    (∀ t : IndexedTarget V, t.lookupFields = fields → t.lookupIndex.isSome →
      (t.onInsert row).lookup (fields.map row.get) = some row) ∧
    ∀ cols : List ColumnDefinition, (cols.filter (·.primaryKey)).map (·.name) = fields →
      fields ≠ [] →
      (Fanout.buildKey cols row = Fanout.buildKey cols row' ↔
        buildKey fields row = buildKey fields row') := by
  refine ⟨⟨buildKey_inj hstr hrow hrow', buildKey_congr⟩, ?_, ?_,
    buildKey_eq fields row, ?_, ?_, ?_⟩
  · rw [writeParts_eq, buildKey]
  · rw [writeParts_eq, buildKeyFromValues]
  · rintro t rfl
    rw [IndexedTarget.get, ← buildKey_eq, IndexedTarget.store_onInsert]
    simp [KeyedMap.put]
  · intro t hfields hsome
    obtain ⟨m, hm⟩ := Option.isSome_iff_exists.mp hsome
    simp [IndexedTarget.lookup, IndexedTarget.onInsert, IndexedTarget.addToIndexes, hm, hfields,
      ← buildKey_eq]
  · intro cols hcols hne
    rw [fanout_buildKey_eq hcols hne, fanout_buildKey_eq hcols hne]

theorem target_keys_agree_pair :
    buildKey ["a", "b"] (.ofList [("a", some "x"), ("b", some "y")]) ≠
      buildKey ["a", "b"] (.ofList [("a", some "xy"), ("b", some "")]) := by
  have hkeys := @target_keys_agree Text _ some (fun _ => rfl) ["a", "b"]
    (.ofList [("a", some "x"), ("b", some "y")]) (.ofList [("a", some "xy"), ("b", some "")])
    (forall_mem_cons.mpr ⟨⟨"x", by decide +kernel⟩,
      forall_mem_singleton.mpr ⟨"y", by decide +kernel⟩⟩)
    (forall_mem_cons.mpr ⟨⟨"xy", by decide +kernel⟩,
      forall_mem_singleton.mpr ⟨"", by decide +kernel⟩⟩)
  intro h
  exact absurd (hkeys.1.mp h) (by decide +kernel)

end Laredo.Memory
