import Mathlib.Data.List.Sort
import Laredo.Fanout.Target

/-!
# Memory

The indexed in-memory target (`target/memory/memory.go`): the rows of a table by primary key, a
lookup index and secondary indexes over them.
-/

namespace Laredo.Memory

open KeyedMap Row

variable {P V : Type}

structure IndexDefinition where
  name : String
  fields : List String
  unique : Bool
  deriving DecidableEq

/-- The content of a secondary index; only one of the two maps is used, as `unique` says. -/
structure SecondaryIndex (V : Type) where
  definition : IndexDefinition
  unique : Store V
  nonuniq : Std.ExtTreeMap String (List (Row V))

structure IndexedTarget (V : Type) where
  lookupFields : List String
  indexDefs : List IndexDefinition
  pkCols : List String
  store : Store V
  lookupIndex : Option (Store V)
  indexes : Std.ExtTreeMap String (SecondaryIndex V)

section

variable [GoValue V]

def buildKey (fields : List String) (row : Row V) : String :=
  "\x00".intercalate (fields.map (fun f => GoValue.sprint (row.get f)))

namespace SecondaryIndex

def add (idx : SecondaryIndex V) (row : Row V) : SecondaryIndex V :=
  let key := buildKey idx.definition.fields row
  if idx.definition.unique then { idx with unique := idx.unique.insert key row }
  else { idx with nonuniq := idx.nonuniq.insert key (idx.nonuniq.getD key [] ++ [row]) }

def remove (pkCols : List String) (idx : SecondaryIndex V) (row : Row V) : SecondaryIndex V :=
  let key := buildKey idx.definition.fields row
  if idx.definition.unique then { idx with unique := idx.unique.erase key }
  else
    let rows := (idx.nonuniq.getD key []).filter
      (fun r => buildKey pkCols r != buildKey pkCols row)
    { idx with
      nonuniq := if rows.isEmpty then idx.nonuniq.erase key else idx.nonuniq.insert key rows }

def clear (idx : SecondaryIndex V) : SecondaryIndex V :=
  if idx.definition.unique then { idx with unique := ∅ } else { idx with nonuniq := ∅ }

end SecondaryIndex

namespace IndexedTarget

def new (lookupFields : List String) (indexDefs : List IndexDefinition) : IndexedTarget V where
  lookupFields := lookupFields
  indexDefs := indexDefs
  pkCols := []
  store := ∅
  lookupIndex := none
  indexes := ∅

def addToIndexes (t : IndexedTarget V) (row : Row V) : IndexedTarget V :=
  { t with
    lookupIndex := t.lookupIndex.map (·.insert (buildKey t.lookupFields row) row)
    indexes := t.indexes.map (fun _ idx => idx.add row) }

def removeFromIndexes (t : IndexedTarget V) (row : Row V) : IndexedTarget V :=
  { t with
    lookupIndex := t.lookupIndex.map (·.erase (buildKey t.lookupFields row))
    indexes := t.indexes.map (fun _ idx => idx.remove t.pkCols row) }

def validateFields (t : IndexedTarget V) (columns : List ColumnDefinition) :
    Except String Unit := do
  let known := columns.map (·.name)
  for f in t.lookupFields do
    if !known.contains f then
      throw ("lookup field " ++ f.quote ++ " not found in columns")
  for d in t.indexDefs do
    for f in d.fields do
      if !known.contains f then
        throw ("index " ++ d.name.quote ++ " field " ++ f.quote ++ " not found in columns")

def onInit (t : IndexedTarget V) (columns : List ColumnDefinition) :
    Except String (IndexedTarget V) := do
  t.validateFields columns
  return { t with
    pkCols := ((columns.filter (·.primaryKey)).insertionSort
      (fun a b => a.primaryKeyOrdinal ≤ b.primaryKeyOrdinal)).map (·.name)
    store := ∅
    lookupIndex := if t.lookupFields.isEmpty then t.lookupIndex else some ∅
    indexes := t.indexDefs.foldl (fun m d => m.insert d.name ⟨d, ∅, ∅⟩) ∅ }

def onInsert (t : IndexedTarget V) (row : Row V) : IndexedTarget V :=
  { t with store := t.store.insert (buildKey t.pkCols row) row }.addToIndexes row

/-- `OnUpdate(row, identity)`: the row found by the identity goes, whatever its key. -/
def onUpdate (t : IndexedTarget V) (row : Row V) (identity : Option (Row V)) : IndexedTarget V :=
  let oldPK := buildKey t.pkCols (orEmpty identity)
  let t' :=
    match t.store[oldPK]? with
    | some oldRow => { t.removeFromIndexes oldRow with store := t.store.erase oldPK }
    | none => t
  t'.onInsert row

def onDelete (t : IndexedTarget V) (identity : Option (Row V)) : IndexedTarget V :=
  let pkKey := buildKey t.pkCols (orEmpty identity)
  match t.store[pkKey]? with
  | some oldRow => { t.removeFromIndexes oldRow with store := t.store.erase pkKey }
  | none => t

def onTruncate (t : IndexedTarget V) : IndexedTarget V :=
  { t with
    store := ∅
    lookupIndex := t.lookupIndex.map (fun _ => ∅)
    indexes := t.indexes.map (fun _ idx => idx.clear) }

def restoreSnapshot (t : IndexedTarget V) (rows : List (Row V)) : IndexedTarget V :=
  rows.foldl onInsert t.onTruncate

def count (t : IndexedTarget V) : Nat := t.store.size

def apply (t : IndexedTarget V) : Fanout.Op P V → IndexedTarget V
  | .onBaselineRow row | .onInsert row => t.onInsert row
  | .onBaselineComplete | .setChangePosition _ => t
  | .onUpdate row identity => t.onUpdate row identity
  | .onDelete identity => t.onDelete identity
  | .onTruncate => t.onTruncate

/-! ### The rows

The indexes follow the store and never act back on it. -/

variable (t : IndexedTarget V)

@[simp] lemma store_onInsert (row : Row V) :
    (t.onInsert row).store = KeyedMap.put (buildKey t.pkCols) t.store row := rfl

@[simp] lemma pkCols_onInsert (row : Row V) :
    (t.onInsert row).pkCols = t.pkCols := rfl

lemma store_onDelete (ident : Option (Row V)) :
    (t.onDelete ident).store = t.store.erase (buildKey t.pkCols (orEmpty ident)) ∧
      (t.onDelete ident).pkCols = t.pkCols := by
  unfold onDelete
  dsimp only
  split
  · exact ⟨rfl, rfl⟩
  · next h => exact ⟨(erase_eq_of_none h).symm, rfl⟩

lemma store_onUpdate (row : Row V) (ident : Option (Row V)) :
    (t.onUpdate row ident).store = KeyedMap.put (buildKey t.pkCols)
        (t.store.erase (buildKey t.pkCols (orEmpty ident))) row ∧
      (t.onUpdate row ident).pkCols = t.pkCols := by
  unfold onUpdate
  dsimp only
  split
  · exact ⟨rfl, rfl⟩
  · next h =>
      rw [erase_eq_of_none h]
      exact ⟨rfl, rfl⟩

end IndexedTarget

end

end Laredo.Memory
