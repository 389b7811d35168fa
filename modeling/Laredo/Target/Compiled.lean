import Laredo.Lib.Overwrite
import Laredo.Target.Memory

/-!
# Compiled

The compiled in-memory target (`CompiledTarget` in `target/memory/memory.go`): rows compiled to
domain objects, under the values of the key fields.
-/

namespace Laredo.Memory

open Overwrite Fanout Row

variable {C P V : Type}

structure CompiledEntry (C V : Type) where
  compiled : C
  row : Row V

structure CompiledTarget (C V : Type) where
  compiler : Row V → Option C
  keyFields : List String
  filter : Option (Row V → Bool)
  store : Std.ExtTreeMap String (CompiledEntry C V)

namespace CompiledTarget

def new (compiler : Row V → Option C) (keyFields : List String)
    (filter : Option (Row V → Bool)) : CompiledTarget C V :=
  ⟨compiler, keyFields, filter, ∅⟩

/-- `OnInit(table, columns)`: the key fields are looked for among the columns. -/
def onInit (t : CompiledTarget C V) (columns : List ColumnDefinition) :
    Except String (CompiledTarget C V) := do
  for f in t.keyFields do
    if !(columns.map (·.name)).contains f then
      throw ("key field " ++ f.quote ++ " not found in columns")
  return { t with store := ∅ }

def refuses (t : CompiledTarget C V) (row : Row V) : Bool :=
  match t.filter with
  | some filter => !filter row
  | none => false

section

variable [GoValue V]

def insertRow (t : CompiledTarget C V) (row : Row V) : CompiledTarget C V :=
  if t.refuses row then t
  else
    match t.compiler row with
    | none => t
    | some compiled =>
        { t with store := t.store.insert (buildKey t.keyFields row) ⟨compiled, row⟩ }

def onUpdate (t : CompiledTarget C V) (columns : Row V) (identity : Option (Row V)) :
    CompiledTarget C V :=
  let oldKey := buildKey t.keyFields (orEmpty identity)
  if t.refuses columns then
    if (t.store[oldKey]?).isSome then { t with store := t.store.erase oldKey } else t
  else
    match t.compiler columns with
    | none => t
    | some compiled =>
        let store := if (t.store[oldKey]?).isSome then t.store.erase oldKey else t.store
        { t with store := store.insert (buildKey t.keyFields columns) ⟨compiled, columns⟩ }

def onDelete (t : CompiledTarget C V) (identity : Option (Row V)) : CompiledTarget C V :=
  let key := buildKey t.keyFields (orEmpty identity)
  if (t.store[key]?).isSome then { t with store := t.store.erase key } else t

def onTruncate (t : CompiledTarget C V) : CompiledTarget C V := { t with store := ∅ }

/-- `RestoreSnapshot(entries)`: what the filter refuses or does not compile is left out. -/
def restoreSnapshot (t : CompiledTarget C V) (rows : List (Row V)) : CompiledTarget C V :=
  rows.foldl insertRow t.onTruncate

def apply (t : CompiledTarget C V) : Op P V → CompiledTarget C V
  | .onBaselineRow row | .onInsert row => t.insertRow row
  | .onBaselineComplete | .setChangePosition _ => t
  | .onUpdate row identity => t.onUpdate row identity
  | .onDelete identity => t.onDelete identity
  | .onTruncate => t.onTruncate

def overwrite (t : CompiledTarget C V) :
    Op P V → Overwrite String (CompiledEntry C V)
  | .onBaselineRow row | .onInsert row =>
      match t.refuses row, t.compiler row with
      | false, some compiled => .set (buildKey t.keyFields row) ⟨compiled, row⟩
      | _, _ => .skip
  | .onBaselineComplete | .setChangePosition _ => .skip
  | .onUpdate row identity =>
      match t.refuses row, t.compiler row with
      | true, _ => .delete (buildKey t.keyFields (orEmpty identity))
      | false, some compiled =>
          .move (buildKey t.keyFields (orEmpty identity)) (buildKey t.keyFields row)
            ⟨compiled, row⟩
      | false, none => .skip
  | .onDelete identity => .delete (buildKey t.keyFields (orEmpty identity))
  | .onTruncate => .clear

omit [GoValue V] in
lemma erase_if_held (store : Std.ExtTreeMap String (CompiledEntry C V)) (key : String) :
    (if (store[key]?).isSome then store.erase key else store) = store.erase key := by
  split
  · rfl
  · next h =>
      rw [KeyedMap.erase_eq_of_none]
      simpa using h

lemma onDelete_eq (t : CompiledTarget C V) (ident : Option (Row V)) : t.onDelete ident =
      { t with store := t.store.erase (buildKey t.keyFields (orEmpty ident)) } := by
  rw [← erase_if_held]
  unfold onDelete
  dsimp only
  split <;> rfl

lemma onUpdate_eq (t : CompiledTarget C V) (cols : Row V) (ident : Option (Row V)) :
    t.onUpdate cols ident = if t.refuses cols then t.onDelete ident
      else (t.compiler cols).elim t fun compiled =>
        { t with
          store := (t.store.erase (buildKey t.keyFields (orEmpty ident))).insert
            (buildKey t.keyFields cols) ⟨compiled, cols⟩ } := by
  unfold onUpdate
  dsimp only
  split
  · rfl
  · cases t.compiler cols with
    | none => rfl
    | some compiled => rw [erase_if_held]; rfl

lemma apply_overwrites (t : CompiledTarget C V) (op : Op P V) :
    (t.apply op).overwrite = (t.overwrite : Op P V → _) ∧
      held (t.apply op).store = (t.overwrite op).apply (held t.store) := by
  have hins : ∀ row, (t.insertRow row).overwrite = (t.overwrite : Op P V → _) ∧
      held (t.insertRow row).store =
        (t.overwrite (.onInsert row : Op P V)).apply (held t.store) := by
    intro row
    unfold insertRow
    cases href : t.refuses row with
    | true => exact ⟨rfl, by simp only [overwrite, href]; rfl⟩
    | false =>
      cases hcomp : t.compiler row with
      | none => exact ⟨rfl, by simp only [overwrite, href, hcomp]; rfl⟩
      | some compiled =>
        refine ⟨rfl, ?_⟩
        simp only [overwrite, href, hcomp]
        exact set_held _ _ _
  cases op with
  | onBaselineRow row | onInsert row => exact hins row
  | onBaselineComplete | setChangePosition position => exact ⟨rfl, skip_held _⟩
  | onDelete identity =>
    show (t.onDelete identity).overwrite = _ ∧ held (t.onDelete identity).store = _
    rw [onDelete_eq]
    exact ⟨rfl, delete_held _ _⟩
  | onTruncate => exact ⟨rfl, clear_held _⟩
  | onUpdate row identity =>
    show (t.onUpdate row identity).overwrite = _ ∧
      held (t.onUpdate row identity).store = _
    rw [onUpdate_eq]
    cases href : t.refuses row with
    | true =>
      rw [if_pos rfl, onDelete_eq]
      refine ⟨rfl, ?_⟩
      simp only [overwrite, href]
      exact delete_held _ _
    | false =>
      rw [if_neg Bool.false_ne_true]
      cases hcomp : t.compiler row with
      | none => exact ⟨rfl, by simp only [overwrite, href, hcomp]; rfl⟩
      | some compiled =>
        refine ⟨rfl, ?_⟩
        simp only [overwrite, href, hcomp]
        exact move_held _ _ _ _

end

end CompiledTarget

end Laredo.Memory
