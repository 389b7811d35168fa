import Laredo.Lib.Comparator

/-!
# Types

The core data model (`types.go`, `pipeline.go`): tables, columns, rows, change
events and the lifecycle states of a pipeline.

Fields that no modelled function reads (timestamps of events, transaction ids,
column types) are left out.
-/

namespace Laredo

/-- What the code uses of a Go `any`: the nil value and `fmt.Sprintf("%v", ·)`. -/
class GoValue (V : Type) where
  nil : V
  sprint : V → String
  sprint_nil : sprint nil = "<nil>"

/-- Columns that hold strings or nil. -/
abbrev Text := Option String

instance : GoValue Text where
  nil := none
  sprint v := v.getD "<nil>"
  sprint_nil := rfl

lemma GoValue.sprint_inj {V : Type} [GoValue V] {str : String → V}
    (hstr : ∀ s, sprint (str s) = s) {v w : V} (hv : ∃ s, v = str s) (hw : ∃ s, w = str s)
    (h : sprint v = sprint w) : v = w := by
  obtain ⟨s, rfl⟩ := hv
  obtain ⟨s', rfl⟩ := hw
  rw [hstr, hstr] at h
  rw [h]

structure TableIdentifier where
  schema : String
  table : String
  deriving DecidableEq, Repr

structure ColumnDefinition where
  name : String
  primaryKey : Bool
  primaryKeyOrdinal : Nat
  deriving DecidableEq, Repr

/-- A row: column names to values. -/
abbrev Row (V : Type) := Std.ExtTreeMap String V

namespace Row

variable {V : Type}

def get [GoValue V] (row : Row V) (col : String) : V := row[col]?.getD GoValue.nil

def orEmpty (row : Option (Row V)) : Row V := row.getD ∅

end Row

/-- Rows by their key. -/
abbrev Store (V : Type) := Std.ExtTreeMap String (Row V)

inductive ChangeAction
  | insert
  | update
  | delete
  | truncate
  deriving DecidableEq, Repr

structure ChangeEvent (P V : Type) where
  table : TableIdentifier
  action : ChangeAction
  position : Option P
  newValues : Option (Row V)
  oldValues : Option (Row V)

inductive PipelineState
  | initializing
  | baselining
  | streaming
  | paused
  | error
  | stopped
  deriving DecidableEq, Repr

inductive BufferPolicy
  | block
  | dropOldest
  | error
  deriving DecidableEq, Repr

inductive ErrorPolicyKind
  | isolate
  | stopSource
  | stopAll
  deriving DecidableEq, Repr

inductive ValidationAction
  | warn
  | reBaseline
  | fail
  deriving DecidableEq, Repr

/-- How positions of a source are ordered. `comparePositions` is the source's
`ComparePositions`, which also has to answer for nil; its contract is only about
non-nil positions, where it agrees with the comparator. -/
structure PositionOrder (P : Type) extends Comparator P where
  comparePositions : Option P → Option P → Int
  comparePositions_some : ∀ a b, comparePositions (some a) (some b) = cmp a b

def PositionOrder.ofInt : PositionOrder Int where
  toComparator := Comparator.ofInt
  comparePositions
    | some a, some b => a - b
    | _, _ => 0
  comparePositions_some _ _ := rfl

end Laredo
