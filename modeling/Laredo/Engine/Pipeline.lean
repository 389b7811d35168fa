import Laredo.SourceTable

/-!
# Pipeline

A pipeline of the engine (`resolvedPipeline` in `engine.go`): one table of a source, the filters and
transforms its rows pass, and one target.
-/

namespace Laredo.Engine

structure ResolvedPipeline (V : Type) where
  table : TableIdentifier
  filters : List (TableIdentifier → Option (Row V) → Bool) := []
  transforms : List (TableIdentifier → Row V → Option (Row V)) := []
  ttlFunc : Option (Row V → Option Int) := none
  bufferSize : Nat := 1
  bufferPolicy : BufferPolicy := .block
  errorPolicy : ErrorPolicyKind := .isolate
  maxRetries : Nat := 0
  validationAction : ValidationAction := .warn
  durable : Bool := true

namespace ResolvedPipeline

variable {P V : Type} (p : ResolvedPipeline V)

/-- The capacity of the pipeline's buffer: `NewChangeBuffer` raises a size below one. -/
def capacity : Nat := max p.bufferSize 1

def applyFilters (table : TableIdentifier) (row : Option (Row V)) : Bool :=
  p.filters.all (fun f => f table row)

def applyTransforms (table : TableIdentifier) :
    List (TableIdentifier → Row V → Option (Row V)) → Option (Row V) → Option (Row V)
  | [], row => row
  | t :: ts, row =>
      match t table (Row.orEmpty row) with
      | none => none
      | some r => applyTransforms table ts (some r)

/-- `applyFiltersAndTransforms(table, row)`: nil when the row is filtered out. -/
def applyFiltersAndTransforms (table : TableIdentifier) (row : Option (Row V)) :
    Option (Row V) :=
  if p.applyFilters table row then applyTransforms table p.transforms row else none

def isRowExpired (now : Int) (row : Row V) : Bool :=
  match p.ttlFunc with
  | none => false
  | some ttl =>
      match ttl row with
      | none => false
      | some expiry => decide (expiry < now)

/-- `applyChangeToTarget(event)` up to the callback on the target: the callback, or
nothing when a filter, a transform or the expiry drops the change. An update to a row
that has expired deletes it. -/
def applyChangeToTarget (now : Int) (event : ChangeEvent P V) : Option (TableChange V) :=
  match event.action with
  | .insert =>
      match p.applyFiltersAndTransforms event.table event.newValues with
      | none => none
      | some row => if p.isRowExpired now row then none else some (.insert row)
  | .update =>
      match p.applyFiltersAndTransforms event.table event.newValues with
      | none => none
      | some row =>
          if p.isRowExpired now row then some (.delete event.oldValues)
          else some (.update row event.oldValues)
  | .delete =>
      if p.applyFilters event.table event.oldValues then some (.delete event.oldValues)
      else none
  | .truncate => some .truncate

def baselineRow (now : Int) (row : Row V) : Option (Row V) :=
  match p.applyFiltersAndTransforms p.table (some row) with
  | none => none
  | some r => if p.isRowExpired now r then none else some r

structure Plain : Prop where
  filters : p.filters = []
  transforms : p.transforms = []
  ttlFunc : p.ttlFunc = none

lemma Plain.baselineRow {p : ResolvedPipeline V} (h : p.Plain) (now : Int) (row : Row V) :
    p.baselineRow now row = some row := by
  simp [ResolvedPipeline.baselineRow, applyFiltersAndTransforms, applyFilters, applyTransforms,
    isRowExpired, h.filters, h.transforms, h.ttlFunc]

end ResolvedPipeline

inductive LogEntry (P V : Type)
  | change (event : ChangeEvent P V) (call : Option (TableChange V))
  | truncated
  | baselineRow (row : Row V)
  /-- `OnBaselineComplete`, after the position of the baseline was handed over. -/
  | baselineComplete (position : P)

def LogEntry.event? {P V : Type} : LogEntry P V → Option (ChangeEvent P V)
  | .change e _ => some e
  | _ => none

def appliedChanges {P V : Type} (log : List (LogEntry P V)) : List (ChangeEvent P V) :=
  log.filterMap LogEntry.event?

end Laredo.Engine
