import Mathlib
import Laredo.Engine.AckSafety

/-!
# Pg

The PostgreSQL source under the engine (`source/pg/replication.go`, `pg.go`, `lsn.go`): WAL
messages, and the receive loop of `startStreaming`.
-/

namespace Laredo.Pg

open Engine (Config Item Consumer Dispatcher AckTracker)

/-- A log sequence number, an unsigned 64-bit integer. -/
abbrev LSN := Nat

def compareLSN : Option Nat → Option Nat → Int
  | some a, some b => if a < b then -1 else if b < a then 1 else 0
  | _, _ => 0

def order : PositionOrder LSN where
  cmp a b := compareLSN (some a) (some b)
  swap a b := by simp only [compareLSN]; split_ifs <;> omega
  trans a b c := by simp only [compareLSN]; split_ifs <;> omega
  comparePositions := compareLSN
  comparePositions_some _ _ := rfl

lemma order_le {a b : Nat} : order.Le a b ↔ a ≤ b := by
  change compareLSN (some a) (some b) ≤ 0 ↔ a ≤ b
  simp only [compareLSN]
  split_ifs <;> omega

inductive TupleColumn
  | null
  | text (data : String)
  | unchanged

structure RelationMessage where
  relationID : Nat
  relNamespace : String
  relationName : String
  columns : List String

inductive LogicalMessage
  | relation (msg : RelationMessage)
  | insert (relationID : Nat) (tuple : Option (List TupleColumn))
  | update (relationID : Nat) (newTuple oldTuple : Option (List TupleColumn))
  | delete (relationID : Nat) (oldTuple : Option (List TupleColumn))
  | truncate (relationIDs : List Nat)
  | other

section

variable {ι V : Type} [GoValue V] (text : String → V)

/-- `tupleToRow(rel, tuple)`; `text` makes a value of the text of a column. -/
def tupleToRow (rel : RelationMessage) : Option (List TupleColumn) → Option (Row V)
  | none => none
  | some columns =>
      some ((rel.columns.zip columns).foldl (fun row (name, col) =>
        match col with
        | .null => row.insert name GoValue.nil
        | .text data => row.insert name (text data)
        | .unchanged => row) ∅)

def replicated (tableSet : List String) (relations : Nat → Option RelationMessage) (id : Nat) :
    Option RelationMessage :=
  (relations id).filter (fun rel => decide (rel.relNamespace ++ "." ++ rel.relationName ∈ tableSet))

/-- `handleWALData(data)`: the relation cache after the message, and the events it hands to
the handler. They carry no position. -/
def handleWALData (tableSet : List String) (relations : Nat → Option RelationMessage) :
    LogicalMessage → (Nat → Option RelationMessage) × List (ChangeEvent LSN V)
  | .relation msg => (Function.update relations msg.relationID (some msg), [])
  | .insert id tuple =>
      (relations, (replicated tableSet relations id).toList.map fun rel =>
        { table := ⟨rel.relNamespace, rel.relationName⟩, action := .insert, position := none
          newValues := tupleToRow text rel tuple, oldValues := none })
  | .update id newTuple oldTuple =>
      (relations, (replicated tableSet relations id).toList.map fun rel =>
        { table := ⟨rel.relNamespace, rel.relationName⟩, action := .update, position := none
          newValues := tupleToRow text rel newTuple, oldValues := tupleToRow text rel oldTuple })
  | .delete id oldTuple =>
      (relations, (replicated tableSet relations id).toList.map fun rel =>
        { table := ⟨rel.relNamespace, rel.relationName⟩, action := .delete, position := none
          newValues := none, oldValues := tupleToRow text rel oldTuple })
  | .truncate ids =>
      (relations, (ids.filterMap (replicated tableSet relations)).map fun rel =>
        { table := ⟨rel.relNamespace, rel.relationName⟩, action := .truncate, position := none
          newValues := none, oldValues := none })
  | .other => (relations, [])

end

inductive Receiver (V : Type)
  | top
  | receive
  | events (rest : List (ChangeEvent LSN V))
  | inChange (rest : List (ChangeEvent LSN V))
  | inHeartbeat (replyRequested : Bool)
  | reply
  | failed
  | stopped

structure State (ι V : Type) where
  engine : Engine.State ι LSN V
  receiver : Receiver V
  currentLSN : LSN
  relations : Nat → Option RelationMessage
  reported : List LSN
  confirmed : ι → LSN

inductive Act (ι V : Type)
  | engine (a : Engine.Act ι LSN V)
  | periodic
  | early
  | timeout
  | walData (walStart length : Nat) (msg : LogicalMessage)
  | hand
  | handled
  | eventsDone
  | keepalive (serverWALEnd : LSN) (replyRequested : Bool)
  | beaten
  | reply
  | fail
  | stop
  | reconnect
  | streamEnd

section

variable {ι V : Type} [DecidableEq ι]

def acked (s s' : Engine.State ι LSN V) : Engine.Act ι LSN V → Option LSN
  | .consume i =>
      match s.consumer i with
      | .sendAck q => some q
      | _ => none
  | .finalAck => s'.stopAck
  | _ => none

def confirms (s : Engine.State ι LSN V) (i : ι) : Engine.Act ι LSN V → Option LSN
  | .consume j =>
      match s.consumer i with
      | .confirming (some p) => if j = i then some p else none
      | _ => none
  | _ => none

namespace State

variable (σ : State ι V)

omit [DecidableEq ι] in
@[simp] def setReceiver (pc : Receiver V) : State ι V := { σ with receiver := pc }

omit [DecidableEq ι] in
@[simp] def setEngine (s : Engine.State ι LSN V) : State ι V := { σ with engine := s }

omit [DecidableEq ι] in
/-- `sendStandbyStatus(currentLSN)`: written, flushed and applied are all the same. -/
@[simp] def sendStandbyStatus : State ι V := { σ with reported := σ.reported ++ [σ.currentLSN] }

@[simp] def advance (a : Engine.Act ι LSN V) (s : Engine.State ι LSN V) : State ι V :=
  { σ with
    engine := s
    reported := σ.reported ++ (acked σ.engine s a).toList
    confirmed := fun i => max (σ.confirmed i) ((confirms σ.engine i a).getD 0) }

end State

variable [GoValue V] (c : Config ι LSN V) (text : String → V) (tableSet : List String)

def Act.Inner : Engine.Act ι LSN V → Prop
  | .deliver _ | .streamEnd => False
  | _ => True

inductive Step (σ : State ι V) : Act ι V → State ι V → Prop
  | engine {a : Engine.Act ι LSN V} {s : Engine.State ι LSN V}
      (hstep : Engine.Step c σ.engine a s) (ha : Act.Inner a) : Step σ (.engine a) (σ.advance a s)
  | periodic (hpc : σ.receiver = .top) :
      Step σ .periodic (σ.sendStandbyStatus.setReceiver .receive)
  | early (hpc : σ.receiver = .top) : Step σ .early (σ.setReceiver .receive)
  | timeout (hpc : σ.receiver = .receive) : Step σ .timeout (σ.setReceiver .top)
  | walData (walStart length : Nat) (msg : LogicalMessage) (hpc : σ.receiver = .receive) :
      Step σ (.walData walStart length msg)
        { σ with
          currentLSN := (walStart + length) % 2 ^ 64
          relations := (handleWALData text tableSet σ.relations msg).1
          receiver := .events (handleWALData text tableSet σ.relations msg).2 }
  | hand {e : ChangeEvent LSN V} {rest : List (ChangeEvent LSN V)} {s : Engine.State ι LSN V}
      (hpc : σ.receiver = .events (e :: rest))
      (hstep : Engine.Step c σ.engine (.deliver (.change e)) s) :
      Step σ .hand ((σ.setEngine s).setReceiver (.inChange rest))
  | handled {rest : List (ChangeEvent LSN V)} (hpc : σ.receiver = .inChange rest)
      (hidle : σ.engine.dispatcher = .idle) : Step σ .handled (σ.setReceiver (.events rest))
  | eventsDone (hpc : σ.receiver = .events []) : Step σ .eventsDone (σ.setReceiver .top)
  | keepalive (serverWALEnd : LSN) (replyRequested : Bool) {s : Engine.State ι LSN V}
      (hpc : σ.receiver = .receive)
      (hstep : Engine.Step c σ.engine
        (.deliver (.heartbeat (some (max σ.currentLSN serverWALEnd)))) s) :
      Step σ (.keepalive serverWALEnd replyRequested)
        { σ with
          currentLSN := max σ.currentLSN serverWALEnd
          engine := s
          receiver := .inHeartbeat replyRequested }
  | beaten {replyRequested : Bool} (hpc : σ.receiver = .inHeartbeat replyRequested)
      (hidle : σ.engine.dispatcher = .idle) :
      Step σ .beaten (σ.setReceiver (if replyRequested then .reply else .top))
  | reply (hpc : σ.receiver = .reply) : Step σ .reply (σ.sendStandbyStatus.setReceiver .top)
  | fail (hpc : σ.receiver = .top ∨ σ.receiver = .receive ∨ σ.receiver = .reply) :
      Step σ .fail (σ.setReceiver .failed)
  | handlerFails {rest : List (ChangeEvent LSN V)} {replyRequested : Bool}
      (hpc : σ.receiver = .inChange rest ∨ σ.receiver = .inHeartbeat replyRequested)
      (herr : (∃ x i rest, σ.engine.dispatcher = .aborted x i rest) ∨
        ∃ x rest, σ.engine.dispatcher = .refused x rest) :
      Step σ .stop (σ.setReceiver .stopped)
  | cancelled (hpc : σ.receiver = .top) (hctx : σ.engine.ctxDone = true) :
      Step σ .stop (σ.setReceiver .stopped)
  | reconnect (hpc : σ.receiver = .failed) :
      Step σ .reconnect
        { σ with currentLSN := 0, relations := fun _ => none, receiver := .top }
  | streamEnd {s : Engine.State ι LSN V} (hpc : σ.receiver = .failed ∨ σ.receiver = .stopped)
      (hstep : Engine.Step c σ.engine .streamEnd s) : Step σ .streamEnd (σ.setEngine s)

structure Start (σ : State ι V) : Prop where
  engine : Engine.Start c σ.engine
  receiver : σ.receiver = .top
  currentLSN : σ.currentLSN = 0
  reported : σ.reported = []
  confirmed : ∀ i, σ.confirmed i = ((σ.engine.tracker.positions i).getD none).getD 0

end

end Laredo.Pg
