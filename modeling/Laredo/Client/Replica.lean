import Laredo.Replication.Sync

/-!
# Replica

The client of the fan-out protocol (`client/fanout/client.go`): a copy of a table that is built from
`Sync` streams, with the coordinates it resumes from.
-/

namespace Laredo

variable {V : Type} [GoValue V]

def Row.sprint (row : Row V) : String :=
  "map[" ++ " ".intercalate (row.toList.map fun kv => kv.1 ++ ":" ++ GoValue.sprint kv.2) ++ "]"

namespace Client

/-- `rowKey(row)`: the column `id`, or all of the row when there is none. -/
def rowKey (row : Row V) : String :=
  match row["id"]? with
  | some id => GoValue.sprint id
  | none => row.sprint

def indexKey (values : List V) : String :=
  match values with
  | [v] => GoValue.sprint v
  | values => "\x00".intercalate (values.map GoValue.sprint)

structure SecondaryIndex where
  fields : List String
  entries : Std.ExtTreeMap String (List String)

namespace SecondaryIndex

def keyOf (idx : SecondaryIndex) (row : Row V) : String :=
  indexKey (idx.fields.map row.get)

def add (idx : SecondaryIndex) (rk : String) (row : Row V) : SecondaryIndex :=
  let key := idx.keyOf row
  { idx with entries := idx.entries.insert key (idx.entries[key]?.getD [] ++ [rk]) }

/-- The body of `removeFromIndexes`: the first occurrence goes, and a key without row
keys goes as well. -/
def remove (idx : SecondaryIndex) (rk : String) (row : Row V) : SecondaryIndex :=
  let key := idx.keyOf row
  let left := (idx.entries[key]?.getD []).erase rk
  { idx with
    entries := if left.isEmpty then idx.entries.erase key else idx.entries.insert key left }

def clear (idx : SecondaryIndex) : SecondaryIndex := { idx with entries := ∅ }

end SecondaryIndex

/-- The secondary indexes by name. -/
abbrev Indexes := Std.ExtTreeMap String SecondaryIndex

end Client

structure Client (V : Type) [GoValue V] where
  store : Store V
  keyed : KeyedMap.Keyed Client.rowKey store
  indexes : Client.Indexes
  ready : Bool
  lastSeq : Int
  lastSnapshotID : String
  /-- The source position of the last applied change, `""` when it is not known. -/
  lastSourcePosition : String
  columns : List ColumnDefinition

/-- A change of the journal on the wire. The text of the source position is `""` when
the server had none. -/
structure ReplicationJournalEntry (V : Type) where
  sequence : Int
  action : ChangeAction
  sourcePosition : String
  newValues : Option (Row V)
  oldValues : Option (Row V)

inductive SyncResponse (V : Type)
  | handshake (shake : Replication.Handshake) (columns : List ColumnDefinition)
  | snapshotBegin (snapshotId : String) (sequence rowCount : Int)
  | snapshotRow (row : Option (Row V))
  | snapshotEnd (sequence rowsSent : Int)
  | journalEntry (entry : ReplicationJournalEntry V)
  | heartbeat (currentSequence : Int)
  | schemaChange
  | goAway

structure SyncRequest where
  clientID : String
  lastKnownSequence : Int
  lastSnapshotId : String
  lastKnownSourcePosition : String

structure Notification (V : Type) where
  old : Option (Row V)
  new : Option (Row V)
  position : String

namespace Client

def new (indexes : List (String × List String)) : Client V where
  store := ∅
  keyed := KeyedMap.Keyed.empty
  indexes := indexes.foldl (fun m ic => m.insert ic.1 ⟨ic.2, ∅⟩) ∅
  ready := false
  lastSeq := 0
  lastSnapshotID := ""
  lastSourcePosition := ""
  columns := []

def dial (c : Client V) (clientID : String) (resumeByPosition : Bool) : SyncRequest where
  clientID := clientID
  lastKnownSequence := if resumeByPosition then 0 else c.lastSeq
  lastSnapshotId := c.lastSnapshotID
  lastKnownSourcePosition := c.lastSourcePosition

def addToIndexes (indexes : Indexes) (rk : String) (row : Row V) : Indexes :=
  indexes.map fun _ idx => idx.add rk row

def removeFromIndexes (indexes : Indexes) (rk : String) (row : Row V) : Indexes :=
  indexes.map fun _ idx => idx.remove rk row

def clearIndexes (indexes : Indexes) : Indexes := indexes.map fun _ idx => idx.clear

def put (c : Client V) (row : Row V) : Client V :=
  { c with
    store := KeyedMap.put rowKey c.store row
    keyed := c.keyed.put row
    indexes := addToIndexes c.indexes (rowKey row) row }

def unindex (c : Client V) (key : String) : Client V :=
  match c.store[key]? with
  | some old => { c with indexes := removeFromIndexes c.indexes key old }
  | none => c

def clear (c : Client V) : Client V :=
  { c with
    store := ∅
    keyed := KeyedMap.Keyed.empty
    indexes := clearIndexes c.indexes }

def erase (c : Client V) (key : String) : Client V :=
  { c with
    store := c.store.erase key
    keyed := c.keyed.erase key }

def advance (c : Client V) (entry : ReplicationJournalEntry V) : Client V :=
  { c with
    lastSeq := entry.sequence
    lastSourcePosition :=
      if entry.sourcePosition ≠ "" then entry.sourcePosition else c.lastSourcePosition }

/-- The switch on the action of an entry: the rows and what the listeners are told,
with the position `notify` adds. -/
def applyChange (c : Client V) (entry : ReplicationJournalEntry V) :
    Client V × Option (Notification V) :=
  match entry.action with
  | .insert =>
      match entry.newValues with
      | some row => (c.put row, some ⟨none, some row, c.lastSourcePosition⟩)
      | none => (c, none)
  | .update =>
      match entry.newValues with
      | some row =>
          ((c.unindex (rowKey row)).put row,
            some ⟨c.store[rowKey row]?, some row, c.lastSourcePosition⟩)
      | none => (c, none)
  | .delete =>
      match entry.oldValues with
      | some row =>
          ((c.unindex (rowKey row)).erase (rowKey row),
            some ⟨c.store[rowKey row]?, none, c.lastSourcePosition⟩)
      | none => (c, none)
  | .truncate => (c.clear, some ⟨none, none, c.lastSourcePosition⟩)

def applyJournalEntry (c : Client V) (entry : ReplicationJournalEntry V) :
    Client V × Option (Notification V) :=
  let r := (c.advance entry).applyChange entry
  ({ r.1 with ready := true }, r.2)

/-- `applyMessage(msg)`: the client, what the listeners are told, and whether the
message is a GoAway. -/
def applyMessage (c : Client V) : SyncResponse V → Client V × Option (Notification V) × Bool
  | .handshake _ columns => ({ c with columns := if columns.isEmpty then c.columns else columns },
      none, false)
  | .snapshotBegin snapshotId _ _ =>
      ({ c.clear with lastSnapshotID := snapshotId, lastSourcePosition := "" }, none, false)
  | .snapshotRow (some row) => (c.put row, none, false)
  | .snapshotRow none => (c, none, false)
  | .snapshotEnd sequence _ => ({ c with ready := true, lastSeq := sequence }, none, false)
  | .journalEntry entry => ((c.applyJournalEntry entry).1, (c.applyJournalEntry entry).2, false)
  | .heartbeat _ => (c, none, false)
  | .schemaChange => (c, none, false)
  | .goAway => (c, none, true)

def applyRows (store : Store V) (entry : ReplicationJournalEntry V) : Store V :=
  match entry.action with
  | .insert | .update =>
      match entry.newValues with
      | some row => KeyedMap.put rowKey store row
      | none => store
  | .delete =>
      match entry.oldValues with
      | some row => store.erase (rowKey row)
      | none => store
  | .truncate => ∅

variable (c : Client V)

@[simp] lemma store_unindex (key : String) : (c.unindex key).store = c.store := by
  unfold unindex
  split <;> rfl

@[simp] lemma store_put (row : Row V) : (c.put row).store = KeyedMap.put rowKey c.store row := rfl

@[simp] lemma store_erase (key : String) : (c.erase key).store = c.store.erase key := rfl

section

variable (entry : ReplicationJournalEntry V)
include entry

@[simp] lemma store_advance : (c.advance entry).store = c.store := rfl

lemma store_applyChange : (c.applyChange entry).1.store = applyRows c.store entry := by
  unfold applyChange applyRows
  cases entry.action with
  | insert => cases entry.newValues <;> rfl
  | update =>
    cases entry.newValues with
    | none => rfl
    | some row =>
      show ((c.unindex (rowKey row)).put row).store = KeyedMap.put rowKey c.store row
      rw [store_put, store_unindex]
  | delete =>
    cases entry.oldValues with
    | none => rfl
    | some row =>
      show ((c.unindex (rowKey row)).erase (rowKey row)).store = c.store.erase (rowKey row)
      rw [store_erase, store_unindex]
  | truncate => rfl

lemma store_applyJournalEntry : (c.applyJournalEntry entry).1.store = applyRows c.store entry :=
  store_applyChange (c.advance entry) entry

lemma coords_applyChange : (c.applyChange entry).1.lastSeq = c.lastSeq ∧
      (c.applyChange entry).1.lastSnapshotID = c.lastSnapshotID ∧
      (c.applyChange entry).1.lastSourcePosition = c.lastSourcePosition := by
  have hunindex : ∀ key, (c.unindex key).lastSeq = c.lastSeq ∧
      (c.unindex key).lastSnapshotID = c.lastSnapshotID ∧
      (c.unindex key).lastSourcePosition = c.lastSourcePosition := by
    intro key
    unfold unindex
    split <;> exact ⟨rfl, rfl, rfl⟩
  unfold applyChange
  cases entry.action with
  | insert => cases entry.newValues <;> exact ⟨rfl, rfl, rfl⟩
  | update =>
    cases entry.newValues with
    | none => exact ⟨rfl, rfl, rfl⟩
    | some row => exact hunindex (rowKey row)
  | delete =>
    cases entry.oldValues with
    | none => exact ⟨rfl, rfl, rfl⟩
    | some row => exact hunindex (rowKey row)
  | truncate => exact ⟨rfl, rfl, rfl⟩

@[simp] lemma lastSeq_applyJournalEntry :
    (c.applyJournalEntry entry).1.lastSeq = entry.sequence :=
  (coords_applyChange (c.advance entry) entry).1

@[simp] lemma lastSnapshotID_applyJournalEntry :
    (c.applyJournalEntry entry).1.lastSnapshotID = c.lastSnapshotID :=
  (coords_applyChange (c.advance entry) entry).2.1

@[simp] lemma lastSourcePosition_applyJournalEntry :
    (c.applyJournalEntry entry).1.lastSourcePosition =
      if entry.sourcePosition ≠ "" then entry.sourcePosition else c.lastSourcePosition :=
  (coords_applyChange (c.advance entry) entry).2.2

end

end Client

end Laredo
