import Laredo.Client.Replica
import Laredo.Replication.ColdReplay

/-!
# Conversion

Rows on their way into messages (`service/replication/replication.go`, `cold_replay.go`): what
`structpb.NewStruct` makes of them, the sends of a call, and what the client applies.
-/

namespace Laredo.Replication

open Client List Option KeyedMap
open Fanout (JournalEntry)
open Snapshotter (Change)

variable {P V W : Type}

/-- The value of a column; numbers of every Go type are one case, and `other` is a value of a type
that `structpb` refuses, such as `time.Time`, as `%v` prints it. -/
inductive Column (N : Type)
  | nil
  | bool (b : Bool)
  | number (n : N)
  | string (s : String)
  | bytes (data : List UInt8)
  | other (text : String)
  | list (vals : List (Column N))
  | object (keys : List String) (vals : List (Column N))

namespace Column

variable {N F : Type} (toFloat : N → F) (base64 : List UInt8 → String)

mutual

/-- `structpb.NewValue`, as the client's `AsMap` reads it. -/
def newValue : Column N → Option (Column F)
  | .nil => some .nil
  | .bool b => some (.bool b)
  | .number n => some (.number (toFloat n))
  | .string s => some (.string s)
  | .bytes data => some (.string (base64 data))
  | .other _ => none
  | .list vals => (newValues vals).map .list
  | .object keys vals => (newValues vals).map (.object keys)

def newValues : List (Column N) → Option (List (Column F))
  | [] => some []
  | v :: vals => (newValue v).bind fun w => (newValues vals).map (w :: ·)

end

mutual

/-- The value with its numbers converted. -/
def converted : Column N → Column F
  | .nil => .nil
  | .bool b => .bool b
  | .number n => .number (toFloat n)
  | .string s => .string s
  | .bytes data => .bytes data
  | .other text => .other text
  | .list vals => .list (convertedAll vals)
  | .object keys vals => .object keys (convertedAll vals)

def convertedAll : List (Column N) → List (Column F)
  | [] => []
  | v :: vals => converted v :: convertedAll vals

end

mutual

/-- No bytes and no refused type, at any depth. -/
def Plain : Column N → Prop
  | .bytes _ | .other _ => False
  | .list vals | .object _ vals => AllPlain vals
  | _ => True

def AllPlain : List (Column N) → Prop
  | [] => True
  | v :: vals => Plain v ∧ AllPlain vals

end

mutual

lemma newValue_eq_iff : ∀ v : Column N,
    newValue toFloat base64 v = some (converted toFloat v) ↔ v.Plain
  | .nil | .bool _ | .number _ | .string _ | .bytes _ | .other _ => by
    simp [newValue, converted, Plain]
  | .list vals | .object _ vals => by
    simp [newValue, converted, Plain, ← newValues_eq_iff vals]

lemma newValues_eq_iff : ∀ vals : List (Column N),
    newValues toFloat base64 vals = some (convertedAll toFloat vals) ↔ AllPlain vals
  | [] => by simp [newValues, convertedAll, AllPlain]
  | v :: vals => by
    simp [newValues, convertedAll, AllPlain, ← newValue_eq_iff v, ← newValues_eq_iff vals,
      bind_eq_some_iff]

end

end Column

section

variable {N F : Type} (toFloat : N → F) (base64 : List UInt8 → String)

/-- `structpb.NewStruct`: one value that has no counterpart fails the row. -/
def newStruct (row : Row (Column N)) : Option (Row (Column F)) :=
  if row.toList.all fun x => (x.2.newValue toFloat base64).isSome then
    some (row.filterMap fun _ v => v.newValue toFloat base64)
  else none

end

inductive Sent (P V : Type)
  | snapshotBegin (snapshotID : String) (sequence rowCount : Int)
  | snapshotRow (row : Row V)
  | snapshotEnd (sequence rowsSent : Int)
  | journalEntry (e : JournalEntry P V)
  | archiveChange (ch : Change V) (position : String) (seq : Int)

structure Phases (P V : Type) where
  snapshot : Option (Fanout.Snapshot V)
  cold : Option (ColdReplay V)
  catchUp : List (JournalEntry P V)
  live : List (JournalEntry P V)

section

variable [FilterValue V] (filter : Option (SubscriptionFilter V))

def sendSnapshot (snapshotID : String) (sequence : Int) (rows : List (Row V)) : List (Sent P V) :=
  .snapshotBegin snapshotID sequence (rows.length : Int) ::
    rows.map .snapshotRow ++ [.snapshotEnd sequence (rows.length : Int)]

def streamColdReplay (cr : ColdReplay V) : List (Sent P V) :=
  (match cr.snapshot with
    | some (snapshotID, rows) => sendSnapshot snapshotID cr.resumeSeq (filterRows rows filter)
    | none => []) ++
  cr.diffs.flatMap fun d => (d.changes.filter fun ch => changeMatchesFilter ch filter).map
    fun ch => .archiveChange ch d.position cr.resumeSeq

def sendEntries (entries : List (JournalEntry P V)) : List (Sent P V) :=
  (entries.filter fun e => matchEntry filter e).map .journalEntry

/-- The sends of a call, in order. Heartbeats and the like have no rows and are left out. -/
def Phases.sends (ph : Phases P V) : List (Sent P V) :=
  (ph.snapshot.elim [] fun snap =>
    sendSnapshot snap.id snap.sequence (filterRows snap.rows filter)) ++
  ph.cold.elim [] (streamColdReplay filter) ++ sendEntries filter ph.catchUp ++
  sendEntries filter ph.live

end

namespace Sent

def subject (action : ChangeAction) (old new : Option (Row V)) : Option (Row V) :=
  match action with
  | .insert | .update => new
  | .delete => old
  | .truncate => none

def carried : Sent P V → Option (Row V)
  | .snapshotRow row => some row
  | .journalEntry e => subject e.action e.oldValues e.newValues
  | .archiveChange ch _ _ => subject ch.action ch.old ch.new
  | .snapshotBegin _ _ _ | .snapshotEnd _ _ => none

def removes : Sent P V → Bool
  | .journalEntry e => e.action = .delete
  | .archiveChange ch _ _ => ch.action = .delete
  | _ => false

variable (convert : Row V → Option (Row W)) (posToStr : Option P → String)

/-- The message of a send; `sendJournalEntry` and `sendArchiveChange` for the last two. -/
def message : Sent P V → SyncResponse W
  | .snapshotBegin snapshotID seq rowCount => .snapshotBegin snapshotID seq rowCount
  | .snapshotRow row => .snapshotRow (convert row)
  | .snapshotEnd seq rowsSent => .snapshotEnd seq rowsSent
  | .journalEntry e => .journalEntry ⟨e.sequence, e.action, posToStr e.position,
      e.newValues.bind convert, e.oldValues.bind convert⟩
  | .archiveChange ch position seq => .journalEntry ⟨seq, ch.action, position,
      ch.new.bind convert, ch.old.bind convert⟩

/-- The message has the row that it should, `equal row`, and the store has it or, after a delete,
nothing under its key. -/
def Applied [GoValue W] (equal : Row V → Row W) (store : Store W) (item : Sent P V) : Prop :=
  ∀ row ∈ item.carried, convert row = some (equal row) ∧
    store[rowKey (equal row)]? = if item.removes then none else some (equal row)

end Sent

variable (convert : Row V → Option (Row W)) (posToStr : Option P → String)

/-- The stream takes that many messages: those that go out, and whether the call ends with the
error of a `Send`. -/
def stream : Nat → List (Sent P V) → List (SyncResponse W) × Bool
  | _, [] => ([], false)
  | 0, _ :: _ => ([], true)
  | n + 1, item :: items =>
      (item.message convert posToStr :: (stream n items).1, (stream n items).2)

variable {convert posToStr} {equal : Row V → Row W}

variable [GoValue W]

lemma applyRows_converted (store : Store W) (act : ChangeAction) (seq : Int)
    (pos : String) {old new : Option (Row V)} {row : Row V} {w : Row W}
    (hrow : row ∈ Sent.subject act old new) (hw : convert row = some w) :
    (applyRows store ⟨seq, act, pos, new.bind convert,
      old.bind convert⟩)[rowKey w]? = if act = .delete then none else some w := by
  cases act with
  | insert | update =>
    cases hrow
    simp [applyRows, hw, getElem?_put]
  | delete =>
    cases hrow
    simp [applyRows, hw]
  | truncate => cases hrow

lemma Sent.applied {item : Sent P V} (c : Client W)
    (h : ∀ row ∈ item.carried, convert row = some (equal row)) :
    item.Applied convert equal (c.applyMessage (item.message convert posToStr)).1.store := by
  intro row hrow
  have hw := h row hrow
  refine ⟨hw, ?_⟩
  cases item with
  | snapshotBegin | snapshotEnd => cases hrow
  | snapshotRow row =>
    cases hrow
    simp [message, applyMessage, hw, getElem?_put, removes]
  | journalEntry e =>
    simp only [message, applyMessage, store_applyJournalEntry, removes, decide_eq_true_eq]
    exact applyRows_converted c.store e.action _ _ hrow hw
  | archiveChange ch position seq =>
    simp only [message, applyMessage, store_applyJournalEntry, removes, decide_eq_true_eq]
    exact applyRows_converted c.store ch.action _ _ hrow hw

mutual

def Column.sprint : Column Int → String
  | .nil => "<nil>"
  | .bool b => toString b
  | .number n => toString n
  | .string s | .other s => s
  | .bytes data => "[" ++ " ".intercalate (data.map toString) ++ "]"
  | .list vals => "[" ++ " ".intercalate (sprints vals) ++ "]"
  | .object keys vals =>
      "map[" ++ " ".intercalate (List.zipWith (· ++ ":" ++ ·) keys (sprints vals)) ++ "]"

def Column.sprints : List (Column Int) → List String
  | [] => []
  | v :: vals => sprint v :: sprints vals

end

instance : GoValue (Column Int) := ⟨.nil, Column.sprint, rfl⟩

end Laredo.Replication
