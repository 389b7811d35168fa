import Laredo.Source.Pg

/-!
# Store

The snapshot stores (`snapshot/local/local.go`, `snapshot/s3/s3.go`): what `Save` writes and
what `Load` makes of it.
-/

namespace Laredo

open Std List

def TableIdentifier.text (t : TableIdentifier) : String := t.schema ++ "." ++ t.table

namespace SnapshotStore

variable {Q S V : Type}

def cut (sep : Char) (s : String) : Option (String × String) :=
  match s.toList.dropWhile (· != sep) with
  | [] => none
  | _ :: after => some (String.ofList (s.toList.takeWhile (· != sep)), String.ofList after)

lemma cut_some {sep : Char} {s bef after : String} (h : cut sep s = some (bef, after)) :
    bef.toList ++ sep :: after.toList = s.toList := by
  unfold cut at h
  split at h
  · cases h
  · next c rest hdrop =>
      cases h
      -- what is dropped begins with the separator
      have hc : c = sep := by
        have := head_dropWhile_not (· != sep) (l := s.toList) (by simp [hdrop])
        simpa [hdrop] using this
      have hall := takeWhile_append_dropWhile (p := (· != sep)) (l := s.toList)
      rw [hdrop, hc] at hall
      simpa using hall

lemma cut_of_notMem {sep : Char} {s bef after : String} (hbef : sep ∉ bef.toList)
    (h : s.toList = bef.toList ++ sep :: after.toList) : cut sep s = some (bef, after) := by
  have hall : ∀ c ∈ bef.toList, (c != sep) = true :=
    fun c hc => bne_iff_ne.2 (ne_of_mem_of_not_mem hc hbef)
  simp [cut, h, dropWhile_append_of_pos hall, takeWhile_append_of_pos hall]

def unmarshalText (text : String) : Except String TableIdentifier :=
  match cut '.' text with
  | some (schema, table) =>
      if schema = "" ∨ table = "" then
        .error ("invalid table identifier " ++ text.quote ++ ": expected schema.table")
      else .ok ⟨schema, table⟩
  | none => .error ("invalid table identifier " ++ text.quote ++ ": expected schema.table")

lemma text_of_unmarshalText {text : String} {t : TableIdentifier} (h : unmarshalText text = .ok t) :
    t.text = text := by
  unfold unmarshalText at h
  split at h
  · next schema table hcut =>
      split at h
      · cases h
      · cases h
        have := cut_some hcut
        rw [← String.toList_inj, TableIdentifier.text]
        simpa using this
  · cases h

def roundFloat64 (n : Nat) : Nat :=
  if n < 2 ^ 53 then n
  else
    let e := n.log2 - 52
    let q := n / 2 ^ e
    let r := n % 2 ^ e
    let half := 2 ^ (e - 1)
    (if half < r ∨ (r = half ∧ q % 2 = 1) then q + 1 else q) * 2 ^ e

example : roundFloat64 (2 ^ 53 + 1) = 2 ^ 53 := by decide

def hex (width n : Nat) : String :=
  String.ofList (List.leftpad width '0' ((Nat.toDigits 16 n).map Char.toUpper))

def lsnString (l : Pg.LSN) : String := hex 0 (l / 2 ^ 32 % 2 ^ 32) ++ "/" ++ hex 8 (l % 2 ^ 32)

example : lsnString 0x16B374D48 = "1/6B374D48" := by decide

inductive Position
  | lsn (l : Pg.LSN)
  | text (s : String)

inductive Any
  | lsn (l : Pg.LSN)
  | text (s : String)
  | float64 (value : Nat)

def Position.any : Position → Any
  | lsn l => .lsn l
  | text s => .text s

inductive Scalar
  | number (n : Nat)
  | string (s : String)

def Position.marshal : Position → Scalar
  | lsn l => .number l
  | text s => .string s

def Scalar.unmarshal : Scalar → Any
  | number n => .float64 (roundFloat64 n)
  | string s => .text s

def Position.sprint : Position → String
  | lsn l => lsnString l
  | text s => s

structure Json (V : Type) where
  Text : Type
  marshal : Row V → Except String Text
  unmarshal : Text → Except String (Row V)
  length : Text → Nat

structure TableSnapshotInfo where
  table : TableIdentifier
  rowCount : Nat
  targetType : String

structure SnapshotMetadata (Q V : Type) where
  snapshotID : String
  createdAt : Int
  sourcePositions : Option (ExtTreeMap String Q)
  tables : List TableSnapshotInfo
  format : String
  userMeta : Option (Row V)

def SnapshotMetadata.position (md : SnapshotMetadata Q V) (id : String) : Option Q :=
  md.sourcePositions.bind (·[id]?)

structure TableInfoDoc where
  table : String
  rowCount : Nat
  targetType : String

def TableSnapshotInfo.marshal (info : TableSnapshotInfo) : TableInfoDoc :=
  ⟨info.table.text, info.rowCount, info.targetType⟩

def TableInfoDoc.unmarshal (doc : TableInfoDoc) : Except String TableSnapshotInfo :=
  (unmarshalText doc.table).map fun table => ⟨table, doc.rowCount, doc.targetType⟩

structure MetadataDoc (S T : Type) where
  snapshotID : String
  createdAt : Int
  sourcePositions : Option (ExtTreeMap String S)
  tables : List TableInfoDoc
  format : String
  userMeta : Option T

structure TableFile (T : Type) where
  name : String
  header : Option TableInfoDoc
  lines : List T

structure Stored (S T : Type) where
  metadata : MetadataDoc S T
  files : ExtTreeMap String (TableFile T)

def fileName (t : TableIdentifier) : String := t.text ++ ".jsonl"

variable (json : Json V)

def marshalUserMeta : Option (Row V) → Except String (Option json.Text)
  | none => .ok none
  | some u => (json.marshal u).map some

def unmarshalUserMeta : Option json.Text → Except String (Option (Row V))
  | none => .ok none
  | some text => (json.unmarshal text).map some

def entriesOf (tables : List (TableIdentifier × List (Row V))) :
    TableIdentifier → Option (List (Row V)) :=
  tables.foldl (fun all e => Function.update all e.1 (some e.2)) fun _ => none

namespace Local

def findTableInfo (md : SnapshotMetadata Q V) (table : TableIdentifier) (rowCount : Nat) :
    TableSnapshotInfo :=
  (md.tables.find? fun info => decide (info.table = table)).getD ⟨table, rowCount, ""⟩

def writeTable (md : SnapshotMetadata Q V) (e : TableIdentifier × List (Row V)) :
    Except String (TableFile json.Text) := do
  let lines ← (e.2.mapM json.marshal).mapError
    fun err => "local: write table " ++ e.1.text ++ ": jsonl: encode row: " ++ err
  return ⟨fileName e.1, some (findTableInfo md e.1 e.2.length).marshal, lines⟩

/-- The `metadata.json` of the local store: the positions are encoded by their types. -/
def document {T : Type} (md : SnapshotMetadata Position V) (userMeta : Option T) :
    MetadataDoc Scalar T where
  snapshotID := md.snapshotID
  createdAt := md.createdAt
  sourcePositions := md.sourcePositions.map (·.map fun _ p => p.marshal)
  tables := md.tables.map (·.marshal)
  format := md.format
  userMeta := userMeta

/-- `Save(snapshotID, metadata, entries)`, the entries in the order of the iteration. The
directory is named after the snapshot; the metadata has a name of its own. -/
def save (md : SnapshotMetadata Position V) (entries : List (TableIdentifier × List (Row V))) :
    Except String (Stored Scalar json.Text) := do
  let userMeta ← (marshalUserMeta json md.userMeta).mapError ("local: marshal metadata: " ++ ·)
  let files ← entries.mapM (writeTable json md)
  return ⟨document md userMeta, KeyedMap.load (·.name) ∅ files⟩

/-- What a `metadata.json` says, its tables and the user's metadata being read. -/
def metadataOf {T : Type} (doc : MetadataDoc Scalar T) (tables : List TableSnapshotInfo)
    (userMeta : Option (Row V)) : SnapshotMetadata Any V where
  snapshotID := doc.snapshotID
  createdAt := doc.createdAt
  sourcePositions := doc.sourcePositions.map (·.map fun _ p => p.unmarshal)
  tables := tables
  format := doc.format
  userMeta := userMeta

def readMetadata (doc : MetadataDoc Scalar json.Text) : Except String (SnapshotMetadata Any V) := do
  let tables ← doc.tables.mapM TableInfoDoc.unmarshal
  let userMeta ← unmarshalUserMeta json doc.userMeta
  return metadataOf doc tables userMeta

/-- The longest line the scanner of `snapshot/jsonl` takes, with its newline. -/
def maxLine : Nat := 10 * 1024 * 1024

def readLine (line : json.Text) : Except String (Row V) :=
  if maxLine ≤ json.length line then .error "jsonl: scan: bufio.Scanner: token too long"
  else (json.unmarshal line).mapError ("jsonl: decode row: " ++ ·)

def readTable (stored : Stored Scalar json.Text) (info : TableSnapshotInfo) :
    Except String (TableIdentifier × List (Row V)) := do
  match stored.files[fileName info.table]? with
  | none => throw ("local: open table file " ++ fileName info.table)
  | some file =>
      match file.header with
      | none => throw ("local: read table " ++ info.table.text ++ ": jsonl: empty input")
      | some header =>
          let rows ← (do
            let _ ← header.unmarshal.mapError ("jsonl: decode header: " ++ ·)
            file.lines.mapM (readLine json)).mapError
              ("local: read table " ++ info.table.text ++ ": " ++ ·)
          return (info.table, rows)

def load (snapshotID : String) (stored : Stored Scalar json.Text) :
    Except String (SnapshotMetadata Any V × (TableIdentifier → Option (List (Row V)))) := do
  let md ← (readMetadata json stored.metadata).mapError
    ("local: unmarshal metadata for " ++ snapshotID ++ ": " ++ ·)
  let tables ← md.tables.mapM (readTable json stored)
  return (md, entriesOf tables)

end Local

namespace S3

def putTable (e : TableIdentifier × List (Row V)) : Except String (TableFile json.Text) := do
  let lines ← (e.2.mapM json.marshal).mapError ("marshal row: " ++ ·)
  return ⟨fileName e.1, none, lines⟩

def omitEmpty {α : Type} (m : Option (ExtTreeMap String α)) : Option (ExtTreeMap String α) :=
  m.filter (!·.isEmpty)

/-- The `metadata.json` of the S3 store: the positions are written as texts. -/
def document {T : Type} (snapshotID : String) (md : SnapshotMetadata Position V)
    (userMeta : Option T) : MetadataDoc String T where
  snapshotID := snapshotID
  createdAt := md.createdAt
  sourcePositions := omitEmpty (md.sourcePositions.map (·.map fun _ p => p.sprint))
  tables := md.tables.map (·.marshal)
  format := md.format
  userMeta := userMeta

def save (snapshotID : String) (md : SnapshotMetadata Position V)
    (entries : List (TableIdentifier × List (Row V))) :
    Except String (Stored String json.Text) := do
  let files ← entries.mapM (putTable json)
  let userMeta ← (marshalUserMeta json (omitEmpty md.userMeta)).mapError ("marshal metadata: " ++ ·)
  return ⟨document snapshotID md userMeta, KeyedMap.load (·.name) ∅ files⟩

/-- The metadata `Load` puts together from the document, which is without positions. -/
def metadataOf {T : Type} (doc : MetadataDoc String T) (tables : List TableSnapshotInfo)
    (userMeta : Option (Row V)) : SnapshotMetadata Any V where
  snapshotID := doc.snapshotID
  createdAt := doc.createdAt
  sourcePositions := none
  tables := tables
  format := doc.format
  userMeta := userMeta

def loadTable (stored : Stored String json.Text) (info : TableSnapshotInfo) :
    Except String (TableIdentifier × List (Row V)) := do
  match stored.files[fileName info.table]? with
  | none => throw ("load " ++ fileName info.table ++ ": get " ++ fileName info.table)
  | some file =>
      let rows ← (file.lines.mapM json.unmarshal).mapError
        ("load " ++ fileName info.table ++ ": parse row: " ++ ·)
      return (info.table, rows)

def load (stored : Stored String json.Text) :
    Except String (SnapshotMetadata Any V × (TableIdentifier → Option (List (Row V)))) := do
  let tables ← (stored.metadata.tables.mapM TableInfoDoc.unmarshal).mapError
    ("decode metadata: " ++ ·)
  let userMeta ← (unmarshalUserMeta json stored.metadata.userMeta).mapError
    ("decode metadata: " ++ ·)
  let entries ← tables.mapM (loadTable json stored)
  return (metadataOf stored.metadata tables userMeta, entriesOf entries)

end S3

end SnapshotStore

end Laredo
