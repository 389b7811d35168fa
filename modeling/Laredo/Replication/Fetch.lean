import Laredo.Fanout.Target

/-!
# Fetch

`ListSnapshots` and `FetchSnapshot` (`service/replication/replication.go`), over the lookup of
targets in the engine (`Targets` in `engine.go`).
-/

namespace Laredo.Replication

open List

open Fanout (Target Snapshot)

variable {P V : Type}

structure TargetPipeline (P V : Type) where
  sourceID : String
  table : TableIdentifier
  target : Option (Target P V)

structure Catalog (P V : Type) where
  sourceIDs : List String
  pipelines : List (TargetPipeline P V)
  named : ∀ p ∈ pipelines, p.table ≠ ⟨"", ""⟩

inductive FetchError
  | invalidArgument (message : String)
  | notFound (message : String)
  deriving DecidableEq

structure SnapshotInfo where
  snapshotId : String
  sequence : Int
  rowCount : Int
  deriving DecidableEq

inductive FetchChunk (V : Type)
  | begin (info : SnapshotInfo)
  | row (row : Option (Row V))
  | finish (sequence rowsSent : Int)

namespace Catalog

variable (e : Catalog P V)

def targets (sourceID : String) (table : TableIdentifier) : List (Option (Target P V)) :=
  (e.pipelines.filter fun p => (sourceID = "" ∨ p.sourceID = sourceID) ∧ p.table = table).map
    (·.target)

def infoOf (snap : Snapshot V) : SnapshotInfo := ⟨snap.id, snap.sequence, snap.rowCount⟩

/-- The snapshots `ListSnapshots(schema, table)` reports on: those of the first fan-out target. -/
def listed (table : TableIdentifier) : Option (List (Snapshot V)) :=
  ((e.targets "" table).findSome? id).map (·.snapshots)

def listSnapshots (schema table : String) : Except FetchError (List SnapshotInfo) :=
  if schema = "" ∨ table = "" then .error (.invalidArgument "schema and table are required")
  else
    match e.listed ⟨schema, table⟩ with
    | some snaps => .ok (snaps.map infoOf)
    | none => .error (.notFound ("no fan-out target for " ++ schema ++ "." ++ table))

variable (newStruct : Row V → Option (Row V))

def stream (snap : Snapshot V) : List (FetchChunk V) :=
  .begin (infoOf snap) :: snap.rows.map (fun row => .row (newStruct row)) ++
    [.finish snap.sequence snap.rowCount]

def searched : List (Target P V) :=
  e.sourceIDs.flatMap fun sid => (e.targets sid ⟨"", ""⟩).filterMap id

def fetchSnapshot (snapshotID : String) : Except FetchError (List (FetchChunk V)) :=
  if snapshotID = "" then .error (.invalidArgument "snapshot_id is required")
  else
    match (e.searched.flatMap (·.snapshots)).find? fun snap => snap.id = snapshotID with
    | some snap => .ok (stream newStruct snap)
    | none => .error (.notFound ("snapshot " ++ snapshotID ++ " not found"))

lemma searched_eq_nil : e.searched = [] := by
  have hnone : ∀ sid, e.targets sid ⟨"", ""⟩ = [] := fun sid => by
    simp only [targets, map_eq_nil_iff, filter_eq_nil_iff, decide_eq_true_eq]
    exact fun p hp h => e.named p hp h.2
  simp [searched, hnone]

/-- **No listed snapshot can be fetched.** For every engine and table: every snapshot that is
listed can be fetched, with its begin, its rows and its end, if and only if none is listed. -/
theorem listed_fetched_iff (e : Catalog P V) (newStruct : Row V → Option (Row V))
    (schema table : String) :
    (∀ infos, e.listSnapshots schema table = .ok infos → ∀ info ∈ infos,
      ∃ snaps, e.listed ⟨schema, table⟩ = some snaps ∧ ∃ snap ∈ snaps, infoOf snap = info ∧
        e.fetchSnapshot newStruct info.snapshotId = .ok (stream newStruct snap)) ↔
    ∀ infos, e.listSnapshots schema table = .ok infos → infos = [] := by
  refine forall_congr' fun infos => imp_congr_right fun _ => ?_
  constructor
  · intro h
    refine eq_nil_iff_forall_not_mem.mpr fun info hinfo => ?_
    obtain ⟨-, -, snap, -, -, hfetch⟩ := h info hinfo
    simp only [fetchSnapshot, searched_eq_nil, flatMap_nil, find?_nil] at hfetch
    split at hfetch <;> cases hfetch
  · rintro rfl
    simp

end Catalog

/-- A fan-out target on one table, with one snapshot: it is listed and not found. -/
theorem listed_snapshot_not_found :
    let target : Target Int Text :=
      { Target.new {} with snapshots := [⟨"fanout-0-1", 0, 0, [], 0⟩] }
    let e : Catalog Int Text :=
      { sourceIDs := ["pg"]
        pipelines := [⟨"pg", ⟨"public", "accounts"⟩, some target⟩]
        named := by simp }
    e.listSnapshots "public" "accounts" = .ok [⟨"fanout-0-1", 0, 0⟩] ∧
    e.fetchSnapshot some "fanout-0-1" =
      .error (.notFound "snapshot fanout-0-1 not found") :=
  ⟨rfl, rfl⟩

end Laredo.Replication
