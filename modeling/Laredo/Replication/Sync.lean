import Laredo.Lib.Transition
import Laredo.Fanout.Resume

/-!
# Sync

One `Sync` session of the replication service (`service/replication/replication.go`) against a
fan-out target that other goroutines keep changing. Each read of the journal takes the lock on its
own, so a session is a program counter that advances one read or one send at a time, and between two
steps the rest of the process may append, prune, pin and take snapshots.
-/

namespace Laredo.Replication

open Laredo.Fanout

variable {P V : Type}

inductive SyncMode
  | delta
  | deltaFromSnapshot
  | fullSnapshot
  | replayArchive
  deriving DecidableEq, Repr

structure SourcePositions (P : Type) where
  positionFromString : String → Option (Option P)
  order : PositionOrder P

structure Call (P V : Type) where
  clientID : String
  lastKnownSequence : Int
  lastSnapshotId : String
  lastKnownSourcePosition : String
  src : Option (SourcePositions P)
  /-- The row predicate of the subscription filter; `none` is the nil filter. -/
  filter : Option (Option (Row V) → Bool)

def Call.matchEntry (call : Call P V) (e : JournalEntry P V) : Bool :=
  match call.filter with
  | none => true
  | some matchRow =>
      match e.action with
      | .delete => matchRow e.oldValues
      | .truncate => true
      | .insert | .update => matchRow e.newValues

structure Handshake where
  mode : SyncMode
  serverCurrentSequence : Int
  journalOldestSequence : Int
  resumeFromSequence : Int
  snapshotId : String

inductive Pc (P V : Type)
  | readOldest
  | readCurrent (oldestSeq : Int)
  | resolvePosition (oldestSeq currentSeq : Int)
  | planCold (oldestSeq currentSeq : Int)
  | selectMode (oldestSeq currentSeq : Int)
  | takeSnapshot
  | pinJournal (seq : Int)
  | catchUp
  | sendCatchUp (pending : List (JournalEntry P V))
  | readHead
  | live (lastSeqSent : Int)
  | sendLive (pending : List (JournalEntry P V)) (lastSeqSent : Int)
  | closed

structure Session (P V : Type) where
  pc : Pc P V := .readOldest
  handshake : Option Handshake := none
  resumeSeq : Int := 0
  pinned : Bool := false
  visited : List (JournalEntry P V) := []
  sent : List (JournalEntry P V) := []

def Call.positionResume (call : Call P V) (j : Journal P V) : Option Int :=
  match call.src with
  | none => none
  | some src =>
      if call.lastKnownSourcePosition = "" then none
      else
        match src.positionFromString call.lastKnownSourcePosition with
        | none => none
        | some pos =>
            match j.resumeSeqForPosition pos src.order.comparePositions with
            | (seq, true) => some seq
            | (_, false) => none

def Call.selectMode (call : Call P V) (oldestSeq : Int) (snapshots : List (Snapshot V)) :
    SyncMode × Int × String :=
  if 0 < call.lastKnownSequence ∧ oldestSeq ≤ call.lastKnownSequence then
    (.delta, call.lastKnownSequence, "")
  else if call.lastSnapshotId ≠ "" then
    match snapshots.find?
        (fun snap => decide (snap.id = call.lastSnapshotId ∧ oldestSeq ≤ snap.sequence)) with
    | some snap => (.deltaFromSnapshot, snap.sequence, snap.id)
    | none => (.fullSnapshot, 0, "")
  else (.fullSnapshot, 0, "")

lemma Call.positionResume_inv {call : Call P V} {j : Journal P V} {seq : Int}
    (h : call.positionResume j = some seq) :
    ∃ src pos, call.src = some src ∧ call.lastKnownSourcePosition ≠ "" ∧
      src.positionFromString call.lastKnownSourcePosition = some pos ∧
      j.resumeSeqForPosition pos src.order.comparePositions = (seq, true) := by
  unfold Call.positionResume at h
  split at h
  · cases h
  · next src hsrc =>
    split at h
    · cases h
    · next hne =>
      split at h
      · cases h
      · next pos hpos =>
        split at h
        · next heq => exact ⟨src, pos, hsrc, hne, hpos, Option.some.inj h ▸ heq⟩
        · cases h

lemma Call.selectMode_cases (call : Call P V) (oldestSeq : Int) (snaps : List (Snapshot V)) :
    (0 < call.lastKnownSequence ∧ oldestSeq ≤ call.lastKnownSequence ∧
      call.selectMode oldestSeq snaps = (.delta, call.lastKnownSequence, "")) ∨
    (∃ snap ∈ snaps, snap.id = call.lastSnapshotId ∧ snap.id ≠ "" ∧ oldestSeq ≤ snap.sequence ∧
      call.selectMode oldestSeq snaps = (.deltaFromSnapshot, snap.sequence, snap.id)) ∨
    call.selectMode oldestSeq snaps = (.fullSnapshot, 0, "") := by
  unfold Call.selectMode
  by_cases hseq : 0 < call.lastKnownSequence ∧ oldestSeq ≤ call.lastKnownSequence
  · exact .inl ⟨hseq.1, hseq.2, if_pos hseq⟩
  · rw [if_neg hseq]
    by_cases hid : call.lastSnapshotId ≠ ""
    · rw [if_pos hid]
      cases hfind : snaps.find? fun snap =>
          decide (snap.id = call.lastSnapshotId ∧ oldestSeq ≤ snap.sequence) with
      | none => exact .inr (.inr rfl)
      | some snap =>
        have hsnap := List.find?_some hfind
        simp only [decide_eq_true_eq] at hsnap
        exact .inr (.inl ⟨snap, List.mem_of_find?_eq_some hfind, hsnap.1,
          hsnap.1 ▸ hid, hsnap.2, rfl⟩)
    · exact .inr (.inr (if_neg hid))

def SyncMode.next : SyncMode → Int → Pc P V
  | .delta, _ => .catchUp
  | .deltaFromSnapshot, _ => .catchUp
  | .fullSnapshot, _ => .takeSnapshot
  | .replayArchive, seq => .pinJournal seq

def Session.shakeHands (ss : Session P V) (oldestSeq currentSeq : Int)
    (choice : SyncMode × Int × String) : Session P V :=
  { ss with
    pc := choice.1.next choice.2.1
    handshake := some ⟨choice.1, currentSeq, oldestSeq, choice.2.1, choice.2.2⟩
    resumeSeq := choice.2.1 }

def Session.visit (call : Call P V) (ss : Session P V) (e : JournalEntry P V) : Session P V :=
  { ss with
    visited := ss.visited ++ [e]
    sent := if call.matchEntry e then ss.sent ++ [e] else ss.sent }

structure State (P V : Type) where
  target : Target P V
  session : Session P V

/-- A new target and a session that has not begun: whatever the target went through
before the session is the first part of a run. -/
def State.init (cfg : Config) (columns : List ColumnDefinition) : State P V where
  target := (Target.new cfg).onInit columns
  session := {}

inductive Act (P V : Type)
  | engine (op : Op P V)
  | restoreSnapshot (rows : List (Row V))
  | schemaChange (columns : List ColumnDefinition)
  | pin (clientID : String) (seq : Int)
  | unpin (clientID : String)
  | snapshot
  | session
  | close

def PinsOf (t : Target P V) (env : AppendEnv) : Prop :=
  env.pinOrder.Perm (t.j.pins.toList.map Prod.snd)

inductive SessionStep (call : Call P V) (t : Target P V) (ss : Session P V) :
    Target P V → Session P V → Prop
  | readOldest (h : ss.pc = .readOldest) :
      SessionStep call t ss t { ss with pc := .readCurrent t.j.oldestSequence }
  | readCurrent {oldestSeq : Int} (h : ss.pc = .readCurrent oldestSeq) :
      SessionStep call t ss t
        { ss with pc := .resolvePosition oldestSeq t.j.currentSequence }
  | positionCovered {oldestSeq currentSeq seq : Int}
      (h : ss.pc = .resolvePosition oldestSeq currentSeq)
      (hseq : call.positionResume t.j = some seq) :
      SessionStep call t ss t (ss.shakeHands oldestSeq currentSeq (.delta, seq, ""))
  | positionMissed {oldestSeq currentSeq : Int}
      (h : ss.pc = .resolvePosition oldestSeq currentSeq)
      (hseq : call.positionResume t.j = none) :
      SessionStep call t ss t { ss with pc := .planCold oldestSeq currentSeq }
  | coldPlanned {oldestSeq currentSeq seq : Int} {src : SourcePositions P} {head : Option P}
      (h : ss.pc = .planCold oldestSeq currentSeq)
      (hsrc : call.src = some src) (hpos : call.lastKnownSourcePosition ≠ "")
      (hseq : t.j.resumeSeqForPosition head src.order.comparePositions = (seq, true)) :
      SessionStep call t ss t (ss.shakeHands oldestSeq currentSeq (.replayArchive, seq, ""))
  | coldUnavailable {oldestSeq currentSeq : Int} (h : ss.pc = .planCold oldestSeq currentSeq) :
      SessionStep call t ss t { ss with pc := .selectMode oldestSeq currentSeq }
  | selectMode {oldestSeq currentSeq : Int} (h : ss.pc = .selectMode oldestSeq currentSeq) :
      SessionStep call t ss t
        (ss.shakeHands oldestSeq currentSeq (call.selectMode oldestSeq t.snapshots))
  | takeSnapshot {env : SnapshotEnv V} (h : ss.pc = .takeSnapshot)
      (hrows : Target.Iterates env.rows t.store) :
      SessionStep call t ss (t.takeSnapshot env).2
        { ss with pc := .pinJournal (t.takeSnapshot env).1.sequence }
  | pinJournal {seq : Int} (h : ss.pc = .pinJournal seq) :
      SessionStep call t ss (t.pinJournal call.clientID seq)
        { ss with pc := .catchUp, resumeSeq := seq, pinned := true }
  | catchUp (h : ss.pc = .catchUp) :
      SessionStep call t ss t
        { ss with pc := .sendCatchUp (t.j.entriesSince ss.resumeSeq) }
  | sendCatchUp {e : JournalEntry P V} {pending : List (JournalEntry P V)}
      (h : ss.pc = .sendCatchUp (e :: pending)) :
      SessionStep call t ss t { ss.visit call e with pc := .sendCatchUp pending }
  | caughtUp (h : ss.pc = .sendCatchUp []) :
      SessionStep call t ss t { ss with pc := .readHead }
  | readHead (h : ss.pc = .readHead) :
      SessionStep call t ss t { ss with pc := .live t.j.currentSequence }
  | poll {lastSeqSent : Int} (h : ss.pc = .live lastSeqSent) :
      SessionStep call t ss t
        { ss with pc := .sendLive (t.j.entriesSince lastSeqSent) lastSeqSent }
  | sendLive {e : JournalEntry P V} {pending : List (JournalEntry P V)} {lastSeqSent : Int}
      (h : ss.pc = .sendLive (e :: pending) lastSeqSent) :
      SessionStep call t ss t { ss.visit call e with pc := .sendLive pending e.sequence }
  | polled {lastSeqSent : Int} (h : ss.pc = .sendLive [] lastSeqSent) :
      SessionStep call t ss t { ss with pc := .live lastSeqSent }

inductive Step [GoValue V] (call : Call P V) (s : State P V) : Act P V → State P V → Prop
  | engine {op : Op P V} {env : AppendEnv} (henv : PinsOf s.target env) :
      Step call s (.engine op) { s with target := op.apply s.target env }
  | restoreSnapshot {rows : List (Row V)} :
      Step call s (.restoreSnapshot rows) { s with target := s.target.restoreSnapshot rows }
  | schemaChange {columns : List ColumnDefinition} {env : AppendEnv}
      (henv : PinsOf s.target env) :
      Step call s (.schemaChange columns)
        { s with target := s.target.onSchemaChange env columns }
  | pin {clientID : String} {seq : Int} :
      Step call s (.pin clientID seq) { s with target := s.target.pinJournal clientID seq }
  | unpin {clientID : String} :
      Step call s (.unpin clientID) { s with target := s.target.unpinJournal clientID }
  | snapshot {env : SnapshotEnv V} (hrows : Target.Iterates env.rows s.target.store) :
      Step call s .snapshot { s with target := (s.target.takeSnapshot env).2 }
  | session {t : Target P V} {ss : Session P V}
      (hs : SessionStep call s.target s.session t ss) : Step call s .session ⟨t, ss⟩
  | close :
      Step call s .close
        ⟨if s.session.pinned then s.target.unpinJournal call.clientID else s.target,
          { s.session with pc := .closed }⟩

end Laredo.Replication
