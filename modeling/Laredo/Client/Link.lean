import Laredo.Replication.Delivery
import Laredo.Client.Replica

/-!
# Link

A fan-out client and the server it connects to again and again, one `Sync` session at a time.
-/

namespace Laredo

open Replication Fanout

variable {P V : Type}

structure Wire (P V : Type) where
  src : Option (SourcePositions P)
  positionToString : P → String
  /-- `structpb.NewStruct(row)`, as the client decodes it; `none` for an error. -/
  encode : Row V → Option (Row V)
  parses : ∀ s p, src = some s → (s.positionFromString (positionToString p)).isSome

namespace Wire

variable (w : Wire P V)

def posToStr (position : Option P) : String :=
  match w.src, position with
  | some _, some p => w.positionToString p
  | _, _ => ""

/-- `sendJournalEntry`: the entry on the wire. A row that does not encode is left out. -/
def entry (e : JournalEntry P V) : ReplicationJournalEntry V where
  sequence := e.sequence
  action := e.action
  sourcePosition := w.posToStr e.position
  newValues := e.newValues.bind w.encode
  oldValues := e.oldValues.bind w.encode

def call (req : SyncRequest) : Call P V where
  clientID := req.clientID
  lastKnownSequence := req.lastKnownSequence
  lastSnapshotId := req.lastSnapshotId
  lastKnownSourcePosition := req.lastKnownSourcePosition
  src := w.src
  filter := none

def snapshotRows (call : Call P V) (snap : Snapshot V) : List (Row V) :=
  match call.filter with
  | none => snap.rows
  | some matchRow => snap.rows.filter fun row => matchRow (some row)

def snapshotMessages (call : Call P V) (snap : Snapshot V) : List (SyncResponse V) :=
  let rows := snapshotRows call snap
  .snapshotBegin snap.id snap.sequence rows.length ::
    (rows.map fun row => .snapshotRow (w.encode row)) ++
      [.snapshotEnd snap.sequence rows.length]

end Wire

/-- What a session sends besides what the model determines: the messages of a cold
archive, and whether the heartbeat is due. -/
structure SendEnv (V : Type) where
  cold : List (SyncResponse V)
  heartbeat : Bool

/-- The messages of one step of a session. `snap` is the snapshot the session has taken; rows go out
once the journal is pinned. -/
def Replication.Session.emits (w : Wire P V) (call : Call P V) (t : Target P V)
    (snap : Option (Snapshot V)) (env : SendEnv V) (ss ss' : Session P V) :
    List (SyncResponse V) :=
  match ss.pc with
  | .resolvePosition _ _ | .planCold _ _ | .selectMode _ _ =>
      match ss'.handshake with
      | some shake => [.handshake shake t.cols]
      | none => []
  | .pinJournal _ =>
      match snap with
      | some snap => w.snapshotMessages call snap
      | none => env.cold
  | .sendCatchUp (e :: _) | .sendLive (e :: _) _ =>
      if call.matchEntry e then [.journalEntry (w.entry e)] else []
  | .sendLive [] _ => if env.heartbeat then [.heartbeat t.j.currentSequence] else []
  | _ => []

section

variable [GoValue V]

structure Replica (V : Type) [GoValue V] where
  client : Client V
  loading : Bool

namespace Replica

def apply (r : Replica V) (msg : SyncResponse V) : Replica V where
  client := (r.client.applyMessage msg).1
  loading := match msg with
    | .snapshotBegin _ _ _ => true
    | .snapshotEnd _ _ => false
    | _ => r.loading

def run (r : Replica V) (msgs : List (SyncResponse V)) : Replica V := msgs.foldl apply r

@[simp] lemma run_nil (r : Replica V) : r.run [] = r := rfl

@[simp] lemma run_cons (r : Replica V) (msg : SyncResponse V) (msgs : List (SyncResponse V)) :
    r.run (msg :: msgs) = (r.apply msg).run msgs := rfl

lemma run_append (r : Replica V) (msgs msgs' : List (SyncResponse V)) :
    r.run (msgs ++ msgs') = (r.run msgs).run msgs' := List.foldl_append

end Replica

structure Link (P V : Type) [GoValue V] where
  target : Target P V
  call : Call P V
  session : Session P V
  snap : Option (Snapshot V)
  inflight : List (SyncResponse V)
  replica : Replica V
  history : Int → Store V

namespace Link

inductive Label (P V : Type)
  | server (a : Act P V)
  | receive
  | cut
  | connect

def init (w : Wire P V) (cfg : Config) (columns : List ColumnDefinition)
    (restored : List (Row V)) (clientID : String) (indexes : List (String × List String)) :
    Link P V where
  target := ((Target.new cfg).onInit columns).restoreSnapshot restored
  call := w.call ((Client.new indexes : Client V).dial clientID false)
  session := { pc := .closed }
  snap := none
  inflight := []
  replica := ⟨Client.new indexes, true⟩
  history := fun _ => Target.loadRows columns restored

def note (history : Int → Store V) (t : Target P V) : Int → Store V :=
  fun n => if n = t.j.currentSequence then t.store else history n

inductive Step (w : Wire P V) (s : Link P V) : Label P V → Link P V → Prop
  | server {a : Act P V} {s' : State P V}
      (hs : Replication.Step s.call ⟨s.target, s.session⟩ a s')
      (hsession : a ≠ .session) (hclose : a ≠ .close) :
      Step w s (.server a)
        { s with target := s'.target, history := note s.history s'.target }
  | session (env : SendEnv V) {t : Target P V} {ss : Session P V}
      (hs : SessionStep s.call s.target s.session t ss)
      (hpc : s.session.pc ≠ .takeSnapshot) :
      Step w s (.server .session)
        { s with
          target := t
          session := ss
          inflight := s.inflight ++ s.session.emits w s.call s.target s.snap env ss }
  | takeSnapshot (env : SnapshotEnv V) (hpc : s.session.pc = .takeSnapshot)
      (hrows : Target.Iterates env.rows s.target.store) :
      Step w s (.server .session)
        { s with
          target := (s.target.takeSnapshot env).2
          session := { s.session with pc := .pinJournal (s.target.takeSnapshot env).1.sequence }
          snap := some (s.target.takeSnapshot env).1 }
  | receive {msg : SyncResponse V} {rest : List (SyncResponse V)}
      (hmsg : s.inflight = msg :: rest) :
      Step w s .receive { s with inflight := rest, replica := s.replica.apply msg }
  | cut :
      Step w s .cut
        { s with
          target := if s.session.pinned then s.target.unpinJournal s.call.clientID else s.target
          session := { s.session with pc := .closed }
          inflight := [] }
  | connect (hpc : s.session.pc = .closed) :
      Step w s .connect
        { s with
          call := w.call (s.replica.client.dial s.call.clientID false)
          session := {}
          snap := none }

end Link

end

end Laredo
