import Laredo.Lib.Transition
import Laredo.Snapshotter.Diff
import Laredo.Snapshotter.Writer

/-!
# Run

The snapshot writer at work (`Writer.Run`), with the subscription it reads: a transition system in
which the changes of the subscription and the steps of `flush` and `snapshot` interleave.

A change is published (rows and position) and then delivered to `onChange`, in two steps, as
`sourcesub.Adapter.apply` does it. The process may stop at any step; starting it again loads the
manifest.
-/

namespace Laredo.Snapshotter

open Edit Buffer

/-- Where the writer's goroutine is. -/
inductive Phase (V : Type)
  | down
  | idle
  | flushing (d : Drained V)
  | stamped (d : Drained V) (upTo : String)
  /-- `snapshot` has discarded the buffer; the initial one ends the process if it fails. -/
  | rebasing (initial : Bool) (epoch : Nat)
  | captured (initial : Bool) (epoch : Nat) (rows : List (Row V)) (pos : String)

def Phase.isDown {V : Type} : Phase V → Bool
  | .down => true
  | _ => false

def Phase.stamp {V : Type} : Phase V → Option String
  | .stamped _ q | .captured _ _ _ q => some q
  | _ => none

def Phase.drained {V : Type} : Phase V → Option (Drained V)
  | .flushing d | .stamped d _ => some d
  | _ => none

def Phase.collects {V : Type} : Phase V → Bool
  | .idle | .flushing _ | .stamped _ _ => true
  | _ => false

/-- The subscription, its writer and the destinations. -/
structure World (B V : Type) where
  table : Store V
  position : String
  inflight : Option (Edit V)
  writer : Writer V
  phase : Phase V
  destinations : Destinations B
  log : List (String × Edit V)
  archive : List Artifact
  snapshotFailed : Bool

inductive Label (V : Type)
  | publish (pos : String) (e : Edit V)
  | deliver
  | rebaseline (rows : Store V) (pos : String)
  | drain (changes : List (Change V)) (now : Int)
  | stamp
  | write (fault : Option Nat)
  | force
  /-- `snapshot` reads the subscription; the rows are in the order of the iteration. -/
  | capture (rows : List (Row V))
  | commit (fault : Option Nat) (now : Int)
  | crash
  | die (fault : Option Nat)
  | start

variable {B V : Type}

def World.init (table : Store V) (position : String) : World B V where
  table := table
  position := position
  inflight := none
  writer := Writer.new
  phase := .down
  destinations := fun _ => ⟨∅, none, 0⟩
  log := []
  archive := []
  snapshotFailed := false

def World.afterFlush (cfg : Config B V) (s : World B V) (d : Drained V) (upTo : String) :
    Destinations B × Writer V × Outcome → World B V
  | (st, w, .done) =>
      { s with
        destinations := st
        writer := w
        phase := .idle
        archive := s.archive ++ [diffArtifact cfg d.epoch d.start upTo] }
  | (st, w, .failed) => { s with destinations := st, writer := w, phase := .idle }
  | (st, w, .rebase) =>
      { s with destinations := st, writer := w, phase := .rebasing false (w.epoch + 1) }

def World.afterSnapshot (cfg : Config B V) (s : World B V) (initial : Bool) (epoch : Nat)
    (pos : String) : Destinations B × Writer V × Bool → World B V
  | (st, w, true) =>
      { s with
        destinations := st
        writer := w
        phase := .idle
        archive := s.archive ++ [snapshotArtifact cfg epoch pos]
        snapshotFailed := false }
  | (st, w, false) =>
      { s with
        destinations := st
        writer := w
        phase := if initial then .down else .idle
        snapshotFailed := true }

def World.afterDeath (s : World B V) (st : Destinations B) : World B V :=
  { s with destinations := st, inflight := none, phase := .down }

variable [GoValue V]

inductive Step (cfg : Config B V) (s : World B V) : Label V → World B V → Prop
  | publish {pos : String} {e : Edit V} (hin : s.inflight = none) :
      Step cfg s (.publish pos e)
        { s with
          table := e.applyBlind cfg.keyFields s.table
          position := pos
          -- without a process nobody has registered for changes
          inflight := if s.phase.isDown then none else some e
          log := s.log ++ [(pos, e)] }
  | deliver {e : Edit V} (hin : s.inflight = some e) :
      Step cfg s .deliver
        { s with
          inflight := none
          writer := s.writer.onChange cfg e.old e.new }
  | rebaseline {rows : Store V} {pos : String} (hin : s.inflight = none) :
      Step cfg s (.rebaseline rows pos) { s with table := rows, position := pos }
  | drain {changes : List (Change V)} {now : Int} (hphase : s.phase = .idle)
      (hne : s.writer.buffer ≠ ∅)
      (hperm : changes.Perm (s.writer.buffer.toList.map Prod.snd)) :
      Step cfg s (.drain changes now)
        { s with
          writer := (s.writer.drain changes now).2
          phase := .flushing (s.writer.drain changes now).1 }
  | stamp {d : Drained V} (hphase : s.phase = .flushing d) :
      Step cfg s .stamp { s with phase := .stamped d s.position }
  | write {d : Drained V} {upTo : String} {fault : Option Nat}
      (hphase : s.phase = .stamped d upTo) :
      Step cfg s (.write fault) (s.afterFlush cfg d upTo
        (s.writer.finishFlush cfg d upTo s.table.size fault s.destinations))
  | force (hphase : s.phase = .idle) :
      Step cfg s .force
        { s with
          writer := s.writer.discard
          phase := .rebasing false (s.writer.epoch + 1) }
  | capture {initial : Bool} {epoch : Nat} {rows : List (Row V)}
      (hphase : s.phase = .rebasing initial epoch)
      (hperm : rows.Perm (s.table.toList.map Prod.snd)) :
      Step cfg s (.capture rows)
        { s with phase := .captured initial epoch rows s.position }
  | commit {initial : Bool} {epoch : Nat} {rows : List (Row V)} {pos : String} {fault : Option Nat}
      {now : Int} (hphase : s.phase = .captured initial epoch rows pos) :
      Step cfg s (.commit fault now) (s.afterSnapshot cfg initial epoch pos
        (s.writer.finishSnapshot cfg epoch rows pos now fault s.destinations))
  | crash : Step cfg s .crash
      { s with inflight := none, phase := .down }
  | dieFlushing {d : Drained V} {upTo : String} {fault : Option Nat}
      (hphase : s.phase = .stamped d upTo) :
      Step cfg s (.die fault) (s.afterDeath
        (s.writer.finishFlush cfg d upTo s.table.size fault s.destinations).1)
  | dieSnapshotting {initial : Bool} {epoch : Nat} {rows : List (Row V)} {pos : String}
      {fault : Option Nat} (hphase : s.phase = .captured initial epoch rows pos) :
      Step cfg s (.die fault) (s.afterDeath
        (s.writer.finishSnapshot cfg epoch rows pos 0 fault s.destinations).1)
  | start (hphase : s.phase = .down) :
      Step cfg s .start
        { s with
          writer := (Writer.new.loadManifest cfg s.destinations).discard
          phase := .rebasing true ((Writer.new.loadManifest cfg s.destinations).epoch + 1) }

def World.Writing (cfg : Config B V) (s : World B V) (art : Artifact) : Prop :=
  (∃ d upTo, s.phase = .stamped d upTo ∧ art = diffArtifact cfg d.epoch d.start upTo) ∨
    ∃ initial epoch rows pos, s.phase = .captured initial epoch rows pos ∧
      art = snapshotArtifact cfg epoch pos

variable {cfg : Config B V} {s s' : World B V} {a : Label V}

lemma Step.attempts (hs : Step cfg s a s') :
    (s'.destinations = s.destinations ∧ (s'.writer.manifest = s.writer.manifest ∨
      s'.writer.manifest = (Writer.new.loadManifest cfg s.destinations : Writer V).manifest)) ∨
    ∃ art encode formats w ok, s.Writing cfg art ∧
      Attempt cfg art encode formats s.writer s.destinations s'.destinations w ok ∧
      (s'.writer.manifest = w.manifest ∨ s'.writer.manifest = s.writer.manifest) := by
  cases hs with
  | @write d upTo fault hph =>
    rcases s.writer.finishFlush_spec cfg d upTo s.table.size fault s.destinations with
      hreb | ⟨st, w, ok, ⟨hatt, -⟩, hdone⟩
    · rw [hreb]
      exact .inl ⟨rfl, .inl rfl⟩
    · rw [hdone]
      cases ok <;> exact .inr ⟨_, _, _, w, _, .inl ⟨d, upTo, hph, rfl⟩, hatt, .inl rfl⟩
  | @commit initial epoch rows pos fault now hph =>
    obtain ⟨st, w, ok, bytes, ⟨hatt, -⟩, hres⟩ :=
      s.writer.finishSnapshot_spec cfg epoch rows pos now fault s.destinations
    rw [hres]
    cases ok <;> exact .inr ⟨_, _, _, w, _, .inr ⟨initial, epoch, rows, pos, hph, rfl⟩,
      hatt, .inl rfl⟩
  | @dieFlushing d upTo fault hph =>
    rcases s.writer.finishFlush_spec cfg d upTo s.table.size fault s.destinations with
      hreb | ⟨st, w, ok, ⟨hatt, -⟩, hdone⟩
    · rw [hreb]
      exact .inl ⟨rfl, .inl rfl⟩
    · rw [hdone]
      cases ok <;> exact .inr ⟨_, _, _, w, _, .inl ⟨d, upTo, hph, rfl⟩, hatt, .inr rfl⟩
  | @dieSnapshotting initial epoch rows pos fault hph =>
    obtain ⟨st, w, ok, bytes, ⟨hatt, -⟩, hres⟩ :=
      s.writer.finishSnapshot_spec cfg epoch rows pos 0 fault s.destinations
    rw [hres]
    exact .inr ⟨_, _, _, w, _, .inr ⟨initial, epoch, rows, pos, hph, rfl⟩, hatt, .inr rfl⟩
  | start _ => exact .inl ⟨rfl, .inr rfl⟩
  | _ => exact .inl ⟨rfl, .inl rfl⟩

lemma Step.manifests_all (hs : Step cfg s a s') {P Q : Manifest → Prop}
    (hemp : P Manifest.empty) (hQ : ∀ m, Q m → P m) (hhl : P s.writer.manifest)
    (hstd : ∀ n m, (s.destinations n).manifest = some m → Q m)
    (hadd : ∀ art, s.Writing cfg art → Q (s.writer.manifest.add cfg.keepEpochs art)) :
    P s'.writer.manifest ∧ ∀ n m, (s'.destinations n).manifest = some m → Q m := by
  rcases hs.attempts with ⟨hst, hsame | hload⟩ | ⟨art, encode, formats, w, ok, hwriting, hatt, hw⟩
  · rw [hst, hsame]
    exact ⟨hhl, hstd⟩
  · rw [hst, hload]
    exact ⟨Writer.loadManifest_all cfg hemp fun n _ m hm => hQ m (hstd n m hm), hstd⟩
  · obtain ⟨hhl', hstd'⟩ := hatt.manifests_all hQ hhl hstd (hadd art hwriting)
    rcases hw with hw | hw <;> rw [hw]
    · exact ⟨hhl', hstd'⟩
    · exact ⟨hhl, hstd'⟩

lemma Step.stays_stored (hs : Step cfg s a s') {n : String}
    (h : ∃ m, (s.destinations n).manifest = some m) :
    ∃ m, (s'.destinations n).manifest = some m := by
  rcases hs.attempts with ⟨hst, -⟩ | ⟨art, encode, formats, w, ok, -, hatt, -⟩
  · rwa [hst]
  · rcases hatt.manifests.2 n with hsame | hnew
    · rwa [hsame]
    · exact ⟨_, hnew⟩

inductive Payload (V : Type)
  | rows (rows : List (Row V))
  | changes (changes : List (Change V))

def plainFormat : Format (Payload V) V where
  formatID := "plain"
  extension := ".plain"
  writeSnapshot rows := some (.rows rows)
  readSnapshot
    | .rows rows => some rows
    | .changes _ => none
  writeDiff changes := some (.changes changes)
  readDiff
    | .rows _ => none
    | .changes changes => some changes

/-- One destination and one format; `keepEpochs` and the policy are left open. -/
def plainConfig (keepEpochs : Int) (shouldSnapshot : TriggerState → Bool) :
    Config (Payload Text) Text where
  keyPrefix := "events/"
  keyFields := ["id"]
  destinations := ["local"]
  snapshotFormats := [plainFormat]
  diffFormats := [plainFormat]
  keepEpochs := keepEpochs
  shouldSnapshot := shouldSnapshot
  size _ := 0
  destinations_ne := nofun
  snapshotFormats_ne := nofun
  diffFormats_ne := nofun

def diffsOnly : Config (Payload Text) Text := plainConfig 0 fun _ => false

def insertOne : Edit Text := ⟨none, some (rowWithId "1")⟩

def insertTwo : Edit Text := ⟨none, some (rowWithId "2")⟩

lemma Buffer.ne_empty {buf : Buffer Text} {k : String}
    (h : buf[k]?.isSome = true) : buf ≠ ∅ := by
  intro hemp
  simp [hemp] at h

lemma buffer_insertOne_ne : collect ["id"] ∅ [insertOne] ≠ ∅ :=
  ne_empty (k := "1") (by decide +kernel)

lemma buffer_insertTwo_ne : collect ["id"] ∅ [insertTwo] ≠ ∅ :=
  ne_empty (k := "2") (by decide +kernel)

lemma buffer_insertBoth_ne : collect ["id"] ∅ [insertOne, insertTwo] ≠ ∅ :=
  ne_empty (k := "1") (by decide +kernel)

end Laredo.Snapshotter
