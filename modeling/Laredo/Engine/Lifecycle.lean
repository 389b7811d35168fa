import Laredo.Engine.AckSafety
import Laredo.Engine.SyncTarget

/-!
# Lifecycle

The life of one source (`runSource` in `engine.go`): it comes into the stream by resuming, by
restoring a snapshot or by a baseline, and goes back to a baseline whenever the stream ends with
`ErrReBaselineRequired`. What a call reads from outside (the clock, the rows of the source, the
errors of targets, the order of a map iteration) is in its arguments.
-/

namespace Laredo.Engine

open Fanout (Op AppendEnv)

variable {ι P V : Type}

structure Member (P V : Type) where
  state : PipelineState
  target : SyncTarget P V
  ready : Bool
  /-- What `OnValidationResult` reported last: the rows dispatched and the rows counted. -/
  validation : Option (Nat × Nat)

structure Fleet (ι P V : Type) where
  member : ι → Member P V
  tracker : AckTracker ι P

/-- A row `source.Baseline` emits, with what its dispatch reads from outside: the clock, the
journal of a fan-out target, and the error of `OnBaselineRow`. -/
structure Emitted (ι V : Type) where
  table : TableIdentifier
  row : Row V
  now : ι → Int
  append : ι → AppendEnv
  fails : ι → Bool

structure BaselineRun (ι P V : Type) where
  emitted : List (Emitted ι V)
  /-- What `source.Baseline` returns: an error, or a position that may be nil. -/
  result : Option (Option P)
  ctxDone : Bool
  completeFails : ι → Bool
  pids : List ι

def BaselineRun.rowsFor (b : BaselineRun ι P V) (table : TableIdentifier) : List (Row V) :=
  (b.emitted.filter (fun e => decide (e.table = table))).map (·.row)

structure StoredSnapshot (P V : Type) where
  position : Option P
  entries : TableIdentifier → List (Row V)

section

variable [GoValue V]

namespace Member

variable (m : Member P V)

/-- `transitionPipelines` leaves pipelines in ERROR and STOPPED where they are. -/
def transition (st : PipelineState) : Member P V :=
  if m.state = .error ∨ m.state = .stopped then m else { m with state := st }

def stream (st : PipelineState) : Member P V :=
  if m.state = st then { m with state := .streaming, ready := true } else m

/-- `OnInit`, with an error of the target's own or of another kind of target. -/
def onInit (columns : List ColumnDefinition) (fails : Bool) : Member P V :=
  match m.target.onInit columns with
  | .ok target => if fails then { m with state := .error } else { m with target := target }
  | .error _ => { m with state := .error }

def dispatchBaselineRow (p : ResolvedPipeline V) (i : ι) (e : Emitted ι V) : Member P V :=
  if p.table ≠ e.table ∨ m.state ≠ .baselining then m
  else
    match p.baselineRow (e.now i) e.row with
    | none => m
    | some r =>
        if e.fails i then { m with state := .error }
        else { m with target := m.target.apply (e.append i) (.onBaselineRow r) }

/-- The end of the baseline is handed over and `OnBaselineComplete` called. -/
def completeBaseline (position : Option P) (fails : Bool) : Member P V :=
  if m.state ≠ .baselining then m
  else if fails then { m with target := m.target.setChangePosition position, state := .error }
  else { m with target := (m.target.setChangePosition position).onBaselineComplete }

def validate (p : ResolvedPipeline V) (sourceCount : Nat) : Member P V :=
  if m.state ≠ .baselining then m
  else
    let targetCount := m.target.count
    let m' := { m with validation := some (sourceCount, targetCount) }
    if sourceCount = targetCount then m'
    else
      match p.validationAction with
      | .warn => m'
      | .reBaseline | .fail => { m' with state := .error }

end Member

namespace Fleet

variable (f : Fleet ι P V)

def each (g : ι → Member P V → Member P V) : Fleet ι P V :=
  { f with member := fun i => g i (f.member i) }

def transitionPipelines (st : PipelineState) : Fleet ι P V := f.each fun _ m => m.transition st

def dispatchBaselineRow (c : Config ι P V) (e : Emitted ι V) : Fleet ι P V :=
  f.each fun i m => m.dispatchBaselineRow (c.pipeline i) i e

variable [DecidableEq ι]

/-- The last loop of `runBaseline`, and the acknowledgement after it; what is acknowledged
to the source is `lastAcked` of the tracker when it has advanced. -/
def finishBaseline (c : Config ι P V) (position : Option P) (pids : List ι) : Fleet ι P V where
  member i := (f.member i).stream .baselining
  tracker :=
    let through := c.pipelineIdxs.filter (fun i => decide ((f.member i).state = .baselining))
    ((through.foldl (fun tr i => tr.confirm i position) f.tracker).ackPosition c.order pids).2

def runBaseline (c : Config ι P V) (b : BaselineRun ι P V) : Option P × Fleet ι P V :=
  let loaded := b.emitted.foldl (fun f e => f.dispatchBaselineRow c e)
    (f.transitionPipelines .baselining)
  match b.result with
  | none => (none, if b.ctxDone then loaded else loaded.transitionPipelines .error)
  | some position =>
      let completed := loaded.each fun i m => m.completeBaseline position (b.completeFails i)
      let validated := completed.each fun i m =>
        m.validate (c.pipeline i) (b.rowsFor (c.pipeline i).table).length
      (position, validated.finishBaseline c position b.pids)

def restoreTargets (c : Config ι P V) (snapshot : StoredSnapshot P V) (fails : ι → Bool) :
    List ι → Fleet ι P V → Bool × Fleet ι P V
  | [], f => (true, f)
  | i :: rest, f =>
      if (f.member i).state ≠ .initializing then restoreTargets c snapshot fails rest f
      else if fails i then (false, f)
      else
        let restored := { f.member i with
          target := (f.member i).target.restoreSnapshot (snapshot.entries (c.pipeline i).table) }
        restoreTargets c snapshot fails rest
          { f with member := Function.update f.member i restored }

/-- `trySnapshotRestore(source)`: the position to resume from, or nil. There is no snapshot
when the store is empty or cannot be read. -/
def trySnapshotRestore (c : Config ι P V) (snapshot : Option (StoredSnapshot P V))
    (fails : ι → Bool) : Option P × Fleet ι P V :=
  match snapshot with
  | none => (none, f)
  | some snapshot =>
      match snapshot.position with
      | none => (none, f)
      | some resumePos =>
          match restoreTargets c snapshot fails c.pipelineIdxs f with
          | (false, restored) => (none, restored)
          | (true, restored) => (some resumePos, restored.each fun _ m => m.stream .initializing)

def Streams (c : Config ι P V) (f f' : Fleet ι P V) : Prop :=
  ∃ (s : State ι P V) (ops : ι → List (Op P V × AppendEnv)), Transition.Run (Step c)
      (State.start (fun i => (f.member i).state) f.tracker) s ∧
    s.streamDone = true ∧ (∀ i, s.consumer i = .exited) ∧
    (∀ i, (ops i).map Prod.fst = (s.log i).flatMap LogEntry.ops) ∧
    f' = { member := fun i =>
             { f.member i with state := s.pstate i, target := (f.member i).target.run (ops i) }
           tracker := s.tracker }

end Fleet

inductive Phase (P : Type)
  | init
  | resume
  | restore
  | baseline
  /-- In the stream from `position`; a stream that was resumed falls back to a restore, any
  other one to a baseline. -/
  | stream (position : P) (resumed : Bool)
  | done

structure Life (ι P V : Type) where
  fleet : Fleet ι P V
  phase : Phase P

inductive LifeAct (ι P V : Type)
  | initFails
  | init (schemas : TableIdentifier → List ColumnDefinition) (fails : ι → Bool)
  | resume (lastPos : P)
  | noResume
  | restore (snapshot : Option (StoredSnapshot P V)) (fails : ι → Bool)
  | baseline (b : BaselineRun ι P V)
  | reBaseline
  | streamFails
  | streamEnds

variable [DecidableEq ι] (c : Config ι P V)

inductive LifeStep (l : Life ι P V) : LifeAct ι P V → Life ι P V → Prop
  | initFails (hphase : l.phase = .init) :
      LifeStep l .initFails ⟨l.fleet.transitionPipelines .error, .done⟩
  | init (schemas : TableIdentifier → List ColumnDefinition) (fails : ι → Bool)
      (hphase : l.phase = .init) : LifeStep l (.init schemas fails)
        ⟨l.fleet.each fun i m => m.onInit (schemas (c.pipeline i).table) (fails i), .resume⟩
  | resume (lastPos : P) (hphase : l.phase = .resume) : LifeStep l (.resume lastPos)
      ⟨l.fleet.each fun _ m => m.stream .initializing, .stream lastPos true⟩
  | noResume (hphase : l.phase = .resume) : LifeStep l .noResume ⟨l.fleet, .restore⟩
  | restored (snapshot : Option (StoredSnapshot P V)) (fails : ι → Bool) {pos : P}
      {f : Fleet ι P V} (hphase : l.phase = .restore)
      (hrestore : l.fleet.trySnapshotRestore c snapshot fails = (some pos, f)) :
      LifeStep l (.restore snapshot fails) ⟨f, .stream pos false⟩
  | notRestored (snapshot : Option (StoredSnapshot P V)) (fails : ι → Bool) {f : Fleet ι P V}
      (hphase : l.phase = .restore)
      (hrestore : l.fleet.trySnapshotRestore c snapshot fails = (none, f)) :
      LifeStep l (.restore snapshot fails) ⟨f, .baseline⟩
  | baselined (b : BaselineRun ι P V) {pos : P} {f : Fleet ι P V} (hphase : l.phase = .baseline)
      (hbaseline : l.fleet.runBaseline c b = (some pos, f)) :
      LifeStep l (.baseline b) ⟨f, .stream pos false⟩
  | notBaselined (b : BaselineRun ι P V) {f : Fleet ι P V} (hphase : l.phase = .baseline)
      (hbaseline : l.fleet.runBaseline c b = (none, f)) : LifeStep l (.baseline b) ⟨f, .done⟩
  | reBaseline {pos : P} {resumed : Bool} {f : Fleet ι P V} (hphase : l.phase = .stream pos resumed)
      (hstream : l.fleet.Streams c f) :
      LifeStep l .reBaseline ⟨f, if resumed then .restore else .baseline⟩
  | streamFails {pos : P} {resumed : Bool} {f : Fleet ι P V}
      (hphase : l.phase = .stream pos resumed)
      (hstream : l.fleet.Streams c f) :
      LifeStep l .streamFails ⟨f.transitionPipelines .error, .done⟩
  | streamEnds {pos : P} {resumed : Bool} {f : Fleet ι P V} (hphase : l.phase = .stream pos resumed)
      (hstream : l.fleet.Streams c f) : LifeStep l .streamEnds ⟨f, .done⟩

structure Life.Fresh (l : Life ι P V) : Prop where
  phase : l.phase = .init
  state : ∀ i, (l.fleet.member i).state = .initializing
  rows : ∀ i, (l.fleet.member i).target.rows = ∅
  tracker : l.fleet.tracker = .new

end

end Laredo.Engine
