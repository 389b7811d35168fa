import Laredo.Engine.AckTracker
import Laredo.Engine.Pipeline

/-!
# Session

The streaming session of one source (`streamFromPosition` in `engine.go`) as a labelled transition
system of several goroutines: the **dispatcher** (`dispatchToBuffers`,
`dispatchHeartbeatToBuffers`), a **consumer** for every pipeline (`runPipelineConsumer`), an **error
policy** (`applyErrorPolicy`) run by whichever of them failed, and calls of `Pause`, `Resume` and
`Reload`.

A step is what one goroutine does between two accesses to what it shares with the others, so a check
of a pipeline's state and what follows from it are different steps.
-/

namespace Laredo.Engine

structure Config (ι P V : Type) where
  order : PositionOrder P
  pipelineIdxs : List ι
  nodup : pipelineIdxs.Nodup
  complete : ∀ i, i ∈ pipelineIdxs
  pipeline : ι → ResolvedPipeline V

inductive Item (P V : Type)
  | change (event : ChangeEvent P V)
  | heartbeat (position : Option P)

namespace Item

variable {P V : Type}

def position : Item P V → Option P
  | change e => e.position
  | heartbeat pos => pos

def change? : Item P V → Option (ChangeEvent P V)
  | change e => some e
  | heartbeat _ => none

def For (p : ResolvedPipeline V) : Item P V → Prop
  | change e => p.table = e.table
  | heartbeat _ => True

instance (p : ResolvedPipeline V) (x : Item P V) : Decidable (x.For p) := by
  cases x with
  | change e => exact inferInstanceAs (Decidable (p.table = e.table))
  | heartbeat pos => exact inferInstanceAs (Decidable True)

/-- The send waits for room: `BufferBlock`, and heartbeats under every policy. -/
def Blocks (p : ResolvedPipeline V) : Item P V → Prop
  | change _ => p.bufferPolicy = .block
  | heartbeat _ => True

end Item

/-- Where the source's handler is. -/
inductive Dispatcher (ι P V : Type)
  | idle
  | scan (x : Item P V) (rest : List ι)
  | send (x : Item P V) (i : ι) (rest : List ι)
  /-- `SendDropOldest` found the buffer full and is about to receive from it. -/
  | evict (x : Item P V) (i : ι) (rest : List ι)
  | resend (x : Item P V) (i : ι) (rest : List ι)
  | policy (x : Item P V) (i : ι) (rest : List ι)
  /-- `SendCtx` gave up on `i` and the handler returned the context's error: the source
  ends its stream, and `i` and `rest` were not served. -/
  | aborted (x : Item P V) (i : ι) (rest : List ι)
  /-- The error policy stopped the engine and the handler returned an error: `rest` was
  not served. -/
  | refused (x : Item P V) (rest : List ι)

/-- Where the consumer of a pipeline is. -/
inductive Consumer (P V : Type)
  | receive
  | dequeued (x : Item P V)
  | applying (e : ChangeEvent P V) (attempt : Nat)
  | backoff (e : ChangeEvent P V) (attempt : Nat)
  | failed (e : ChangeEvent P V)
  | policy (e : ChangeEvent P V)
  | confirming (pos : Option P)
  | acking
  | sendAck (q : P)
  | exited

inductive Thread (ι : Type)
  | dispatcher
  | consumer (i : ι)
  | elsewhere (n : Nat)
  deriving DecidableEq

/-- What `applyErrorPolicy` has yet to do. -/
inductive PolicyOp (ι : Type)
  | check (i : ι)
  | store (i : ι)
  | skip (i : ι)
  | cancel
  deriving DecidableEq

inductive Reload (ι P V : Type)
  | idle
  | collect (table : TableIdentifier) (rest found : List ι)
  | baselining (found rest : List ι)
  | truncating (found rest : List ι)
  | reading (found : List ι)
  | rows (found : List ι) (pos : P) (rows : List (Row V))
  | row (found : List ι) (pos : P) (r : Row V) (rest : List ι) (rows : List (Row V))
  | completing (found : List ι) (pos : P) (rest : List ι)
  | streaming (pos : P) (rest : List ι)
  | storing (pos : P) (i : ι) (rest : List ι)
  | failing (rest : List ι)

/-- The engine while a source streams. -/
structure State (ι P V : Type) where
  pstate : ι → PipelineState
  tracker : AckTracker ι P
  buf : ι → List (Item P V)
  dispatcher : Dispatcher ι P V
  consumer : ι → Consumer P V
  ops : Thread ι → List (PolicyOp ι)
  ctxDone : Bool
  streamDone : Bool
  stopAck : Option P
  /-- Transitions that running calls of `Pause` and `Resume` have decided on. -/
  admin : List (ι × PipelineState)
  reload : Reload ι P V
  sourcePaused : Bool
  delivered : List (Item P V)
  log : ι → List (LogEntry P V)

inductive Act (ι P V : Type)
  | deliver (x : Item P V)
  | dispatch
  | turnAway (i : ι) (x : Item P V)
  | streamEnd
  | consume (i : ι)
  | discard (i : ι) (x : Item P V)
  | policy (t : Thread ι)
  | stopAll (n : Nat)
  | halt (i : ι)
  | cancel
  | finalAck
  | pauseSource
  | resumeSource
  | pauseCheck (i : ι)
  | resumeCheck (i : ι)
  | store (i : ι) (st : PipelineState)
  | reload
  | snapshot (pos : P) (rows : List (Row V))

section

variable {ι P V : Type} [DecidableEq ι] (c : Config ι P V)

def Config.policyOps (i : ι) : List (PolicyOp ι) :=
  match (c.pipeline i).errorPolicy with
  | .isolate => [.store i, .skip i]
  | .stopSource => c.pipelineIdxs.map .check
  | .stopAll => c.pipelineIdxs.map .check ++ [.cancel]

def Config.Admits (s : State ι P V) (i : ι) (x : Item P V) : Prop :=
  x.For (c.pipeline i) ∧ s.pstate i = .streaming

instance (s : State ι P V) (i : ι) (x : Item P V) : Decidable (c.Admits s i x) :=
  inferInstanceAs (Decidable (_ ∧ _))

namespace State

variable (s : State ι P V)

@[simp] def setState (i : ι) (st : PipelineState) : State ι P V :=
  { s with pstate := Function.update s.pstate i st }

@[simp] def setConsumer (i : ι) (pc : Consumer P V) : State ι P V :=
  { s with consumer := Function.update s.consumer i pc }

@[simp] def setBuf (i : ι) (xs : List (Item P V)) : State ι P V :=
  { s with buf := Function.update s.buf i xs }

@[simp] def setOps (t : Thread ι) (ops : List (PolicyOp ι)) : State ι P V :=
  { s with ops := Function.update s.ops t ops }

@[simp] def record (i : ι) (entry : LogEntry P V) : State ι P V :=
  { s with log := Function.update s.log i (s.log i ++ [entry]) }

omit [DecidableEq ι]

@[simp] def setDispatcher (pc : Dispatcher ι P V) : State ι P V := { s with dispatcher := pc }

@[simp] def setTracker (tr : AckTracker ι P) : State ι P V := { s with tracker := tr }

@[simp] def setReload (pc : Reload ι P V) : State ι P V := { s with reload := pc }

@[simp] def setSourcePaused (paused : Bool) : State ι P V := { s with sourcePaused := paused }

@[simp] def setAdmin (admin : List (ι × PipelineState)) : State ι P V := { s with admin := admin }

@[simp] def offer (x : Item P V) : State ι P V := { s with delivered := s.delivered ++ [x] }

@[simp] def cancelCtx : State ι P V := { s with ctxDone := true }

end State

/-! ### The dispatcher -/

inductive DispatchStep (s : State ι P V) : State ι P V → Prop
  | pass {x : Item P V} {i : ι} {rest : List ι} (hpc : s.dispatcher = .scan x (i :: rest))
      (hgate : c.Admits s i x) : DispatchStep s (s.setDispatcher (.send x i rest))
  | send {x : Item P V} {i : ι} {rest : List ι} (hpc : s.dispatcher = .send x i rest)
      (hroom : (s.buf i).length < (c.pipeline i).capacity) :
      DispatchStep s ((s.setBuf i (s.buf i ++ [x])).setDispatcher (.scan x rest))
  | cancelled {x : Item P V} {i : ι} {rest : List ι} (hpc : s.dispatcher = .send x i rest)
      (hblocks : x.Blocks (c.pipeline i)) (hctx : s.ctxDone = true) :
      DispatchStep s (s.setDispatcher (.aborted x i rest))
  | full {x : Item P V} {i : ι} {rest : List ι} (hpc : s.dispatcher = .send x i rest)
      (hblocks : ¬ x.Blocks (c.pipeline i)) (hpolicy : (c.pipeline i).bufferPolicy = .dropOldest)
      (hfull : (c.pipeline i).capacity ≤ (s.buf i).length) :
      DispatchStep s (s.setDispatcher (.evict x i rest))
  | evict {x y : Item P V} {i : ι} {rest : List ι} {ys : List (Item P V)}
      (hpc : s.dispatcher = .evict x i rest)
      (hpolicy : (c.pipeline i).bufferPolicy = .dropOldest) (hbuf : s.buf i = y :: ys) :
      DispatchStep s ((s.setBuf i ys).setDispatcher (.resend x i rest))
  | resend {x : Item P V} {i : ι} {rest : List ι} (hpc : s.dispatcher = .resend x i rest)
      (hroom : (s.buf i).length < (c.pipeline i).capacity) :
      DispatchStep s ((s.setBuf i (s.buf i ++ [x])).setDispatcher (.scan x rest))
  | overflow {x : Item P V} {i : ι} {rest : List ι} (hpc : s.dispatcher = .send x i rest)
      (hblocks : ¬ x.Blocks (c.pipeline i)) (hpolicy : (c.pipeline i).bufferPolicy = .error)
      (hfull : (c.pipeline i).capacity ≤ (s.buf i).length) :
      DispatchStep s ((s.setOps .dispatcher (c.policyOps i)).setDispatcher (.policy x i rest))
  | goOn {x : Item P V} {i : ι} {rest : List ι} (hpc : s.dispatcher = .policy x i rest)
      (hops : s.ops .dispatcher = []) (hpolicy : (c.pipeline i).errorPolicy ≠ .stopAll) :
      DispatchStep s (s.setDispatcher (.scan x rest))
  | giveUp {x : Item P V} {i : ι} {rest : List ι} (hpc : s.dispatcher = .policy x i rest)
      (hops : s.ops .dispatcher = []) (hpolicy : (c.pipeline i).errorPolicy = .stopAll) :
      DispatchStep s (s.setDispatcher (.refused x rest))
  | done {x : Item P V} (hpc : s.dispatcher = .scan x []) :
      DispatchStep s (s.setDispatcher .idle)

/-! ### The error policy -/

inductive PolicyStep (t : Thread ι) (s : State ι P V) : State ι P V → Prop
  | checkLive {j : ι} {rest : List (PolicyOp ι)} (hops : s.ops t = .check j :: rest)
      (hlive : s.pstate j ≠ .error ∧ s.pstate j ≠ .stopped) :
      PolicyStep t s (s.setOps t (.store j :: .skip j :: rest))
  | checkDead {j : ι} {rest : List (PolicyOp ι)} (hops : s.ops t = .check j :: rest)
      (hdead : s.pstate j = .error ∨ s.pstate j = .stopped) : PolicyStep t s (s.setOps t rest)
  | store {j : ι} {rest : List (PolicyOp ι)} (hops : s.ops t = .store j :: rest) :
      PolicyStep t s ((s.setOps t rest).setState j .error)
  | skip {j : ι} {rest : List (PolicyOp ι)} (hops : s.ops t = .skip j :: rest) :
      PolicyStep t s ((s.setOps t rest).setTracker (s.tracker.skip j))
  | cancel {rest : List (PolicyOp ι)} (hops : s.ops t = .cancel :: rest) :
      PolicyStep t s (s.setOps t rest).cancelCtx

/-! ### The consumers -/

inductive ConsumeStep (i : ι) (s : State ι P V) : State ι P V → Prop
  | receive {x : Item P V} {xs : List (Item P V)} (hpc : s.consumer i = .receive)
      (hbuf : s.buf i = x :: xs) : ConsumeStep i s ((s.setBuf i xs).setConsumer i (.dequeued x))
  | exit (hpc : s.consumer i = .receive) (hbuf : s.buf i = []) (hclosed : s.streamDone = true) :
      ConsumeStep i s (s.setConsumer i .exited)
  | beat {pos : Option P} (hpc : s.consumer i = .dequeued (.heartbeat pos))
      (hstate : s.pstate i = .streaming) :
      ConsumeStep i s (s.setConsumer i
        (if (c.pipeline i).durable then .confirming pos else .receive))
  | begin {e : ChangeEvent P V} (hpc : s.consumer i = .dequeued (.change e))
      (hstate : s.pstate i = .streaming) : ConsumeStep i s (s.setConsumer i (.applying e 0))
  | applied {e : ChangeEvent P V} {n : Nat} (now : Int) (hpc : s.consumer i = .applying e n) :
      ConsumeStep i s
        ((s.record i (.change e ((c.pipeline i).applyChangeToTarget now e))).setConsumer i
          (if (c.pipeline i).durable then .confirming e.position else .acking))
  | retry {e : ChangeEvent P V} {n : Nat} (hpc : s.consumer i = .applying e n)
      (hleft : n < (c.pipeline i).maxRetries) :
      ConsumeStep i s (s.setConsumer i (.backoff e (n + 1)))
  | again {e : ChangeEvent P V} {n : Nat} (hpc : s.consumer i = .backoff e n) :
      ConsumeStep i s (s.setConsumer i (.applying e n))
  | cancelled {e : ChangeEvent P V} {n : Nat} (hpc : s.consumer i = .backoff e n)
      (hctx : s.ctxDone = true) : ConsumeStep i s (s.setConsumer i (.failed e))
  | exhausted {e : ChangeEvent P V} {n : Nat} (hpc : s.consumer i = .applying e n)
      (hnone : (c.pipeline i).maxRetries ≤ n) : ConsumeStep i s (s.setConsumer i (.failed e))
  | escalate {e : ChangeEvent P V} (hpc : s.consumer i = .failed e) :
      ConsumeStep i s ((s.setOps (.consumer i) (c.policyOps i)).setConsumer i (.policy e))
  | isolated {e : ChangeEvent P V} (hpc : s.consumer i = .policy e)
      (hops : s.ops (.consumer i) = []) (hpolicy : (c.pipeline i).errorPolicy = .isolate) :
      ConsumeStep i s (s.setConsumer i .receive)
  | stopped {e : ChangeEvent P V} (hpc : s.consumer i = .policy e)
      (hops : s.ops (.consumer i) = []) (hpolicy : (c.pipeline i).errorPolicy ≠ .isolate) :
      ConsumeStep i s (s.setConsumer i .exited).cancelCtx
  | confirm {pos : Option P} (hpc : s.consumer i = .confirming pos) :
      ConsumeStep i s ((s.setConsumer i .acking).setTracker (s.tracker.confirm i pos))
  | settled (pids : List ι) {pos : Option P} {tr : AckTracker ι P} (hpc : s.consumer i = .acking)
      (hpids : pids.Perm c.pipelineIdxs)
      (hack : s.tracker.ackPosition c.order pids = ((pos, false), tr)) :
      ConsumeStep i s ((s.setConsumer i .receive).setTracker (tr))
  | advance (pids : List ι) {q : P} {tr : AckTracker ι P} (hpc : s.consumer i = .acking)
      (hpids : pids.Perm c.pipelineIdxs)
      (hack : s.tracker.ackPosition c.order pids = ((some q, true), tr)) :
      ConsumeStep i s ((s.setConsumer i (.sendAck q)).setTracker (tr))
  | ack {q : P} (hpc : s.consumer i = .sendAck q) : ConsumeStep i s (s.setConsumer i .receive)

/-! ### Reload -/

inductive ReloadStep (s : State ι P V) : Act ι P V → State ι P V → Prop
  | start (table : TableIdentifier) (hpc : s.reload = .idle) :
      ReloadStep s .reload (s.setReload (.collect table c.pipelineIdxs []))
  | affected {table : TableIdentifier} {i : ι} {rest found : List ι}
      (hpc : s.reload = .collect table (i :: rest) found) (htable : (c.pipeline i).table = table)
      (hstate : s.pstate i = .streaming ∨ s.pstate i = .paused) :
      ReloadStep s .reload (s.setReload (.collect table rest (found ++ [i])))
  | unaffected {table : TableIdentifier} {i : ι} {rest found : List ι}
      (hpc : s.reload = .collect table (i :: rest) found)
      (hnot : ¬ ((c.pipeline i).table = table ∧ (s.pstate i = .streaming ∨ s.pstate i = .paused))) :
      ReloadStep s .reload (s.setReload (.collect table rest found))
  | refused {table : TableIdentifier} {found : List ι} (hpc : s.reload = .collect table [] found) :
      ReloadStep s .reload (s.setReload .idle)
  | pauseSource {table : TableIdentifier} {found : List ι}
      (hpc : s.reload = .collect table [] found) (hfound : found ≠ []) :
      ReloadStep s .reload ((s.setReload (.baselining found found)).setSourcePaused true)
  | baselining {i : ι} {found rest : List ι} (hpc : s.reload = .baselining found (i :: rest)) :
      ReloadStep s .reload ((s.setState i .baselining).setReload (.baselining found rest))
  | toTruncate {found : List ι} (hpc : s.reload = .baselining found []) :
      ReloadStep s .reload (s.setReload (.truncating found found))
  | truncate {i : ι} {found rest : List ι} (hpc : s.reload = .truncating found (i :: rest)) :
      ReloadStep s .reload ((s.record i .truncated).setReload (.truncating found rest))
  | truncateFails {i : ι} {found rest : List ι} (hpc : s.reload = .truncating found (i :: rest)) :
      ReloadStep s .reload ((s.setState i .error).setReload (.truncating found rest))
  | toRead {found : List ι} (hpc : s.reload = .truncating found []) :
      ReloadStep s .reload (s.setReload (.reading found))
  | snapshot {found : List ι} (pos : P) (rows : List (Row V)) (hpc : s.reload = .reading found) :
      ReloadStep s (.snapshot pos rows) (s.setReload (.rows found pos rows))
  | readFails {found : List ι} {pos : P} {rows : List (Row V)}
      (hpc : s.reload = .reading found ∨ s.reload = .rows found pos rows) :
      ReloadStep s .reload ((s.setReload (.failing found)).setSourcePaused false)
  | fail {i : ι} {rest : List ι} (hpc : s.reload = .failing (i :: rest)) :
      ReloadStep s .reload ((s.setState i .error).setReload (.failing rest))
  | failed (hpc : s.reload = .failing []) : ReloadStep s .reload (s.setReload .idle)
  | nextRow {found : List ι} {pos : P} {r : Row V} {rows : List (Row V)}
      (hpc : s.reload = .rows found pos (r :: rows)) :
      ReloadStep s .reload (s.setReload (.row found pos r found rows))
  | putRow {found rest : List ι} {pos : P} {r r' : Row V} {rows : List (Row V)} {i : ι} (now : Int)
      (hpc : s.reload = .row found pos r (i :: rest) rows) (hstate : s.pstate i = .baselining)
      (hrow : (c.pipeline i).baselineRow now r = some r') :
      ReloadStep s .reload
        ((s.record i (.baselineRow r')).setReload (.row found pos r rest rows))
  | skipRow {found rest : List ι} {pos : P} {r : Row V} {rows : List (Row V)} {i : ι} (now : Int)
      (hpc : s.reload = .row found pos r (i :: rest) rows)
      (hskip : s.pstate i ≠ .baselining ∨ (c.pipeline i).baselineRow now r = none) :
      ReloadStep s .reload (s.setReload (.row found pos r rest rows))
  | rowFails {found rest : List ι} {pos : P} {r : Row V} {rows : List (Row V)} {i : ι}
      (hpc : s.reload = .row found pos r (i :: rest) rows) (hstate : s.pstate i = .baselining) :
      ReloadStep s .reload ((s.setState i .error).setReload (.row found pos r rest rows))
  | rowDone {found : List ι} {pos : P} {r : Row V} {rows : List (Row V)}
      (hpc : s.reload = .row found pos r [] rows) :
      ReloadStep s .reload (s.setReload (.rows found pos rows))
  | rowsDone {found : List ι} {pos : P} (hpc : s.reload = .rows found pos []) :
      ReloadStep s .reload (s.setReload (.completing found pos found))
  | complete {found rest : List ι} {pos : P} {i : ι}
      (hpc : s.reload = .completing found pos (i :: rest)) (hstate : s.pstate i = .baselining) :
      ReloadStep s .reload
        ((s.record i (.baselineComplete pos)).setReload (.completing found pos rest))
  | completeFails {found rest : List ι} {pos : P} {i : ι}
      (hpc : s.reload = .completing found pos (i :: rest)) (hstate : s.pstate i = .baselining) :
      ReloadStep s .reload ((s.setState i .error).setReload (.completing found pos rest))
  | completeSkips {found rest : List ι} {pos : P} {i : ι}
      (hpc : s.reload = .completing found pos (i :: rest)) (hstate : s.pstate i ≠ .baselining) :
      ReloadStep s .reload (s.setReload (.completing found pos rest))
  | toStreaming {found : List ι} {pos : P} (hpc : s.reload = .completing found pos []) :
      ReloadStep s .reload (s.setReload (.streaming pos found))
  | checkStreaming {pos : P} {i : ι} {rest : List ι} (hpc : s.reload = .streaming pos (i :: rest))
      (hstate : s.pstate i = .baselining) :
      ReloadStep s .reload (s.setReload (.storing pos i rest))
  | notStreaming {pos : P} {i : ι} {rest : List ι} (hpc : s.reload = .streaming pos (i :: rest))
      (hstate : s.pstate i ≠ .baselining) :
      ReloadStep s .reload (s.setReload (.streaming pos rest))
  | storeStreaming {pos : P} {i : ι} {rest : List ι} (hpc : s.reload = .storing pos i rest) :
      ReloadStep s .reload ((s.setState i .streaming).setReload (.streaming pos rest))
  | resumeSource {pos : P} (hpc : s.reload = .streaming pos []) :
      ReloadStep s .reload ((s.setReload .idle).setSourcePaused false)

/-! ### The session -/

inductive Step : State ι P V → Act ι P V → State ι P V → Prop
  | deliver {s : State ι P V} (x : Item P V) (hidle : s.dispatcher = .idle)
      (hopen : s.streamDone = false) :
      Step s (.deliver x)
        ((s.setDispatcher (.scan x c.pipelineIdxs)).offer x)
  | dispatch {s s' : State ι P V} (h : DispatchStep c s s') : Step s .dispatch s'
  | turnAway {s : State ι P V} {x : Item P V} {i : ι} {rest : List ι}
      (hpc : s.dispatcher = .scan x (i :: rest)) (hgate : ¬ c.Admits s i x) :
      Step s (.turnAway i x) (s.setDispatcher (.scan x rest))
  | streamEnd {s : State ι P V}
      (hpc : s.dispatcher = .idle ∨ (∃ x i rest, s.dispatcher = .aborted x i rest) ∨
        ∃ x rest, s.dispatcher = .refused x rest) :
      Step s .streamEnd { s with streamDone := true }
  | consume {s s' : State ι P V} (i : ι) (h : ConsumeStep c i s s') : Step s (.consume i) s'
  | discard {s : State ι P V} {x : Item P V} (i : ι) (hpc : s.consumer i = .dequeued x)
      (hstate : s.pstate i ≠ .streaming) : Step s (.discard i x) (s.setConsumer i .receive)
  | policy {s s' : State ι P V} (t : Thread ι) (h : PolicyStep t s s') : Step s (.policy t) s'
  | stopAll {s : State ι P V} (n : Nat) (hops : s.ops (.elsewhere n) = []) :
      Step s (.stopAll n) (s.setOps (.elsewhere n) (c.pipelineIdxs.map .check ++ [.cancel]))
  | halt {s : State ι P V} (i : ι) : Step s (.halt i) (s.setState i .error)
  | cancel {s : State ι P V} : Step s .cancel s.cancelCtx
  | finalAck {s : State ι P V} (pids : List ι) {q : P} {tr : AckTracker ι P}
      (hclosed : s.streamDone = true) (hexited : ∀ i, s.consumer i = .exited)
      (hpids : pids.Perm c.pipelineIdxs)
      (hack : s.tracker.ackPosition c.order pids = ((some q, true), tr)) :
      Step s .finalAck { s with tracker := tr, stopAck := some q }
  | pauseSource {s : State ι P V} : Step s .pauseSource (s.setSourcePaused true)
  | resumeSource {s : State ι P V} : Step s .resumeSource (s.setSourcePaused false)
  | pauseCheck {s : State ι P V} (i : ι) (hstate : s.pstate i = .streaming) :
      Step s (.pauseCheck i) (s.setAdmin ((i, .paused) :: s.admin))
  | resumeCheck {s : State ι P V} (i : ι) (hstate : s.pstate i = .paused) :
      Step s (.resumeCheck i) (s.setAdmin ((i, .streaming) :: s.admin))
  | store {s : State ι P V} (i : ι) (st : PipelineState) (hmem : (i, st) ∈ s.admin) :
      Step s (.store i st) ((s.setState i st).setAdmin (s.admin.erase (i, st)))
  | reload {s s' : State ι P V} {a : Act ι P V} (h : ReloadStep c s a s') : Step s a s'

end

end Laredo.Engine
