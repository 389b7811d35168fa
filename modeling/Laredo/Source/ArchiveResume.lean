import Laredo.Engine.AckTracker
import Laredo.Source.ArchiveReread

/-!
# Archive resume

An engine over the archive source (`source/archive/archive.go`, `engine.go`), and what a crash
leaves: the position in the state file and the target.
-/

namespace Laredo.Archive

open Comparator Transition List Option
open Snapshotter (Artifact Manifest Change Reader Config Origin World rowKey foldChanges)
open Engine (AckTracker)

variable {B V : Type} [GoValue V]

/-- `ComparePositions`: a position that is not a string is compared as the empty one. -/
def positionOrder (c : Comparator String) : PositionOrder String where
  toComparator := c
  comparePositions a b := c.cmp (a.getD "") (b.getD "")
  comparePositions_some _ _ := rfl

inductive Stage
  | idle
  | baselined (position : String)
  | applied (position : Option String)

/-- The writer with its archive, and an engine over the archive source. The last three fields record
history. -/
structure Session (B V : Type) where
  world : World B V
  running : Bool
  cursor : Cursor V
  queue : List (ChangeEvent String V)
  target : Store V
  stage : Stage
  tracker : AckTracker Unit String
  stateFile : Option String
  base : String
  trail : List (Artifact × List (Change V))
  applied : List (ChangeEvent String V)

namespace Session

inductive Act
  | ackBaseline (ok : Bool)
  | apply
  | ack (durable ok : Bool)
  | crash
  | restart

inductive Label (V : Type)
  | writer (a : Snapshotter.Label V)
  | source
  | engine (a : Act)

def init (table : Store V) (position : String) : Session B V where
  world := World.init table position
  running := true
  cursor := ⟨.start, ""⟩
  queue := []
  target := ∅
  stage := .idle
  tracker := .new
  stateFile := none
  base := ""
  trail := []
  applied := []

def front (σ : Session B V) : String := endOf σ.base (σ.trail.map Prod.fst)

def take (keyFields : List String) (σ : Session B V) (out : Output V) (c : Cursor V) :
    Session B V :=
  { σ with
    cursor := c
    queue := match out with
      | .event ev => σ.queue ++ [ev]
      | _ => σ.queue
    target := match out with
      | .rows rows => KeyedMap.load (fun row => rowKey keyFields (some row)) σ.target rows
      | _ => σ.target
    stage := match out with
      | .rows _ => .baselined c.position
      | _ => σ.stage
    base := match out with
      | .rows _ => c.position
      | _ => σ.base
    trail := match σ.cursor.pc, c.pc with
      -- what was read before the crash is not recorded again
      | .draining (d :: _), .emitting _ changes _ =>
          if σ.front = σ.cursor.position then σ.trail ++ [(d, changes)] else σ.trail
      | _, _ => σ.trail }

/-- `Confirm`, unless the target is not durable, then `AckPosition` and `Ack`. -/
def confirm (c : Comparator String) (durable ok : Bool) (pos : Option String)
    (σ : Session B V) : Session B V :=
  let tracker := if durable then σ.tracker.confirm () pos else σ.tracker
  let r := tracker.ackPosition (positionOrder c) [()]
  { σ with
    stage := .idle
    tracker := r.2
    stateFile := if r.1.2 ∧ ok then r.1.1 else σ.stateFile }

inductive Acts (src : Source B V) (c : Comparator String) (σ : Session B V) :
    Act → Session B V → Prop
  | ackBaseline {ok : Bool} {p : String} (hup : σ.running = true)
      (hstage : σ.stage = .baselined p) :
      Acts src c σ (.ackBaseline ok) (σ.confirm c true ok (some p))
  | apply {ev : ChangeEvent String V} {rest : List (ChangeEvent String V)}
      (hup : σ.running = true) (hstage : σ.stage = .idle) (hqueue : σ.queue = ev :: rest) :
      Acts src c σ .apply
        { σ with
          queue := rest
          target := applyEvent src.keyFields σ.target ev
          stage := .applied ev.position
          applied := σ.applied ++ [ev] }
  | ack {durable ok : Bool} {pos : Option String} (hup : σ.running = true)
      (hstage : σ.stage = .applied pos) :
      Acts src c σ (.ack durable ok) (σ.confirm c durable ok pos)
  | crash : Acts src c σ .crash
      { σ with running := false, queue := [], stage := .idle, tracker := .new }
  /-- `LastAckedPosition` gives the position in the state file, and `Stream` starts there. -/
  | restart {p : String} (hdown : σ.running = false) (hfile : σ.stateFile = some p) (hne : p ≠ "") :
      Acts src c σ .restart { σ with running := true, cursor := ⟨.polling, p⟩ }

inductive Step (cfg : Config B V) (src : Source B V) (c : Comparator String) (n : String)
    (σ : Session B V) : Label V → Session B V → Prop
  | writer {a : Snapshotter.Label V} {w : World B V} (hs : Snapshotter.Step cfg σ.world a w) :
      Step cfg src c n σ (.writer a) { σ with world := w }
  | source {out : Output V} {cur : Cursor V} (hup : σ.running = true)
      (hready : ∀ p, σ.stage ≠ .baselined p)
      (hmove : Move src (σ.world.destinations n) σ.cursor out cur) :
      Step cfg src c n σ .source (σ.take src.keyFields out cur)
  | engine {a : Act} {σ' : Session B V} (hacts : Acts src c σ a σ') :
      Step cfg src c n σ (.engine a) σ'

/-- The change that was applied last is the last one of its diff: no further event has its
position, neither in the buffer nor in the hands of `drain`. -/
def AtDiffEnd (σ : Session B V) : Prop :=
  ∀ pos, σ.stage = .applied pos → (∀ ev ∈ σ.queue, ev.position ≠ pos) ∧
    ∀ d ch changes diffs, σ.cursor.pc = .emitting d (ch :: changes) diffs → some d.toPosition ≠ pos

/-- The runs considered here: those of the writer in which plans lead to the head and no object
is overwritten that the source is about to read; and the source is not baselined again. -/
def Orderly (cfg : Config B V) (o : Origin V cfg.keyFields) (σ : Session B V) : Label V → Prop
  | .writer a => σ.world.Plannable cfg o a ∧ ∀ d ∈ σ.cursor.pc.pending, σ.world.Spares cfg d a
  | .source => σ.cursor.pc ≠ .rebaseline
  | .engine _ => True

def Careful (cfg : Config B V) (o : Origin V cfg.keyFields) (σ : Session B V) (a : Label V) :
    Prop :=
  σ.Orderly cfg o a ∧ ∀ ok, a = .engine (.ack true ok) → σ.AtDiffEnd

/-- The position is one at which a diff of the trail ends (or the trail begins), and everything
up to there has been applied: `rest` is what is still to be applied. -/
def Covers (src : Source B V) (σ : Session B V) (rest : List (ChangeEvent String V))
    (p : String) : Prop :=
  ∃ done ahead, σ.trail = done ++ ahead ∧ p = endOf σ.base (done.map Prod.fst) ∧
    rest <:+ events src.table ahead

/-- Where the source stands on the trail: it has passed the diffs `done`, and `rest` is what
the consumer and the source have ahead of them. -/
def Standing (cfg : Config B V) (o : Origin V cfg.keyFields) (src : Source B V) (n : String)
    (σ : Session B V) (rest : List (ChangeEvent String V)) : Prop :=
  ∃ done ahead todo, σ.trail = done ++ ahead ∧
    σ.cursor.position = endOf σ.base (done.map Prod.fst) ∧ rest = σ.queue ++ todo ∧
    match σ.cursor.pc with
    | .start | .loaded _ => False
    | .polling | .finished | .failed | .rebaseline => todo = events src.table ahead
    | .draining diffs => todo = events src.table ahead ∧
        Ahead cfg o src n σ.world σ.cursor.position ahead diffs
    | .emitting d changes diffs => ∃ sent ahead', ahead = (d, sent ++ changes) :: ahead' ∧
        todo = eventsOf src.table (d, changes) ++ events src.table ahead' ∧
        Ahead cfg o src n σ.world d.toPosition ahead' diffs

def Staged (src : Source B V) (σ : Session B V) (rest : List (ChangeEvent String V)) : Prop :=
  match σ.stage with
  | .idle => True
  | .baselined p => p = σ.base
  | .applied pos => ∃ done e ahead ev tail, σ.trail = done ++ e :: ahead ∧
      pos = some e.1.toPosition ∧ ev :: tail <:+ eventsOf src.table e ∧
      rest = tail ++ events src.table ahead

structure Synced (cfg : Config B V) (o : Origin V cfg.keyFields) (src : Source B V) (n : String)
    (σ : Session B V) (rest : List (ChangeEvent String V)) : Prop where
  base : Reached o n σ.world σ.base
  chain : Linked o.order σ.base (σ.trail.map Prod.fst) σ.front
  kept : ∀ e ∈ σ.trail, Kept src o n σ.world e
  catches : Overwrite.CatchesUp (applyEvent src.keyFields) (events src.table σ.trail) rest
    (σ.world.tableAt o σ.front) σ.target
  past : ∃ pre, events src.table σ.trail = pre ++ rest ∧ ∀ ev ∈ pre, ev ∈ σ.applied
  file : ∀ p, σ.stateFile = some p → σ.Covers src rest p
  confirmed : ∀ pos, σ.tracker.positions () = some pos → ∃ p, pos = some p ∧ σ.Covers src rest p
  staged : σ.Staged src rest
  standing : σ.running = true → σ.Standing cfg o src n rest
  down : σ.running = false →
    σ.queue = [] ∧ σ.stage = .idle ∧ σ.tracker.positions () = none

structure Fresh (n : String) (σ : Session B V) : Prop where
  trail : σ.trail = []
  queue : σ.queue = []
  target : σ.target = ∅
  stage : σ.stage = .idle
  confirmed : σ.tracker.positions () = none
  file : σ.stateFile = none
  pc : match σ.cursor.pc with
    | .start | .failed => True
    | .loaded _ => ∃ m, (σ.world.destinations n).manifest = some m
    | _ => False

structure Lost {cfg : Config B V} (o : Origin V cfg.keyFields) (n : String) (σ : Session B V) :
    Prop where
  stranded : Stranded o n σ.world σ.base
  queue : σ.queue = []
  stage : ∀ pos, σ.stage ≠ .applied pos
  baselined : ∀ p, σ.stage = .baselined p → p = σ.base
  file : ∀ p, σ.stateFile = some p → p = σ.base
  confirmed : ∀ pos, σ.tracker.positions () = some pos → pos = some σ.base
  position : σ.cursor.position = σ.base
  pc : match σ.cursor.pc with
    | .polling | .finished | .failed | .rebaseline => True
    | _ => False

structure Safe (cfg : Config B V) (o : Origin V cfg.keyFields) (src : Source B V) (n : String)
    (σ : Session B V) : Prop where
  growing : σ.world.Growing cfg o
  filing : σ.world.Filing cfg
  session : σ.Fresh n ∨ σ.Lost o n ∨ ∃ rest, σ.Synced cfg o src n rest

variable {cfg : Config B V} {o : Origin V cfg.keyFields} {src : Source B V} {n p : String}
variable {σ : Session B V} {w : World B V} {rest rest' : List (ChangeEvent String V)}

lemma Safe.init : Safe cfg o src n (Session.init o.table o.position) :=
  ⟨World.Growing.init, World.Filing.init, .inl ⟨rfl, rfl, rfl, rfl, rfl, rfl, trivial⟩⟩

variable {a : Snapshotter.Label V}

lemma Standing.writer (h : σ.Standing cfg o src n rest) (hinv : σ.world.Growing cfg o)
    (hn : n ∈ cfg.destinations) (hr : src.reader.Decodes cfg)
    (hok : σ.world.Plannable cfg o a) (hspare : ∀ d ∈ σ.cursor.pc.pending, σ.world.Spares cfg d a)
    (hs : Snapshotter.Step cfg σ.world a w) :
    Standing cfg o src n { σ with world := w } rest := by
  obtain ⟨done, ahead, todo, htrl, hpos, hrest, hpc⟩ := h
  refine ⟨done, ahead, todo, htrl, hpos, hrest, ?_⟩
  cases hcas : σ.cursor.pc with
  | start | loaded => simp only [hcas] at hpc
  | polling | finished | failed | rebaseline => simpa only [hcas] using hpc
  | draining diffs =>
    simp only [hcas] at hpc hspare
    exact ⟨hpc.1, hpc.2.step hinv hn hr hok hspare hs⟩
  | emitting d changes diffs =>
    simp only [hcas] at hpc hspare
    obtain ⟨sent, ahead', hahead, htodo, hstill⟩ := hpc
    exact ⟨sent, ahead', hahead, htodo, hstill.step hinv hn hr hok hspare hs⟩

lemma Synced.reached_front (h : σ.Synced cfg o src n rest) : Reached o n σ.world σ.front := by
  have hbase := h.base
  have hkept := h.kept
  unfold front
  rcases eq_nil_or_concat σ.trail with htrl | ⟨trail, e, htrl⟩
  · simpa only [htrl, map_nil, endOf_nil] using hbase
  · rw [htrl] at hkept ⊢
    rw [concat_eq_append, map_append, map_cons, map_nil, endOf_snoc]
    exact (hkept e (by simp)).reached

lemma Synced.writer (h : σ.Synced cfg o src n rest) (hinv : σ.world.Growing cfg o)
    (hfil : σ.world.Filing cfg) (hn : n ∈ cfg.destinations) (hr : src.reader.Decodes cfg)
    (hok : σ.world.Plannable cfg o a)
    (hspare : ∀ d ∈ σ.cursor.pc.pending, σ.world.Spares cfg d a)
    (hs : Snapshotter.Step cfg σ.world a w) :
    Synced cfg o src n { σ with world := w } rest := by
  have he := Evolves.of_step hinv hn hok hs
  refine ⟨h.base.mono he, h.chain, fun e hmem => (h.kept e hmem).step hinv hfil hn hr hok hs, ?_,
    h.past, h.file, h.confirmed, h.staged, fun hup => ?_, h.down⟩
  · have hcatches := h.catches
    rw [← (he.past _ h.reached_front.known).2] at hcatches
    exact hcatches
  · exact (h.standing hup).writer hinv hn hr hok hspare hs

lemma Fresh.writer (h : σ.Fresh n) (he : Evolves o n σ.world w) :
    Fresh n { σ with world := w } := by
  refine ⟨h.trail, h.queue, h.target, h.stage, h.confirmed, h.file, ?_⟩
  have hpc := h.pc
  cases hcas : σ.cursor.pc with
  | loaded head =>
    simp only [hcas] at hpc
    obtain ⟨m, hm⟩ := hpc
    obtain ⟨m', hm', -⟩ := he.grows m hm
    exact ⟨m', hm'⟩
  | start | failed => trivial
  | _ => simp only [hcas] at hpc

lemma Lost.writer (h : σ.Lost o n) (he : Evolves o n σ.world w) :
    Lost o n { σ with world := w } :=
  ⟨h.stranded.mono he, h.queue, h.stage, h.baselined, h.file, h.confirmed, h.position, h.pc⟩

lemma Safe.writer (h : σ.Safe cfg o src n) (hap : cfg.FormatsApart) (hn : n ∈ cfg.destinations)
    (hr : src.reader.Decodes cfg) (hok : σ.world.Plannable cfg o a)
    (hspare : ∀ d ∈ σ.cursor.pc.pending, σ.world.Spares cfg d a)
    (hs : Snapshotter.Step cfg σ.world a w) : Safe cfg o src n { σ with world := w } := by
  have he := Evolves.of_step h.growing hn hok hs
  refine ⟨h.growing.step hap hok hs, h.filing.step h.growing.toReplayable hap hok hs, ?_⟩
  rcases h.session with hfr | hlost | ⟨rest, hsynced⟩
  · exact .inl (hfr.writer he)
  · exact .inr (.inl (hlost.writer he))
  · exact .inr (.inr ⟨rest, hsynced.writer h.growing h.filing hn hr hok hspare hs⟩)

variable {c : Cursor V} {queue : List (ChangeEvent String V)}

lemma Synced.moved (h : σ.Synced cfg o src n rest) (hup : σ.running = true)
    (hstan : Standing cfg o src n { σ with cursor := c, queue := queue } rest) :
    Synced cfg o src n { σ with cursor := c, queue := queue } rest :=
  ⟨h.base, h.chain, h.kept, h.catches, h.past, h.file, h.confirmed, h.staged, fun _ => hstan,
    fun hdown => nomatch hup.symm.trans hdown⟩

omit [GoValue V] in
lemma Covers.extend (h : σ.Covers src rest p) (d : Artifact) (changes : List (Change V)) :
    Covers src { σ with trail := σ.trail ++ [(d, changes)] }
      (rest ++ eventsOf src.table (d, changes)) p := by
  obtain ⟨done, ahead, htrl, hp, pre, hpre⟩ := h
  refine ⟨done, ahead ++ [(d, changes)], ?_, hp, pre, ?_⟩
  · show σ.trail ++ [(d, changes)] = _
    rw [htrl, append_assoc]
  · simp [← hpre]

omit [GoValue V] in
lemma Staged.extend (h : σ.Staged src rest) (d : Artifact) (changes : List (Change V)) :
    Staged src { σ with trail := σ.trail ++ [(d, changes)] }
      (rest ++ eventsOf src.table (d, changes)) := by
  unfold Staged at h ⊢
  dsimp only
  cases hstg : σ.stage with
  | idle => trivial
  | baselined p => simpa only [hstg] using h
  | applied pos =>
    simp only [hstg] at h
    obtain ⟨done, e, ahead, ev, tail, htrl, hpos, htail, hrest⟩ := h
    refine ⟨done, e, ahead ++ [(d, changes)], ev, tail, ?_, hpos, htail, ?_⟩
    · rw [htrl, append_assoc, cons_append]
    · simp [hrest]

variable {d : Artifact} {changes : List (Change V)}

lemma Synced.read (h : σ.Synced cfg o src n rest) (hn : n ∈ cfg.destinations)
    (hsrc : src.Reads cfg o)
    (hread : src.reader.readDiff (σ.world.destinations n) d = .ok changes)
    (hfrom : d.DiffFrom σ.front) (hlt : o.order.Lt σ.front d.toPosition)
    (hreadable : Readable cfg o n σ.world d) (hplaced : Placed o n σ.world d)
    (hstan : Standing cfg o src n { σ with cursor := c, trail := σ.trail ++ [(d, changes)] }
      (rest ++ eventsOf src.table (d, changes))) :
    Synced cfg o src n { σ with cursor := c, trail := σ.trail ++ [(d, changes)] }
      (rest ++ eventsOf src.table (d, changes)) := by
  obtain ⟨changes', hread', hfiled, hfold⟩ :=
    (hreadable.genuine.sound n hn).readDiff_filed hreadable.filed hsrc.decodes hfrom
  obtain rfl : changes = changes' := Except.ok.inj (hread.symm.trans hread')
  have hfront : front { σ with cursor := c, trail := σ.trail ++ [(d, changes)] } =
      d.toPosition := by
    unfold front
    simp
  refine ⟨h.base, ?_, ?_, ?_, ?_, ?_, ?_, h.staged.extend d changes, fun _ => hstan, h.down⟩
  · rw [hfront, map_append]
    exact h.chain.append ⟨hfrom, hlt, rfl⟩
  · intro e he
    rcases mem_append.mp he with hold | hnew
    · exact h.kept e hold
    · obtain rfl := mem_singleton.mp hnew
      exact ⟨hreadable.reached, hplaced, ⟨_, hfrom, hlt⟩, fun _ _ _ => hread⟩
  · have hcatches := h.catches.extend (eventsOf src.table (d, changes))
    rw [hsrc.keyFields, foldl_eventsOf hfiled, hfold] at hcatches
    rw [hfront, hsrc.keyFields, events_append]
    simpa using hcatches
  · obtain ⟨pre, hpre, hall⟩ := h.past
    refine ⟨pre, ?_, hall⟩
    simp [hpre]
  · intro p hp
    exact (h.file p hp).extend d changes
  · intro pos hpos
    obtain ⟨p, rfl, hcvs⟩ := h.confirmed pos hpos
    exact ⟨p, rfl, hcvs.extend d changes⟩

lemma take_read {diffs : List Artifact} (changes : List (Change V))
    (hpc : σ.cursor.pc = .draining (d :: diffs)) :
    σ.take src.keyFields .nothing { σ.cursor with pc := .emitting d changes diffs } = { σ with
        cursor := { σ.cursor with pc := .emitting d changes diffs }
        trail := if σ.front = σ.cursor.position then σ.trail ++ [(d, changes)] else σ.trail } := by
  unfold take
  simp only [hpc]

variable {done ahead : List (Artifact × List (Change V))}

lemma Synced.chain_ahead (h : σ.Synced cfg o src n rest) (htrl : σ.trail = done ++ ahead) :
    Linked o.order (endOf σ.base (done.map Prod.fst)) (ahead.map Prod.fst) σ.front := by
  have hch := h.chain
  rw [htrl, map_append] at hch
  exact hch.split.2

lemma Synced.drain (h : σ.Synced cfg o src n rest) (hn : n ∈ cfg.destinations)
    (hsrc : src.Reads cfg o) (hup : σ.running = true) {diffs : List Artifact}
    (hpc : σ.cursor.pc = .draining (d :: diffs))
    (hread : src.reader.readDiff (σ.world.destinations n) d = .ok changes) :
    ∃ rest', Synced cfg o src n
      (σ.take src.keyFields .nothing { σ.cursor with pc := .emitting d changes diffs }) rest' := by
  rw [take_read changes hpc]
  obtain ⟨done, ahead, todo, htrl, hpos, hrest, hstands⟩ := h.standing hup
  simp only [hpc] at hstands
  obtain ⟨rfl, hahead⟩ := hstands
  have hch := h.chain_ahead htrl
  rw [← hpos] at hch
  cases ahead with
  | nil =>
    have hfront := Eq.symm hch
    obtain ⟨hfrom, hlt, hnext⟩ := hahead.fresh
    obtain ⟨hreadable, hplaced⟩ := hahead.pending d mem_cons_self
    rw [if_pos hfront]
    rw [← hfront] at hfrom hlt
    refine ⟨_, h.read hn hsrc hread hfrom hlt hreadable hplaced
      ⟨done, [(d, changes)], eventsOf src.table (d, changes), ?_, hpos, ?_, [], [], rfl, ?_, hnext⟩⟩
    · show σ.trail ++ [(d, changes)] = _
      rw [htrl, append_nil]
    · simp [hrest]
    · simp
  | cons e ahead =>
    obtain ⟨rfl, hlt, hagain, hnext⟩ := hahead.repeated
    obtain rfl : e.2 = changes := Except.ok.inj (hagain.symm.trans hread)
    have hbeh : σ.front ≠ σ.cursor.position := by
      intro heq
      rw [heq] at hch
      exact (hlt.trans_le hch.2.2.le).irrefl
    rw [if_neg hbeh]
    exact ⟨rest, h.moved hup ⟨done, e :: ahead, _, htrl, hpos, hrest, [], ahead, rfl, rfl, hnext⟩⟩

variable {out : Output V}

lemma Fresh.move (h : σ.Fresh n) (hinv : σ.world.Growing cfg o) (hn : n ∈ cfg.destinations)
    (hsrc : src.Reads cfg o) (hup : σ.running = true)
    (hmove : Move src (σ.world.destinations n) σ.cursor out c) :
    Fresh n (σ.take src.keyFields out c) ∨ Lost o n (σ.take src.keyFields out c) ∨
      ∃ rest, Synced cfg o src n (σ.take src.keyFields out c) rest := by
  obtain ⟨w, running, ⟨pc, p⟩, queue, target, stage, tracker, file, base, trail, applied⟩ := σ
  obtain ⟨htrl, hq, htgt, hstg, hconf, hfile, hpc₀⟩ := h
  subst htrl hq htgt hstg hfile
  cases hmove with
  | load hpc hm =>
    rcases hpc with rfl | rfl
    · exact .inl ⟨rfl, rfl, rfl, rfl, hconf, rfl, _, Reader.manifest_of_loadManifest hm⟩
    · exact hpc₀.elim
  | loadFailed hpc _ =>
    rcases hpc with rfl | rfl
    · exact .inl ⟨rfl, rfl, rfl, rfl, hconf, rfl, trivial⟩
    · exact hpc₀.elim
  | reconstructFailed hpc _ =>
    obtain rfl := hpc
    exact .inl ⟨rfl, rfl, rfl, rfl, hconf, rfl, trivial⟩
  | @reconstructed head fuel rec hpc hrec =>
    obtain rfl := hpc
    obtain ⟨m, hm⟩ := hpc₀
    obtain ⟨hrd, hrows⟩ := baseline_cases hinv hn hsrc hm hrec
    refine .inr (.inr ⟨[], hrd, rfl, nofun, ?_, ⟨[], rfl, nofun⟩, nofun, ?_, rfl,
      fun _ => ⟨[], [], [], rfl, rfl, rfl, rfl⟩, ?_⟩)
    · show Overwrite.CatchesUp _ [] [] (w.tableAt o rec.position)
        (KeyedMap.load (fun row => rowKey src.keyFields (some row)) ∅ rec.rows)
      rw [← hrows]
      exact Overwrite.CatchesUp.start _ [] _
    · intro pos hpos
      cases hconf.symm.trans hpos
    · intro hdown
      cases hup.symm.trans hdown
  | @empty head fuel hpc hrec =>
    obtain rfl := hpc
    obtain ⟨m, hm⟩ := hpc₀
    have hstrd := baseline_cases hinv hn hsrc hm hrec
    refine .inr (.inl ⟨hstrd, rfl, nofun, ?_, nofun, ?_, rfl, trivial⟩)
    · intro p hp
      cases hp
      rfl
    · intro pos hpos
      cases hconf.symm.trans hpos
  | absent hpc _ _ | streamFailed hpc _ _ | wait hpc _ _ _ | finish hpc _ _ _ | plan hpc _ _ _ _
  | rebase hpc _ _ _ _ | read hpc _ | readFailed hpc _ | emit hpc | next hpc | drained hpc =>
    obtain rfl := hpc
    exact hpc₀.elim

lemma Lost.move (h : σ.Lost o n) (hinv : σ.world.Growing cfg o) (hn : n ∈ cfg.destinations)
    (hsrc : src.Reads cfg o) (hnot : σ.cursor.pc ≠ .rebaseline)
    (hmove : Move src (σ.world.destinations n) σ.cursor out c) :
    Lost o n (σ.take src.keyFields out c) := by
  obtain ⟨w, running, ⟨pc, p⟩, queue, target, stage, tracker, file, base, trail, applied⟩ := σ
  obtain ⟨hstrd, hq, hstg, hbase, hfile, hconf, hpos, hpc₀⟩ := h
  cases hmove with
  | absent hpc _ _ | streamFailed hpc _ _ | wait hpc _ _ _ | finish hpc _ _ _
  | rebase hpc _ _ _ _ =>
    obtain rfl := hpc
    exact ⟨hstrd, hq, hstg, hbase, hfile, hconf, hpos, trivial⟩
  | @plan m fuel plan hpc hload hhead hplan hnone =>
    have hm := Reader.manifest_of_loadManifest hload
    rw [hsrc.cmp] at hplan
    obtain ⟨hlnk, hall⟩ := linked_of_plan hinv hn hm hplan hnone
    obtain rfl : p = base := hpos
    exact (hstrd.not_linked hm hlnk hall).elim
  | load hpc _ | loadFailed hpc _ =>
    rcases hpc with rfl | rfl
    · exact hpc₀.elim
    · exact absurd rfl hnot
  | reconstructed hpc _ | empty hpc _ | reconstructFailed hpc _ | read hpc _ | readFailed hpc _
  | emit hpc | next hpc | drained hpc =>
    obtain rfl := hpc
    exact hpc₀.elim

lemma Synced.move (h : σ.Synced cfg o src n rest) (hinv : σ.world.Growing cfg o)
    (hfil : σ.world.Filing cfg) (hn : n ∈ cfg.destinations) (hsrc : src.Reads cfg o)
    (hup : σ.running = true) (hnot : σ.cursor.pc ≠ .rebaseline)
    (hmove : Move src (σ.world.destinations n) σ.cursor out c) :
    ∃ rest', Synced cfg o src n (σ.take src.keyFields out c) rest' := by
  obtain ⟨w, running, ⟨pc, p⟩, queue, target, stage, tracker, file, base, trail, applied⟩ := σ
  obtain ⟨done, ahead, todo, htrl, hpos, hrest, hpc₀⟩ := h.standing hup
  cases hmove with
  | absent hpc _ _ | streamFailed hpc _ _ | wait hpc _ _ _ | finish hpc _ _ _
  | rebase hpc _ _ _ _ =>
    obtain rfl := hpc
    exact ⟨rest, h.moved hup ⟨done, ahead, todo, htrl, hpos, hrest, hpc₀⟩⟩
  | @plan m fuel plan hpc hload hhead hplan hnone =>
    obtain rfl := hpc
    have hm := Reader.manifest_of_loadManifest hload
    rw [hsrc.cmp] at hplan
    obtain ⟨hlnk, hall⟩ := linked_of_plan hinv hn hm hplan hnone
    have hahead := h.chain_ahead htrl
    rw [← hpos] at hahead
    have hkept : ∀ e ∈ ahead, Kept src o n w e := fun e he =>
      h.kept e (by rw [htrl]; exact mem_append_right _ he)
    exact ⟨rest, h.moved hup ⟨done, ahead, todo, htrl, hpos, hrest, hpc₀,
      Ahead.of_plan hinv hfil hn hm hlnk hall hahead hkept⟩⟩
  | @read d diffs changes hpc hread => exact h.drain hn hsrc hup hpc hread
  | readFailed hpc _ | drained hpc =>
    obtain rfl := hpc
    exact ⟨rest, h.moved hup ⟨done, ahead, todo, htrl, hpos, hrest, hpc₀.1⟩⟩
  | @emit d ch changes diffs hpc =>
    obtain rfl := hpc
    obtain ⟨sent, ahead', hahead, htodo, hstill⟩ := hpc₀
    refine ⟨rest, h.moved hup ⟨done, ahead,
      eventsOf src.table (d, changes) ++ events src.table ahead', htrl, hpos, ?_,
      sent ++ [ch], ahead', ?_, rfl, hstill⟩⟩
    · rw [hrest, htodo, append_assoc]
      rfl
    · rw [hahead, append_assoc]
      rfl
  | @next d diffs hpc =>
    obtain rfl := hpc
    obtain ⟨sent, ahead', hahead, htodo, hstill⟩ := hpc₀
    refine ⟨rest, h.moved hup
      ⟨done ++ [(d, sent ++ [])], ahead', todo, ?_, ?_, hrest, htodo, hstill⟩⟩
    · rw [htrl, hahead, append_assoc]
      rfl
    · simp
  | load hpc _ | loadFailed hpc _ =>
    rcases hpc with rfl | rfl
    · exact hpc₀.elim
    · exact absurd rfl hnot
  | reconstructed hpc _ | empty hpc _ | reconstructFailed hpc _ =>
    obtain rfl := hpc
    exact hpc₀.elim

lemma Safe.move (h : σ.Safe cfg o src n) (hn : n ∈ cfg.destinations) (hsrc : src.Reads cfg o)
    (hup : σ.running = true) (hnot : σ.cursor.pc ≠ .rebaseline)
    (hmove : Move src (σ.world.destinations n) σ.cursor out c) :
    Safe cfg o src n (σ.take src.keyFields out c) := by
  refine ⟨h.growing, h.filing, ?_⟩
  rcases h.session with hfr | hlost | ⟨rest, hsynced⟩
  · exact hfr.move h.growing hn hsrc hup hmove
  · exact .inr (.inl (hlost.move h.growing hn hsrc hnot hmove))
  · exact .inr (.inr (hsynced.move h.growing h.filing hn hsrc hup hnot hmove))

omit [GoValue V] in
lemma Covers.mono (h : σ.Covers src rest p) (hsuf : rest' <:+ rest) : σ.Covers src rest' p := by
  obtain ⟨done, ahead, htrl, hp, hrest⟩ := h
  exact ⟨done, ahead, htrl, hp, hsuf.trans hrest⟩

variable {ev : ChangeEvent String V}

lemma Synced.apply (h : σ.Synced cfg o src n rest) (hup : σ.running = true)
    (hq : σ.queue = ev :: queue) :
    ∃ rest', Synced cfg o src n { σ with
        queue := queue
        target := applyEvent src.keyFields σ.target ev
        stage := .applied ev.position
        applied := σ.applied ++ [ev] } rest' := by
  obtain ⟨done, ahead, todo, htrl, hposi, hrest, hpc⟩ := h.standing hup
  rw [hq, cons_append] at hrest
  subst hrest
  obtain ⟨pre, hpre, hall⟩ := h.past
  have hsuf : queue ++ todo <:+ ev :: (queue ++ todo) := suffix_cons _ _
  refine ⟨queue ++ todo, h.base, h.chain, h.kept, ?_, ⟨pre ++ [ev], ?_, ?_⟩, ?_, ?_, ?_, ?_, ?_⟩
  · exact h.catches.next (applyEvent_absorbs _) ⟨pre, hpre.symm⟩
  · show events src.table σ.trail = _
    rw [hpre, append_assoc]
    rfl
  · intro x hx
    rcases mem_append.mp hx with hx | hx
    · exact mem_append_left _ (hall x hx)
    · exact mem_append_right _ hx
  · intro p hp
    exact (h.file p hp).mono hsuf
  · intro pos hpos
    obtain ⟨p, rfl, hcvs⟩ := h.confirmed pos hpos
    exact ⟨p, rfl, hcvs.mono hsuf⟩
  · obtain ⟨done, e, ahead, tail, htrl, htail, hrest⟩ := exists_entry hpre
    exact ⟨done, e, ahead, ev, tail, htrl,
      position_of_mem (htail.subset mem_cons_self), htail, hrest⟩
  · exact fun _ => ⟨done, ahead, todo, htrl, hposi, rfl, hpc⟩
  · intro hdown
    cases hup.symm.trans hdown

omit [GoValue V] in
lemma confirm_inv (σ : Session B V) (c : Comparator String) (durable ok : Bool)
    (pos : Option String) :
    (∀ pos', (σ.confirm c durable ok pos).tracker.positions () = some pos' →
      durable = true ∧ pos' = pos ∨ σ.tracker.positions () = some pos') ∧
    ∀ p, (σ.confirm c durable ok pos).stateFile = some p → σ.stateFile = some p ∨
      (σ.confirm c durable ok pos).tracker.positions () = some (some p) := by
  unfold confirm
  dsimp only
  generalize htrk : (if durable then σ.tracker.confirm () pos else σ.tracker) = tracker
  generalize hack : tracker.ackPosition (positionOrder c) [()] = r
  obtain ⟨⟨found, advanced⟩, tracker'⟩ := r
  obtain ⟨hposi, -⟩ := AckTracker.ackPosition_positions hack
  constructor
  · intro pos' hpos'
    rw [hposi, ← htrk] at hpos'
    cases durable with
    | false => exact .inr hpos'
    | true => exact .inl ⟨rfl, (some.inj hpos').symm⟩
  · intro p hp
    split at hp
    · next hyes =>
        rw [hposi]
        obtain ⟨rfl, -⟩ := hyes
        subst hp
        obtain ⟨i, -, -, hi⟩ := AckTracker.mem_of_ackPosition hack
        exact .inr hi
    · exact .inl hp

variable {pos : Option String}

omit [GoValue V] in
lemma confirm_stateFile {c : Comparator String} {found : Option String}
    (h : ((σ.tracker.confirm () pos).ackPosition (positionOrder c) [()]).1 = (found, true)) :
    (σ.confirm c true true pos).stateFile = found := by
  unfold confirm
  simp [h]

lemma Synced.confirm (h : σ.Synced cfg o src n rest) (hup : σ.running = true)
    (c : Comparator String) {durable ok : Bool}
    (hcvs : durable = true → ∃ p, pos = some p ∧ σ.Covers src rest p) :
    Synced cfg o src n (σ.confirm c durable ok pos) rest := by
  obtain ⟨hposi, hfile⟩ := σ.confirm_inv c durable ok pos
  have hconf : ∀ pos', (σ.confirm c durable ok pos).tracker.positions () = some pos' →
      ∃ p, pos' = some p ∧ σ.Covers src rest p := by
    intro pos' hpos'
    rcases hposi pos' hpos' with ⟨hdur, rfl⟩ | hold
    · exact hcvs hdur
    · exact h.confirmed pos' hold
  refine ⟨h.base, h.chain, h.kept, h.catches, h.past, fun p hp => ?_, hconf, trivial, h.standing,
    fun hdown => ?_⟩
  · rcases hfile p hp with hold | hnew
    · exact h.file p hold
    · obtain ⟨p', hp', hcvs⟩ := hconf _ hnew
      cases hp'
      exact hcvs
  · cases hup.symm.trans hdown

lemma Standing.next_cases (h : σ.Standing cfg o src n rest) (hq : σ.queue = []) :
    (∃ done ahead, σ.trail = done ++ ahead ∧ rest = events src.table ahead) ∨
    ∃ d ch changes diffs more, σ.cursor.pc = .emitting d (ch :: changes) diffs ∧
      rest = toEvent src.table ch d.toPosition :: more := by
  obtain ⟨done, ahead, todo, htrl, -, hrest, hpc⟩ := h
  rw [hq, nil_append] at hrest
  subst hrest
  cases hcas : σ.cursor.pc with
  | start | loaded => simp only [hcas] at hpc
  | polling | finished | failed | rebaseline =>
    simp only [hcas] at hpc
    exact .inl ⟨done, ahead, htrl, hpc⟩
  | draining diffs =>
    simp only [hcas] at hpc
    exact .inl ⟨done, ahead, htrl, hpc.1⟩
  | emitting d changes diffs =>
    simp only [hcas] at hpc
    obtain ⟨sent, ahead', rfl, htodo, -⟩ := hpc
    cases changes with
    | nil => exact .inl ⟨done ++ [(d, sent ++ [])], ahead', by simp [htrl], htodo⟩
    | cons ch changes => exact .inr ⟨d, ch, changes, diffs, _, rfl, htodo⟩

lemma Synced.covers_applied (h : σ.Synced cfg o src n rest) (hup : σ.running = true)
    (hstg : σ.stage = .applied pos) (hend : σ.AtDiffEnd) :
    ∃ p, pos = some p ∧ σ.Covers src rest p := by
  have hstaged := h.staged
  unfold Staged at hstaged
  simp only [hstg] at hstaged
  obtain ⟨done, e, ahead, ev, tail, htrl, rfl, htail, hrest⟩ := hstaged
  obtain ⟨hq, hemit⟩ := hend _ hstg
  -- a further event of the diff would be in the buffer or in the hands of `drain`
  have hnil : tail = [] := by
    cases tail with
    | nil => rfl
    | cons ev' tail =>
      have hpos : ev'.position = some e.1.toPosition := position_of_mem (htail.subset (by simp))
      cases hbfr : σ.queue with
      | cons ev'' queue =>
        obtain ⟨-, -, todo, -, -, hrest', -⟩ := h.standing hup
        rw [hbfr, hrest] at hrest'
        obtain ⟨rfl, -⟩ := List.cons.inj hrest'
        exact absurd hpos (hq ev' (by simp [hbfr]))
      | nil =>
        rcases (h.standing hup).next_cases hbfr with
          ⟨done', ahead', htrl', hnext⟩ | ⟨d, ch, changes, diffs, more, hpc, hnext⟩
        · exact tail_eq_nil (htrl'.symm.trans htrl) htail (hrest.symm.trans hnext)
        · rw [hrest] at hnext
          obtain ⟨rfl, -⟩ := List.cons.inj hnext
          refine absurd ?_ (hemit d ch changes diffs hpc)
          rw [← hpos, toEvent_position]
  refine ⟨e.1.toPosition, rfl, done ++ [e], ahead, ?_, ?_, ?_⟩
  · rw [htrl, append_assoc]
    rfl
  · simp
  · rw [hrest, hnil]
    exact suffix_rfl

lemma Synced.crash (h : σ.Synced cfg o src n rest) : Synced cfg o src n
      { σ with running := false, queue := [], stage := .idle, tracker := .new } rest :=
  ⟨h.base, h.chain, h.kept, h.catches, h.past, h.file, nofun, trivial, nofun,
    fun _ => ⟨rfl, rfl, rfl⟩⟩

lemma Synced.applied_of_done (h : σ.Synced cfg o src n rest) (htrl : σ.trail = done ++ ahead)
    (hrest : rest <:+ events src.table ahead)
    (hev : ev ∈ events src.table done) : ev ∈ σ.applied := by
  obtain ⟨pre, hpre, hall⟩ := h.past
  obtain ⟨mid, hmid⟩ := hrest
  rw [htrl, events_append, ← hmid, ← append_assoc] at hpre
  rw [← append_cancel_right hpre] at hall
  exact hall ev (mem_append_left _ hev)

lemma Synced.restart (h : σ.Synced cfg o src n rest) (hdown : σ.running = false)
    (hfile : σ.stateFile = some p) : ∃ rest', Synced cfg o src n
      { σ with running := true, cursor := ⟨.polling, p⟩ } rest' := by
  obtain ⟨done, ahead, htrl, hp, hrest⟩ := h.file p hfile
  obtain ⟨hq, hstg, hnone⟩ := h.down hdown
  refine ⟨events src.table ahead, h.base, h.chain, h.kept, h.catches.back hrest, ?_, ?_, ?_, ?_, ?_,
    nofun⟩
  · refine ⟨events src.table done, ?_, fun ev hev => h.applied_of_done htrl hrest hev⟩
    rw [htrl, events_append]
  · intro p' hp'
    obtain rfl : p = p' := some.inj (hfile.symm.trans hp')
    exact ⟨done, ahead, htrl, hp, suffix_rfl⟩
  · intro pos hpos
    cases hnone.symm.trans hpos
  · unfold Staged
    simp only [hstg]
  · exact fun _ => ⟨done, ahead, _, htrl, hp, by simp [hq], rfl⟩

section

variable {σ' : Session B V} {c : Comparator String} {a : Act}

lemma Fresh.acts (h : σ.Fresh n) (hacts : Acts src c σ a σ') : Fresh n σ' := by
  cases hacts with
  | ackBaseline _ hstg | ack _ hstg => cases h.stage.symm.trans hstg
  | apply _ _ hq => cases h.queue.symm.trans hq
  | crash => exact ⟨h.trail, rfl, h.target, rfl, rfl, h.file, h.pc⟩
  | restart _ hfile _ => cases h.file.symm.trans hfile

lemma Lost.acts (h : σ.Lost o n) (hacts : Acts src c σ a σ') : Lost o n σ' := by
  cases hacts with
  | @ackBaseline ok p _ hstg =>
    obtain ⟨hposi, hfile⟩ := σ.confirm_inv c true ok (some p)
    have hconf : ∀ pos, (σ.confirm c true ok (some p)).tracker.positions () = some pos →
        pos = some σ.base := by
      intro pos hpos
      rcases hposi pos hpos with ⟨-, rfl⟩ | hold
      · rw [h.baselined p hstg]
      · exact h.confirmed pos hold
    refine ⟨h.stranded, h.queue, nofun, nofun, fun q hq => ?_, hconf, h.position, h.pc⟩
    rcases hfile q hq with hold | hnew
    · exact h.file q hold
    · exact some.inj (hconf _ hnew)
  | apply _ _ hqueue => cases h.queue.symm.trans hqueue
  | ack _ hstg => exact absurd hstg (h.stage _)
  | crash => exact ⟨h.stranded, rfl, nofun, nofun, h.file, nofun, h.position, h.pc⟩
  | @restart p _ hfile _ =>
    exact ⟨h.stranded, h.queue, h.stage, h.baselined, h.file, h.confirmed, h.file p hfile, trivial⟩

lemma Synced.acts (h : σ.Synced cfg o src n rest) (hok : σ.Careful cfg o (.engine a))
    (hacts : Acts src c σ a σ') : ∃ rest', Synced cfg o src n σ' rest' := by
  cases hacts with
  | @ackBaseline ok p hup hstg =>
    have hstaged := h.staged
    unfold Staged at hstaged
    simp only [hstg] at hstaged
    obtain ⟨pre, hpre, -⟩ := h.past
    exact ⟨rest, h.confirm hup c fun _ => ⟨p, rfl, [], σ.trail, rfl, hstaged, pre, hpre.symm⟩⟩
  | apply hup _ hq => exact h.apply hup hq
  | @ack durable ok pos hup hstg =>
    refine ⟨rest, h.confirm hup c fun hdur => h.covers_applied hup hstg ?_⟩
    exact hok.2 ok (by rw [hdur])
  | crash => exact ⟨rest, h.crash⟩
  | restart hdown hfile _ => exact h.restart hdown hfile

lemma Safe.step (h : σ.Safe cfg o src n) (hap : cfg.FormatsApart) (hn : n ∈ cfg.destinations)
    (hsrc : src.Reads cfg o) {a : Label V} (hok : σ.Careful cfg o a)
    (hs : Step cfg src c n σ a σ') : Safe cfg o src n σ' := by
  cases hs with
  | writer hs => exact h.writer hap hn hsrc.decodes hok.1.1 hok.1.2 hs
  | source hup _ hmove => exact h.move hn hsrc hup hok.1 hmove
  | @engine act _ hacts =>
    have hworld : σ'.world = σ.world := by cases hacts <;> rfl
    refine ⟨hworld ▸ h.growing, hworld ▸ h.filing, ?_⟩
    rcases h.session with hfr | hlost | ⟨rest, hsynced⟩
    · exact .inl (hfr.acts hacts)
    · exact .inr (.inl (hlost.acts hacts))
    · exact .inr (.inr (hsynced.acts hok hacts))

end

lemma Synced.acknowledged (h : σ.Synced cfg o src n rest) (hfile : σ.stateFile = some p)
    {m : Manifest} (hm : (σ.world.destinations n).manifest = some m)
    (hd : d ∈ m.artifacts) {q : String} (hfrom : d.DiffFrom q) (hlt : o.order.Lt q d.toPosition)
    (hst0 : o.order.Le σ.base q) (hend : o.order.Le d.toPosition p)
    (hread : src.reader.readDiff (σ.world.destinations n) d = .ok changes) {ch : Change V}
    (hch : ch ∈ changes) : toEvent src.table ch d.toPosition ∈ σ.applied := by
  obtain ⟨done, ahead, htrl, hp, hrest⟩ := h.file p hfile
  have hchain := h.chain
  have hkept := h.kept
  rw [htrl, map_append] at hchain
  rw [htrl] at hkept
  have hdone := hchain.split.1
  rw [← hp] at hdone
  have hplaced : ∀ x ∈ done.map Prod.fst, Placed o n σ.world x := by
    intro x hx
    obtain ⟨e, he, rfl⟩ := List.mem_map.mp hx
    exact (hkept e (mem_append_left _ he)).placed
  obtain ⟨e, he, rfl⟩ := List.mem_map.mp (hdone.mem_of_listed hplaced hm hd hfrom hlt hst0 hend)
  obtain rfl : e.2 = changes :=
    Except.ok.inj (((hkept e (mem_append_left _ he)).read m hm hd).symm.trans hread)
  exact h.applied_of_done htrl hrest (mem_flatMap.mpr ⟨e, he, List.mem_map_of_mem hch⟩)

lemma Synced.at_head (h : σ.Synced cfg o src n rest) (hinv : σ.world.Growing cfg o)
    (hn : n ∈ cfg.destinations) (hup : σ.running = true) (hpc : σ.cursor.pc = .polling)
    (hq : σ.queue = []) {m : Manifest} (hm : (σ.world.destinations n).manifest = some m)
    (hhead : o.order.Le m.headPosition σ.cursor.position) :
    σ.target = σ.world.tableAt o m.headPosition := by
  obtain ⟨done, ahead, todo, htrl, hpos, hrest, hstands⟩ := h.standing hup
  simp only [hpc] at hstands
  have hch := h.chain_ahead htrl
  rw [← hpos] at hch
  obtain ⟨m', hm', hle⟩ := h.reached_front.le
  cases hm.symm.trans hm'
  have hfront :=
    hinv.distinct _ _ h.reached_front.known (known_head hinv hn hm) hle (hhead.trans hch.le)
  cases ahead with
  | cons e ahead =>
    obtain ⟨-, hlt, hrest⟩ := hch
    exact absurd (hhead.trans_lt (hlt.trans_le (hrest.le.trans hle))) Lt.irrefl
  | nil =>
    have hcatches := h.catches
    rw [hrest, hq, hstands, hfront] at hcatches
    exact hcatches.done

/-- **Resuming is crash-safe if positions are acknowledged at the end of a diff**: the position in
the state file covers no change that was not applied, and at the head the target holds the rows
reconstructed there. -/
theorem resume_is_crash_safe (cfg : Config B V) (o : Origin V cfg.keyFields)
    (hapart : cfg.FormatsApart) (src : Source B V) (hsrc : src.Reads cfg o)
    (hn : n ∈ cfg.destinations)
    (hreach : Reach (Step cfg src o.order n) (Careful cfg o) (init o.table o.position) σ)
    (m : Manifest) (hload : Reader.loadManifest (σ.world.destinations n) = .ok m) :
    (∀ p, σ.stateFile = some p → ∀ d ∈ m.artifacts, ∀ q, d.DiffFrom q → o.order.Le σ.base q →
      o.order.Le d.toPosition p →
        ∀ changes, src.reader.readDiff (σ.world.destinations n) d = .ok changes →
          ∀ ch ∈ changes, toEvent src.table ch d.toPosition ∈ σ.applied) ∧
    (σ.running = true → σ.cursor.pc = .polling → σ.queue = [] →
      ¬ src.cmp m.headPosition σ.cursor.position > 0 →
        ∃ fuel rows, src.reader.reconstructAsOf fuel (σ.world.destinations n) m.headPosition
            src.keyFields src.cmp = some (.ok (some ⟨rows, m.headPosition⟩)) ∧
          rows.Perm (σ.target.toList.map Prod.snd)) := by
  have hinv : σ.Safe cfg o src n := by
    refine hreach.invariant (Safe cfg o src n) Safe.init ?_
    intro σ₁ σ₂ a h hok hs
    exact h.step hapart hn hsrc hok hs
  have hm := Reader.manifest_of_loadManifest hload
  constructor
  · intro p hfile d hd q hfrom hst0 hend changes hread ch hch
    obtain ⟨q', hfrom', hlt⟩ := (hinv.growing.stored n m hm).forward d hd hfrom.1
    obtain rfl : q = q' := some.inj (hfrom.2.symm.trans hfrom'.2)
    rcases hinv.session with hfr | hlost | ⟨rest, hsynced⟩
    · cases hfr.file.symm.trans hfile
    · obtain rfl := hlost.file p hfile
      exact absurd (hend.trans hst0) hlt.not_le
    · exact hsynced.acknowledged hfile hm hd hfrom hlt hst0 hend hread hch
  · intro hup hpc hq hhead
    rw [hsrc.cmp] at hhead
    rcases hinv.session with hfr | hlost | ⟨rest, hsynced⟩
    · have hnot := hfr.pc
      simp only [hpc] at hnot
    · obtain ⟨m', hm', hlt, -⟩ := hlost.stranded
      cases hm.symm.trans hm'
      rw [hlost.position] at hhead
      exact absurd ((o.order.swap _ _).mp hlt) hhead
    · obtain ⟨fuel, hrec⟩ := reconstruct_head hinv.growing hn hsrc hm
      refine ⟨fuel, _, hrec, ?_⟩
      rw [hsynced.at_head hinv.growing hn hup hpc hq hm (Int.not_lt.mp hhead)]

open Snapshotter (Payload diffsOnly plainReader emptyAt plainConfig_keysFree rowWithId insertOne
  insertTwo buffer_insertBoth_ne)

def bothRows : Artifact := ⟨.diff, 1, some "0/10", "0/30", ["plain"]⟩

def trackerAt : AckTracker Unit String :=
  ((AckTracker.new.confirm () (some "0/10")).ackPosition (positionOrder (ofOrd String))
    [()]).2

lemma trackerAt_advances :
    ((trackerAt.confirm () (some "0/30")).ackPosition (positionOrder (ofOrd String))
      [()]).1 = (some "0/30", true) := rfl

def acknowledgedAt (w : World (Payload Text) Text) :
    Session (Payload Text) Text where
  world := w
  running := true
  cursor := ⟨.polling, "0/10"⟩
  queue := []
  target := ∅
  stage := .idle
  tracker := trackerAt
  stateFile := some "0/10"
  base := "0/10"
  trail := []
  applied := []

lemma flushed_together : ∃ (w : World (Payload Text) Text) (m : Manifest),
      Reach (Step diffsOnly eventsSource (ofOrd String) "local")
        (Careful diffsOnly (emptyAt "0/10")) (init ∅ "0/10") (acknowledgedAt w) ∧
      Reader.loadManifest (w.destinations "local") = .ok m ∧ m.headPosition = "0/30" ∧
      m.plan 3 "0/10" eventsSource.cmp = some (some ⟨none, [bothRows], "0/30"⟩) ∧
      plainReader.readDiff (w.destinations "local") bothRows =
        .ok [⟨.insert, "1", none, some (rowWithId "1")⟩,
          ⟨.insert, "2", none, some (rowWithId "2")⟩] ∧
      plainReader.reconstructAsOf 4 (w.destinations "local") "0/30" ["id"]
        (ofOrd String).cmp =
          some (.ok (some ⟨[rowWithId "1", rowWithId "2"], "0/30"⟩)) := by
  have h : Reach (Step diffsOnly eventsSource (ofOrd String) "local")
      (Careful diffsOnly (emptyAt "0/10")) (init ∅ "0/10") _ := .refl _
  have h := h
    |>.snoc (.writer (.start rfl))
    |>.snoc (.writer (.capture rfl (.refl _)))
    |>.snoc (a := .writer (.commit none 0)) (.writer (.commit rfl)) (by
      refine ⟨⟨⟨⟨trivial, by intro _ _ _ _ hph; cases hph; rfl, ?_⟩, nofun⟩, nofun⟩, nofun⟩
      exact plainConfig_keysFree rfl (by decide +kernel))
    |>.snoc (.source rfl nofun (.load (.inl rfl) rfl))
    |>.snoc (.source rfl nofun (@Move.reconstructed _ _ _ _ _ _ "0/10" 3 ⟨[], "0/10"⟩ rfl rfl))
    |>.snoc (a := .engine (.ackBaseline true)) (.engine (.ackBaseline rfl rfl))
    |>.snoc (a := .writer (.publish "0/20" insertOne)) (.writer (.publish rfl))
    |>.snoc (.writer (.deliver rfl))
    |>.snoc (a := .writer (.publish "0/30" insertTwo)) (.writer (.publish rfl))
    |>.snoc (.writer (.deliver rfl))
    |>.snoc (a := .writer (.drain _ 0)) (.writer (.drain rfl buffer_insertBoth_ne (.refl _)))
    |>.snoc (.writer (.stamp rfl))
    |>.snoc (a := .writer (.write none)) (.writer (.write rfl)) (by
      refine ⟨⟨⟨⟨trivial, by intro _ _ hph; cases hph; nofun, ?_⟩, nofun⟩, nofun⟩, nofun⟩
      exact plainConfig_keysFree rfl (by decide +kernel))
  exact ⟨_, _, h, rfl, rfl, rfl, rfl, rfl⟩

/-- The engine applies row 1, acknowledges 0/30 and crashes. Started again it takes itself to be
at the head, and row 2 is never applied. -/
theorem partial_diff_is_lost :
    ∃ (σ : Session (Payload Text) Text) (m : Manifest),
      Reach (Step diffsOnly eventsSource (ofOrd String) "local")
        (Orderly diffsOnly (emptyAt "0/10")) (init ∅ "0/10") σ ∧
      σ.running = true ∧ σ.cursor.pc = .polling ∧ σ.queue = [] ∧ σ.stateFile = some "0/30" ∧
      Reader.loadManifest (σ.world.destinations "local") = .ok m ∧
      ¬ eventsSource.cmp m.headPosition σ.cursor.position > 0 ∧
      σ.target.toList.map Prod.snd = [rowWithId "1"] ∧
      plainReader.reconstructAsOf 4 (σ.world.destinations "local") m.headPosition ["id"]
        (ofOrd String).cmp =
          some (.ok (some ⟨[rowWithId "1", rowWithId "2"], m.headPosition⟩)) := by
  obtain ⟨w, m, hrch, hload, hhead, hplan, hread, hrec⟩ := flushed_together
  have hahead : eventsSource.cmp m.headPosition "0/10" > 0 := by
    rw [hhead]
    decide +kernel
  have h := hrch.mono fun _ _ hok => hok.1
  have h := h
    |>.snoc (.source rfl nofun (.plan rfl hload hahead hplan rfl))
    |>.snoc (.source rfl nofun (.read rfl hread))
    |>.snoc (.source rfl nofun (.emit rfl))
    |>.snoc (.engine (.apply rfl rfl rfl))
    |>.snoc (a := .engine (.ack true true)) (.engine (.ack rfl rfl))
    |>.snoc (.engine .crash)
    |>.snoc (.engine (.restart rfl (confirm_stateFile trackerAt_advances) (by decide)))
  have hatHead : ¬ eventsSource.cmp m.headPosition "0/30" > 0 := by
    rw [hhead]
    decide +kernel
  refine ⟨_, m, h, rfl, rfl, rfl, confirm_stateFile trackerAt_advances, hload, hatHead, rfl, ?_⟩
  rw [hhead]
  exact hrec

theorem resumes_within_diff :
    ∃ (σ : Session (Payload Text) Text) (m : Manifest),
      Reach (Step diffsOnly eventsSource (ofOrd String) "local")
        (Careful diffsOnly (emptyAt "0/10")) (init ∅ "0/10") σ ∧
      Reader.loadManifest (σ.world.destinations "local") = .ok m ∧
      σ.stateFile = some "0/30" ∧ m.headPosition = "0/30" ∧ σ.applied.length = 3 ∧
      ∃ fuel rows, plainReader.reconstructAsOf fuel (σ.world.destinations "local") m.headPosition
          ["id"] (ofOrd String).cmp = some (.ok (some ⟨rows, m.headPosition⟩)) ∧
        rows.Perm (σ.target.toList.map Prod.snd) := by
  obtain ⟨w, m, h, hload, hhead, hplan, hread, -⟩ := flushed_together
  have hahead : eventsSource.cmp m.headPosition "0/10" > 0 := by
    rw [hhead]
    decide +kernel
  have h := h
    |>.snoc (.source rfl nofun (.plan rfl hload hahead hplan rfl))
    |>.snoc (.source rfl nofun (.read rfl hread))
    |>.snoc (.source rfl nofun (.emit rfl))
    |>.snoc (.engine (.apply rfl rfl rfl))
    |>.snoc (.engine .crash)
    |>.snoc (.engine (.restart (p := "0/10") rfl rfl (by decide)))
  -- the diff is planned and read again
  have h := h
    |>.snoc (.source rfl nofun (.plan rfl hload hahead hplan rfl))
    |>.snoc (.source rfl nofun (.read rfl hread))
    |>.snoc (.source rfl nofun (.emit rfl))
    |>.snoc (.engine (.apply rfl rfl rfl))
    |>.snoc (a := .engine (.ack false true)) (.engine (.ack rfl rfl))
    |>.snoc (.source rfl nofun (.emit rfl))
    |>.snoc (.engine (.apply rfl rfl rfl))
    |>.snoc (.source rfl nofun (.next rfl))
    |>.snoc (.source rfl nofun (.drained rfl))
    |>.snoc (a := .engine (.ack true true)) (.engine (.ack rfl rfl))
  have hres := resume_is_crash_safe diffsOnly (emptyAt "0/10")
    Snapshotter.plainConfig_formatsApart eventsSource (eventsSource_reads "0/10") (n := "local")
    (mem_singleton.mpr rfl) h m hload
  have hatHead : ¬ eventsSource.cmp m.headPosition "0/30" > 0 := by
    rw [hhead]
    decide +kernel
  exact ⟨_, m, h, hload, rfl, hhead, rfl, hres.2 rfl rfl rfl hatHead⟩

end Session

end Laredo.Archive
