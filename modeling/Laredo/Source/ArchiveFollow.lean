import Laredo.Source.Archive

/-!
# Archive follow

Following an archive is as good as reconstructing it, whenever `Stream` is at the head of a
manifest.
-/

namespace Laredo.Archive

open Comparator Transition
open Snapshotter (Artifact Manifest ReplayPlan Change Reader Destination Config Origin World
  rowKey foldChanges)

variable {B V : Type} [GoValue V]

structure Source.Reads (src : Source B V) (cfg : Config B V) (o : Origin V cfg.keyFields) :
    Prop where
  decodes : src.reader.Decodes cfg
  keyFields : src.keyFields = cfg.keyFields
  cmp : src.cmp = o.order.cmp

section

variable {cfg : Config B V} {o : Origin V cfg.keyFields} {w w' : World B V} {n p q : String}
variable {m : Manifest} {rows : Store V} {d : Artifact}

lemma linked_of_plan (h : w.Growing cfg o) (hn : n ∈ cfg.destinations)
    (hm : (w.destinations n).manifest = some m) {fuel : Nat} {plan : ReplayPlan}
    (hplan : m.plan fuel p o.order.cmp = some (some plan)) (hnone : plan.snapshot = none) :
    Linked o.order p plan.diffs m.headPosition ∧ ∀ d ∈ plan.diffs, d ∈ m.artifacts := by
  obtain ⟨-, start, hch, hshape⟩ := Manifest.plan_cases hplan
  obtain ⟨-, -, q, hpath, -⟩ := Snapshotter.contiguousDiffChain_inv hch
  rcases hshape with ⟨-, hne, rfl, -, hge⟩ | ⟨snap, -, hsome, -⟩
  · obtain ⟨hhead, a, ha, -, hto⟩ := Snapshotter.byFrom_path_end hne hpath
    obtain ⟨snap, chain, hhd⟩ := h.headed.stored n m hm
    obtain ⟨b, hb, hbto⟩ := hhd.exists_artifact
    have hknown : ∀ x ∈ m.artifacts, w.Known o x.toPosition := fun x hx =>
      (h.truthful.stored n hn m hm x hx).known
    -- the chain gets as far as the head, and nothing is listed past it
    have hend : o.order.Le m.headPosition q := by
      have hcmp : o.order.cmp q m.headPosition ≥ 0 := hhead ▸ hge
      exact not_lt.mp (Int.not_lt.mpr hcmp)
    obtain rfl : q = m.headPosition := h.distinct q _ (hto ▸ hknown a ha) (hbto ▸ hknown b hb)
      (hto ▸ hhd.last a ha) hend
    exact Linked.of_path (h.stored n m hm) hpath
  · rw [hnone] at hsome
    cases hsome

lemma exists_plan (h : w.Growing cfg o) (hn : n ∈ cfg.destinations)
    (hm : (w.destinations n).manifest = some m) (p : String) :
    ∃ fuel plan, m.plan fuel p o.order.cmp = some (some plan) := by
  obtain ⟨snap, chain, hhd⟩ := h.headed.stored n m hm
  have hknown : ∀ x ∈ m.artifacts, w.Known o x.toPosition := fun x hx =>
    (h.truthful.stored n hn m hm x hx).known
  obtain ⟨b, hb, hto⟩ := hhd.exists_artifact
  obtain ⟨fuel, plan, hplan, -⟩ := hhd.plan (h.stored n m hm)
    (fun x hx hle => h.distinct _ _ (hknown x hx) (hto ▸ hknown b hb) (hhd.last x hx) hle)
    (fun x hx hkind => h.diff_ne_empty hn hm hx hkind) p
  exact ⟨fuel, plan, hplan⟩

lemma known_head (h : w.Growing cfg o) (hn : n ∈ cfg.destinations)
    (hm : (w.destinations n).manifest = some m) : w.Known o m.headPosition := by
  obtain ⟨snap, chain, hhd⟩ := h.headed.stored n m hm
  obtain ⟨a, ha, hto⟩ := hhd.exists_artifact
  exact hto ▸ (h.truthful.stored n hn m hm a ha).known

lemma reconstruct_head (h : w.Growing cfg o) (hn : n ∈ cfg.destinations) {src : Source B V}
    (hsrc : src.Reads cfg o) (hm : (w.destinations n).manifest = some m) :
    ∃ fuel, src.reader.reconstructAsOf fuel (w.destinations n) m.headPosition src.keyFields
        src.cmp =
      some (.ok (some ⟨(w.tableAt o m.headPosition).toList.map Prod.snd, m.headPosition⟩)) := by
  have hr := hsrc.decodes
  rw [hsrc.keyFields, hsrc.cmp]
  obtain ⟨snap, chain, hhd⟩ := h.headed.stored n m hm
  have hsnap := hhd.last snap hhd.mem
  obtain ⟨hboun, -, -⟩ := (h.stored n m hm).path hhd.path (.snapshot hhd.mem hhd.kind)
  obtain ⟨fuel, result, hrec⟩ := h.toChronicle.reconstruct_total src.reader hm m.headPosition
  refine ⟨fuel, ?_⟩
  rcases result with e | _ | rec
  · exact (h.toChronicle.reconstruct_inv hr hn hm hrec).elim
  · exact absurd hsnap (h.toChronicle.reconstruct_inv hr hn hm hrec snap hhd.mem hhd.kind).not_le
  · obtain ⟨-, hrows, hat, hle, hlat⟩ := h.toChronicle.reconstruct_inv hr hn hm hrec
    have hpos : rec.position = m.headPosition := by
      refine h.distinct _ _ (h.toFaithful.known_of_boundary hn hm hat) (known_head h hn hm) hle ?_
      exact hlat _ hboun (Le.refl _ _)
    rw [hrec, ← hpos, ← hrows]

structure Evolves (o : Origin V cfg.keyFields) (n : String) (w w' : World B V) : Prop where
  past : ∀ q, w.Known o q → w'.Known o q ∧ w'.tableAt o q = w.tableAt o q
  grows : ∀ m, (w.destinations n).manifest = some m →
    ∃ m', (w'.destinations n).manifest = some m' ∧ m.Grows o.order m'

variable {a : Snapshotter.Label V}

lemma Evolves.of_step (h : w.Growing cfg o) (hn : n ∈ cfg.destinations)
    (hok : w.Plannable cfg o a) (hs : Snapshotter.Step cfg w a w') : Evolves o n w w' :=
  ⟨fun _ hq => h.toHistory.past hok.1.1 hs hq,
    fun _ hm => h.grows (h.toReplayable.archiveEffect hok hs) hn hm⟩

structure Reached (o : Origin V cfg.keyFields) (n : String) (w : World B V) (p : String) :
    Prop where
  known : w.Known o p
  le : ∃ m, (w.destinations n).manifest = some m ∧ o.order.Le p m.headPosition

structure At (o : Origin V cfg.keyFields) (n : String) (w : World B V) (rows : Store V)
    (p : String) : Prop extends Reached o n w p where
  rows_eq : rows = w.tableAt o p

def Stranded (o : Origin V cfg.keyFields) (n : String) (w : World B V) (p : String) : Prop :=
  ∃ m, (w.destinations n).manifest = some m ∧ o.order.Lt p m.headPosition ∧
    ∀ a ∈ m.artifacts, o.order.Lt p a.origin

structure Readable (cfg : Config B V) (o : Origin V cfg.keyFields) (n : String) (w : World B V)
    (d : Artifact) : Prop where
  genuine : World.Genuine cfg o.order (w.Known o) (w.tableAt o) w.destinations d
  filed : d.Filed cfg (w.destinations n)
  reached : Reached o n w d.toPosition

lemma Reached.mono (h : Reached o n w p) (he : Evolves o n w w') : Reached o n w' p := by
  obtain ⟨m, hm, hle⟩ := h.le
  obtain ⟨m', hm', hgrows⟩ := he.grows m hm
  exact ⟨(he.past p h.known).1, m', hm', hle.trans hgrows.head⟩

lemma At.mono (h : At o n w rows p) (he : Evolves o n w w') : At o n w' rows p :=
  ⟨h.toReached.mono he, h.rows_eq.trans (he.past p h.known).2.symm⟩

lemma Stranded.mono (h : Stranded o n w p) (he : Evolves o n w w') : Stranded o n w' p := by
  obtain ⟨m, hm, hlt, hall⟩ := h
  obtain ⟨m', hm', hgrows⟩ := he.grows m hm
  refine ⟨m', hm', hlt.trans_le hgrows.head, fun a ha => ?_⟩
  rcases hgrows.continues a ha with hold | hnew
  · exact hall a hold
  · exact hlt.trans_le hnew

lemma Readable.step (h : Readable cfg o n w d) (hinv : w.Growing cfg o)
    (hn : n ∈ cfg.destinations) (hok : w.Plannable cfg o a)
    (hspare : w.Spares cfg d a) (hs : Snapshotter.Step cfg w a w') : Readable cfg o n w' d := by
  have he := hinv.toReplayable.archiveEffect hok hs
  refine ⟨h.genuine.step hinv.toHistory hok.1.1 hs he hspare, ?_,
    h.reached.mono (Evolves.of_step hinv hn hok hs)⟩
  intro hkind f hf data hdata
  have hf' : f ∈ cfg.formatsOf d.kind := by rwa [hkind]
  rw [he.spared hspare hf'] at hdata
  exact h.filed hkind f hf data hdata

lemma Readable.of_listed (h : w.Growing cfg o) (hfil : w.Filing cfg)
    (hn : n ∈ cfg.destinations) (hm : (w.destinations n).manifest = some m)
    (hd : d ∈ m.artifacts) : Readable cfg o n w d := by
  obtain ⟨snap, chain, hhd⟩ := h.headed.stored n m hm
  have hgenuine := h.truthful.stored n hn m hm d hd
  exact ⟨hgenuine, hfil.objects d (.inr ⟨n, hn, m, hm, hd⟩) n hn, hgenuine.known, m, hm,
    hhd.last d hd⟩

lemma Stranded.of_none (h : w.Growing cfg o) (hm : (w.destinations n).manifest = some m)
    (hbef : ∀ a ∈ m.artifacts, a.kind = .snapshot → o.order.Lt p a.toPosition) :
    Stranded o n w p := by
  obtain ⟨snap, chain, hhd⟩ := h.headed.stored n m hm
  refine ⟨m, hm, ?_, fun a ha => (h.rooted n m hm).lt_origin hbef ha⟩
  exact (hbef snap hhd.mem hhd.kind).trans_le (hhd.last snap hhd.mem)

lemma baseline_cases (h : w.Growing cfg o) (hn : n ∈ cfg.destinations) {src : Source B V}
    (hsrc : src.Reads cfg o) (hm : (w.destinations n).manifest = some m) {fuel : Nat}
    {head : String} {found : Option (Snapshotter.Reconstruction V)}
    (hrec : src.reader.reconstructAsOf fuel (w.destinations n) head src.keyFields src.cmp =
      some (.ok found)) :
    match found with
    | none => Stranded o n w head
    | some rec => At o n w
        (KeyedMap.load (fun row => rowKey src.keyFields (some row)) ∅ rec.rows) rec.position := by
  rw [hsrc.keyFields, hsrc.cmp] at hrec
  have hinv := h.toChronicle.reconstruct_inv hsrc.decodes hn hm hrec
  cases found with
  | none => exact Stranded.of_none h hm hinv
  | some rec =>
    obtain ⟨-, hrows, hboun, -⟩ := hinv
    obtain ⟨x, hx, hto⟩ := hboun.exists_artifact
    obtain ⟨snap, chain, hhd⟩ := h.headed.stored n m hm
    refine ⟨⟨h.toFaithful.known_of_boundary hn hm hboun, m, hm, ?_⟩, ?_⟩
    · exact hto ▸ hhd.last x hx
    · rw [hsrc.keyFields]
      exact KeyedMap.load_values (World.keyed_tableAt rec.position) (.of_eq hrows)

lemma Stranded.not_linked {diffs : List Artifact} (h : Stranded o n w p)
    (hm : (w.destinations n).manifest = some m)
    (hlnk : Linked o.order p diffs m.headPosition) (hall : ∀ d ∈ diffs, d ∈ m.artifacts) :
    False := by
  obtain ⟨m', hm', hlt, haft⟩ := h
  cases hm.symm.trans hm'
  cases diffs with
  | nil =>
    obtain rfl : p = m.headPosition := hlnk
    exact hlt.irrefl
  | cons d diffs =>
    have hd := haft d (hall d List.mem_cons_self)
    rw [hlnk.1.origin_eq] at hd
    exact hd.irrefl

end

/-- The writer with its archive, and a source that follows it. The last three fields record history.
-/
structure Follower (B V : Type) where
  world : World B V
  cursor : Cursor V
  rows : Store V
  base : String
  emitted : List Artifact
  read : Destination B

namespace Follower

inductive Label (V : Type)
  | writer (a : Snapshotter.Label V)
  | source

def init (table : Store V) (position : String) : Follower B V :=
  ⟨World.init table position, ⟨.start, ""⟩, ∅, "", [], ⟨∅, none, 0⟩⟩

def take (keyFields : List String) (arch : Destination B) (φ : Follower B V) (out : Output V)
    (c : Cursor V) : Follower B V :=
  { φ with
    cursor := c
    rows := match out with
      | .nothing => φ.rows
      | .rows rows => KeyedMap.load (fun row => rowKey keyFields (some row)) ∅ rows
      | .event ev => applyEvent keyFields φ.rows ev
    base := match out with
      | .rows _ => c.position
      | _ => φ.base
    emitted := match out, φ.cursor.pc with
      | .rows _, _ => []
      | .nothing, .emitting d [] _ => φ.emitted ++ [d]
      | _, _ => φ.emitted
    read := match φ.cursor.pc with
      | .polling => arch
      | _ => φ.read }

inductive Step (cfg : Config B V) (src : Source B V) (n : String) (φ : Follower B V) :
    Label V → Follower B V → Prop
  | writer {a : Snapshotter.Label V} {w : World B V} (hs : Snapshotter.Step cfg φ.world a w) :
      Step cfg src n φ (.writer a) { φ with world := w }
  | source {out : Output V} {c : Cursor V}
      (hmove : Move src (φ.world.destinations n) φ.cursor out c) :
      Step cfg src n φ .source (φ.take src.keyFields (φ.world.destinations n) out c)

/-- The runs considered here: those of the writer in which plans lead to the head and no object
is overwritten that the source is about to read. -/
def Plannable (cfg : Config B V) (o : Origin V cfg.keyFields) (φ : Follower B V) : Label V → Prop
  | .writer a => φ.world.Plannable cfg o a ∧ ∀ d ∈ φ.cursor.pc.pending, φ.world.Spares cfg d a
  | .source => True

/-- `ReconstructAsOf` of the head `q` of the manifest last loaded gave the table there. -/
def Goal {keyFields : List String} (o : Origin V keyFields) (src : Source B V) (φ : Follower B V)
    (q : String) : Prop :=
  φ.world.Known o q ∧ ∃ m fuel, Reader.loadManifest φ.read = .ok m ∧ m.headPosition = q ∧
    src.reader.reconstructAsOf fuel φ.read q src.keyFields src.cmp =
      some (.ok (some ⟨(φ.world.tableAt o q).toList.map Prod.snd, q⟩))

def Holds (cfg : Config B V) (o : Origin V cfg.keyFields) (src : Source B V) (n : String)
    (φ : Follower B V) : Prop :=
  match φ.cursor.pc with
  | .start | .failed | .rebaseline => True
  | .loaded _ => ∃ m, (φ.world.destinations n).manifest = some m
  | .polling | .finished => At o n φ.world φ.rows φ.cursor.position ∨
      Stranded o n φ.world φ.cursor.position
  | .draining diffs => At o n φ.world φ.rows φ.cursor.position ∧
      ∃ q, Linked o.order φ.cursor.position diffs q ∧ φ.Goal o src q
  | .emitting d changes diffs =>
      Reached o n φ.world d.toPosition ∧ d.DiffFrom φ.cursor.position ∧
      o.order.Lt φ.cursor.position d.toPosition ∧ (∀ ch ∈ changes, ch.Filed cfg.keyFields) ∧
      foldChanges φ.rows changes = φ.world.tableAt o d.toPosition ∧
      ∃ q, Linked o.order d.toPosition diffs q ∧ φ.Goal o src q

structure Following (cfg : Config B V) (o : Origin V cfg.keyFields) (src : Source B V) (n : String)
    (φ : Follower B V) : Prop where
  growing : φ.world.Growing cfg o
  filing : φ.world.Filing cfg
  pending : ∀ d ∈ φ.cursor.pc.pending, Readable cfg o n φ.world d
  chain : Linked o.order φ.base φ.emitted φ.cursor.position
  holds : φ.Holds cfg o src n

variable {cfg : Config B V} {o : Origin V cfg.keyFields} {src : Source B V} {n : String}
variable {φ φ' : Follower B V} {w : World B V} {q : String}

lemma Following.init : Following cfg o src n (Follower.init o.table o.position) :=
  ⟨World.Growing.init, World.Filing.init, nofun, rfl, trivial⟩

lemma Goal.mono (h : φ.Goal o src q) (he : Evolves o n φ.world w) :
    Goal o src { φ with world := w } q := by
  obtain ⟨hknown, m, fuel, hm, hq, hrec⟩ := h
  obtain ⟨hknown', htab⟩ := he.past q hknown
  rw [← htab] at hrec
  exact ⟨hknown', m, fuel, hm, hq, hrec⟩

lemma Following.writer (h : φ.Following cfg o src n) (hn : n ∈ cfg.destinations)
    (hap : cfg.FormatsApart) {a : Snapshotter.Label V} (hok : φ.world.Plannable cfg o a)
    (hspare : ∀ d ∈ φ.cursor.pc.pending, φ.world.Spares cfg d a)
    (hs : Snapshotter.Step cfg φ.world a w) : Following cfg o src n { φ with world := w } := by
  have he := Evolves.of_step h.growing hn hok hs
  refine ⟨h.growing.step hap hok hs, h.filing.step h.growing.toReplayable hap hok hs,
    fun d hd => (h.pending d hd).step h.growing hn hok (hspare d hd) hs, h.chain, ?_⟩
  have hhld := h.holds
  unfold Holds at hhld ⊢
  dsimp only at hhld ⊢
  cases hpc : φ.cursor.pc with
  | start | failed | rebaseline => trivial
  | loaded head =>
    rw [hpc] at hhld
    obtain ⟨m, hm⟩ := hhld
    obtain ⟨m', hm', -⟩ := he.grows m hm
    exact ⟨m', hm'⟩
  | polling | finished =>
    rw [hpc] at hhld
    exact hhld.imp (·.mono he) (·.mono he)
  | draining diffs =>
    rw [hpc] at hhld
    obtain ⟨hat, q, hlnk, hgoal⟩ := hhld
    exact ⟨hat.mono he, q, hlnk, hgoal.mono he⟩
  | emitting d changes diffs =>
    rw [hpc] at hhld
    obtain ⟨hrd, hfrom, hlt, hfiled, hfold, q, hlnk, hgoal⟩ := hhld
    refine ⟨hrd.mono he, hfrom, hlt, hfiled, ?_, q, hlnk, hgoal.mono he⟩
    exact hfold.trans (he.past _ hrd.known).2.symm

lemma Following.move (h : φ.Following cfg o src n) (hn : n ∈ cfg.destinations)
    (hsrc : src.Reads cfg o) {out : Output V} {c : Cursor V}
    (hmove : Move src (φ.world.destinations n) φ.cursor out c) :
    Following cfg o src n (φ.take src.keyFields (φ.world.destinations n) out c) := by
  obtain ⟨w, ⟨pc, p⟩, rows, base, emitted, read⟩ := φ
  obtain ⟨hgrow, hfil, hpnd, hch, hhld⟩ := h
  cases hmove with
  | load hpc hm =>
    have hstd : ∃ m, (w.destinations n).manifest = some m := ⟨_, Reader.manifest_of_loadManifest hm⟩
    rcases hpc with rfl | rfl <;> exact ⟨hgrow, hfil, nofun, hch, hstd⟩
  | loadFailed hpc hm => rcases hpc with rfl | rfl <;> exact ⟨hgrow, hfil, nofun, hch, trivial⟩
  | reconstructed hpc hrec =>
    obtain rfl := hpc
    obtain ⟨m, hm⟩ := hhld
    exact ⟨hgrow, hfil, nofun, rfl, .inl (baseline_cases hgrow hn hsrc hm hrec)⟩
  | empty hpc hrec =>
    obtain rfl := hpc
    obtain ⟨m, hm⟩ := hhld
    exact ⟨hgrow, hfil, nofun, rfl, .inr (baseline_cases hgrow hn hsrc hm hrec)⟩
  | reconstructFailed hpc _ | streamFailed hpc _ _ | rebase hpc _ _ _ _ | readFailed hpc _ =>
    obtain rfl := hpc
    exact ⟨hgrow, hfil, nofun, hch, trivial⟩
  | absent hpc _ _ | wait hpc _ _ _ | finish hpc _ _ _ =>
    obtain rfl := hpc
    exact ⟨hgrow, hfil, nofun, hch, hhld⟩
  | @plan m fuel plan hpc hload hhead hplan hnone =>
    obtain rfl := hpc
    have hm := Reader.manifest_of_loadManifest hload
    rw [hsrc.cmp] at hplan
    obtain ⟨hlnk, hall⟩ := linked_of_plan hgrow hn hm hplan hnone
    have hat : At o n w rows p := hhld.resolve_right fun hstrd => hstrd.not_linked hm hlnk hall
    obtain ⟨fuel, hrec⟩ := reconstruct_head hgrow hn hsrc hm
    exact ⟨hgrow, hfil, fun d hd => Readable.of_listed hgrow hfil hn hm (hall d hd), hch, hat,
      m.headPosition, hlnk, known_head hgrow hn hm, m, fuel, hload, rfl, hrec⟩
  | @read d diffs changes hpc hread =>
    obtain rfl := hpc
    obtain ⟨hat, q, ⟨hfrom, hlt, hlnk⟩, hgoal⟩ := hhld
    obtain ⟨hgenuine, hfiled, hrd⟩ := hpnd d List.mem_cons_self
    obtain ⟨changes', hread', hall, hfold⟩ :=
      (hgenuine.sound n hn).readDiff_filed hfiled hsrc.decodes hfrom
    obtain rfl : changes = changes' := Except.ok.inj (hread.symm.trans hread')
    refine ⟨hgrow, hfil, fun x hx => hpnd x (List.mem_cons_of_mem _ hx), hch, hrd,
      hfrom, hlt, hall, ?_, q, hlnk, hgoal⟩
    exact (congrArg (foldChanges · changes) hat.rows_eq).trans hfold
  | @emit d ch changes diffs hpc =>
    obtain rfl := hpc
    obtain ⟨hrd, hfrom, hlt, hfiled, hfold, hgoal⟩ := hhld
    refine ⟨hgrow, hfil, hpnd, hch, hrd, hfrom, hlt,
      fun x hx => hfiled x (List.mem_cons_of_mem _ hx), ?_, hgoal⟩
    show foldChanges (applyEvent src.keyFields rows (toEvent src.table ch d.toPosition)) changes = _
    rw [hsrc.keyFields, applyEvent_toEvent (hfiled ch List.mem_cons_self)]
    exact hfold
  | @next d diffs hpc =>
    obtain rfl := hpc
    obtain ⟨hrd, hfrom, hlt, -, hfold, hgoal⟩ := hhld
    exact ⟨hgrow, hfil, hpnd, hch.append ⟨hfrom, hlt, rfl⟩, ⟨hrd, hfold⟩, hgoal⟩
  | drained hpc =>
    obtain rfl := hpc
    exact ⟨hgrow, hfil, nofun, hch, .inl hhld.1⟩

/-- The follower is at the head of the archive `arch`, and has the rows that are reconstructed
there. -/
def AtHead (src : Source B V) (arch : Destination B) (φ : Follower B V) : Prop :=
  ∃ m fuel rows, Reader.loadManifest arch = .ok m ∧ m.headPosition = φ.cursor.position ∧
    src.reader.reconstructAsOf fuel arch m.headPosition src.keyFields src.cmp =
      some (.ok (some ⟨rows, m.headPosition⟩)) ∧
    rows.Perm (φ.rows.toList.map Prod.snd)

variable {m : Manifest}

section

variable (h : φ.Following cfg o src n)
include h

lemma Following.at_head (hn : n ∈ cfg.destinations)
    (hsrc : src.Reads cfg o) (hpc : φ.cursor.pc = .polling)
    (hload : Reader.loadManifest (φ.world.destinations n) = .ok m)
    (hhead : ¬ src.cmp m.headPosition φ.cursor.position > 0) :
    φ.AtHead src (φ.world.destinations n) := by
  have hm := Reader.manifest_of_loadManifest hload
  rw [hsrc.cmp] at hhead
  have hhld := h.holds
  unfold Holds at hhld
  rw [hpc] at hhld
  rcases hhld with hat | ⟨m', hm', hlt, -⟩
  · obtain ⟨m', hm', hle⟩ := hat.le
    cases hm.symm.trans hm'
    have hpos :=
      h.growing.distinct _ _ (known_head h.growing hn hm) hat.known (Int.not_lt.mp hhead) hle
    obtain ⟨fuel, hrec⟩ := reconstruct_head h.growing hn hsrc hm
    refine ⟨m, fuel, _, hload, hpos, hrec, ?_⟩
    rw [hat.rows_eq, hpos]
  · cases hm.symm.trans hm'
    exact absurd ((o.order.swap _ _).mp hlt) hhead

lemma Following.at_goal (hpc : φ.cursor.pc = .draining []) : φ.AtHead src φ.read := by
  have hhld := h.holds
  unfold Holds at hhld
  rw [hpc] at hhld
  obtain ⟨hat, q, hlnk, -, m, fuel, hload, hq, hrec⟩ := hhld
  obtain rfl : φ.cursor.position = q := hlnk
  refine ⟨m, fuel, _, hload, hq, hq ▸ hrec, ?_⟩
  rw [hat.rows_eq, hq]

lemma Following.refuses (hn : n ∈ cfg.destinations)
    (hsrc : src.Reads cfg o) (hpc : φ.cursor.pc = .polling)
    (hload : Reader.loadManifest (φ.world.destinations n) = .ok m)
    (hhead : src.cmp m.headPosition φ.cursor.position > 0)
    (hno : ∀ diffs, (∀ d ∈ diffs, d ∈ m.artifacts) →
      ¬ Linked o.order φ.cursor.position diffs m.headPosition) :
    (∃ out c, Move src (φ.world.destinations n) φ.cursor out c) ∧
    ∀ out c, Move src (φ.world.destinations n) φ.cursor out c →
      out = .nothing ∧ c = { φ.cursor with pc := .rebaseline } := by
  have hm := Reader.manifest_of_loadManifest hload
  have hsnap : ∀ {fuel plan}, m.plan fuel φ.cursor.position src.cmp = some (some plan) →
      plan.snapshot ≠ none := by
    intro fuel plan hplan hnone
    rw [hsrc.cmp] at hplan
    obtain ⟨hlnk, hall⟩ := linked_of_plan h.growing hn hm hplan hnone
    exact hno plan.diffs hall hlnk
  constructor
  · obtain ⟨fuel, plan, hplan⟩ := exists_plan h.growing hn hm φ.cursor.position
    rw [← hsrc.cmp] at hplan
    refine ⟨.nothing, _, .rebase hpc hload hhead hplan ?_⟩
    rintro plan' ⟨⟩
    exact hsnap hplan
  · intro out c hmove
    obtain ⟨rfl, ⟨hnot, -⟩ | ⟨-, fuel, found, hplan, hshape⟩⟩ := hmove.polling_inv hpc hload
    · exact absurd hhead hnot
    · rcases hshape with ⟨plan, rfl, hnone, -⟩ | ⟨-, rfl⟩
      · exact absurd hnone (hsnap hplan)
      · exact ⟨rfl, rfl⟩

lemma Following.readDiff (hn : n ∈ cfg.destinations)
    (hsrc : src.Reads cfg o) {d : Artifact} {diffs : List Artifact}
    (hpc : φ.cursor.pc = .draining (d :: diffs)) :
    ∃ changes, src.reader.readDiff (φ.world.destinations n) d = .ok changes := by
  have hhld := h.holds
  unfold Holds at hhld
  rw [hpc] at hhld
  obtain ⟨-, q, ⟨hfrom, -, -⟩, -⟩ := hhld
  have hreadable := h.pending d (by rw [hpc]; exact List.mem_cons_self)
  obtain ⟨changes, hread, -⟩ := (hreadable.genuine.sound n hn).readDiff_eq hsrc.decodes hfrom
  exact ⟨changes, hread⟩

lemma Following.progress (hn : n ∈ cfg.destinations)
    (hsrc : src.Reads cfg o) (hm : (φ.world.destinations n).manifest = some m)
    (hfini : φ.cursor.pc ≠ .finished) (hfail : φ.cursor.pc ≠ .failed) :
    ∃ out c, Move src (φ.world.destinations n) φ.cursor out c := by
  have hload := Reader.loadManifest_eq hm (h.growing.truthful.version n hn m hm)
  cases hpc : φ.cursor.pc with
  | start => exact ⟨_, _, .load (.inl hpc) hload⟩
  | rebaseline => exact ⟨_, _, .load (.inr hpc) hload⟩
  | loaded head =>
    obtain ⟨fuel, result, hrec⟩ := h.growing.toChronicle.reconstruct_total src.reader hm head
    have hinv := h.growing.toChronicle.reconstruct_inv hsrc.decodes hn hm hrec
    rw [← hsrc.cmp] at hrec
    have hrec' : src.reader.reconstructAsOf fuel (φ.world.destinations n) head src.keyFields
        src.cmp = some result := by rw [hsrc.keyFields]; exact hrec
    rcases result with e | _ | rec
    · exact hinv.elim
    · exact ⟨_, _, .empty hpc hrec'⟩
    · exact ⟨_, _, .reconstructed hpc hrec'⟩
  | polling =>
    by_cases hhead : src.cmp m.headPosition φ.cursor.position > 0
    · obtain ⟨fuel, plan, hplan⟩ := exists_plan h.growing hn hm φ.cursor.position
      rw [← hsrc.cmp] at hplan
      by_cases hnone : plan.snapshot = none
      · exact ⟨_, _, .plan hpc hload hhead hplan hnone⟩
      · exact ⟨_, _, .rebase hpc hload hhead hplan (by rintro plan' ⟨⟩; exact hnone)⟩
    · cases hfol : src.follow with
      | true => exact ⟨_, _, .wait hpc hload hhead hfol⟩
      | false => exact ⟨_, _, .finish hpc hload hhead hfol⟩
  | draining diffs =>
    cases diffs with
    | nil => exact ⟨_, _, .drained hpc⟩
    | cons d diffs =>
      obtain ⟨changes, hread⟩ := h.readDiff hn hsrc hpc
      exact ⟨_, _, .read hpc hread⟩
  | emitting d changes diffs =>
    cases changes with
    | nil => exact ⟨_, _, .next hpc⟩
    | cons ch changes => exact ⟨_, _, .emit hpc⟩
  | finished => exact absurd hpc hfini
  | failed => exact absurd hpc hfail

lemma Following.not_failed (hn : n ∈ cfg.destinations)
    (hsrc : src.Reads cfg o) (hm : (φ.world.destinations n).manifest = some m)
    {out : Output V} {c : Cursor V} (hmove : Move src (φ.world.destinations n) φ.cursor out c) :
    c.pc ≠ .failed := by
  have hload := Reader.loadManifest_eq hm (h.growing.truthful.version n hn m hm)
  intro hpc
  cases hmove with
  | loadFailed _ hm' | streamFailed _ hm' _ =>
    rw [hload] at hm'
    cases hm'
  | reconstructFailed _ hrec =>
    rw [hsrc.keyFields, hsrc.cmp] at hrec
    exact (h.growing.toChronicle.reconstruct_inv hsrc.decodes hn hm hrec).elim
  | readFailed hdrai hread =>
    obtain ⟨changes, hread'⟩ := h.readDiff hn hsrc hdrai
    rw [hread'] at hread
    cases hread
  | absent hpolling _ _ | wait hpolling _ _ _ =>
    rw [hpolling] at hpc
    cases hpc
  | _ => cases hpc

end

/-- **Following equals reconstructing**, in every run whose steps are all `Plannable`: at the head
the follower has the reconstructed rows, the diffs handed over are a chain, and where none leads
on, `Stream` returns `ErrReBaselineRequired`. -/
theorem following_equals_reconstructing (cfg : Config B V) (o : Origin V cfg.keyFields)
    (hapart : cfg.FormatsApart) (src : Source B V) (hsrc : src.Reads cfg o)
    (hn : n ∈ cfg.destinations)
    (hreach : Reach (Step cfg src n) (Plannable cfg o) (init o.table o.position) φ) :
    (φ.cursor.pc = .draining [] → φ.AtHead src φ.read) ∧
    (φ.emitted.Nodup ∧ Linked o.order φ.base φ.emitted φ.cursor.position) ∧
    (φ.cursor.pc = .polling → ∀ m, Reader.loadManifest (φ.world.destinations n) = .ok m →
      (¬ src.cmp m.headPosition φ.cursor.position > 0 → φ.AtHead src (φ.world.destinations n)) ∧
      (src.cmp m.headPosition φ.cursor.position > 0 → (∀ diffs, (∀ d ∈ diffs, d ∈ m.artifacts) →
          ¬ Linked o.order φ.cursor.position diffs m.headPosition) →
        (∃ out c, Move src (φ.world.destinations n) φ.cursor out c) ∧
        ∀ out c, Move src (φ.world.destinations n) φ.cursor out c →
          out = .nothing ∧ c = { φ.cursor with pc := .rebaseline })) ∧
    (∀ m, (φ.world.destinations n).manifest = some m →
      (φ.cursor.pc ≠ .finished → φ.cursor.pc ≠ .failed →
        ∃ out c, Move src (φ.world.destinations n) φ.cursor out c) ∧
      ∀ out c, Move src (φ.world.destinations n) φ.cursor out c → c.pc ≠ .failed) := by
  have hinv : φ.Following cfg o src n := by
    refine hreach.invariant (Following cfg o src n) Following.init ?_
    intro φ₁ φ₂ a h hok hs
    cases hs with
    | writer hs => exact h.writer hn hapart hok.1 hok.2 hs
    | source hmove => exact h.move hn hsrc hmove
  refine ⟨hinv.at_goal, ⟨hinv.chain.nodup, hinv.chain⟩, fun hpc m hload => ⟨?_, ?_⟩,
    fun m hm => ⟨?_, ?_⟩⟩
  · exact hinv.at_head hn hsrc hpc hload
  · exact hinv.refuses hn hsrc hpc hload
  · exact hinv.progress hn hsrc hm
  · exact fun out c hmove => hinv.not_failed hn hsrc hm hmove

/-- Like `Plannable`, but several changes may have the same position, as long as every diff ends
past its start. -/
def Advancing (cfg : Config B V) (o : Origin V cfg.keyFields) (φ : Follower B V) : Label V → Prop
  | .writer a => φ.world.Advancing cfg o a ∧ ∀ d ∈ φ.cursor.pc.pending, φ.world.Spares cfg d a
  | .source => True

end Follower

open Snapshotter (Payload diffsOnly plainReader emptyAt plainConfig_keysFree rowWithId insertOne
  insertTwo buffer_insertOne_ne)

def eventsSource : Source (Payload Text) Text :=
  ⟨plainReader, ⟨"public", "events"⟩, ["id"], (ofOrd String).cmp, true⟩

lemma eventsSource_reads (pos : String) : eventsSource.Reads diffsOnly (emptyAt pos) :=
  ⟨Snapshotter.plainReader_decodes, rfl, rfl⟩

namespace Follower

/-- Row 1 is inserted at 0/20 and flushed, and the follower baselines. Row 2 is inserted at 0/20 as
well, and a snapshot taken. -/
theorem shared_position_is_not_followed :
    ∃ (φ : Follower (Payload Text) Text) (m : Manifest),
      Reach (Step diffsOnly eventsSource "local") (Advancing diffsOnly (emptyAt "0/10"))
        (init ∅ "0/10") φ ∧
      φ.cursor.pc = .polling ∧
      Reader.loadManifest (φ.world.destinations "local") = .ok m ∧
      (∀ a ∈ m.artifacts, ∀ p ∈ a.fromPosition, (ofOrd String).Lt p a.toPosition) ∧
      ¬ eventsSource.cmp m.headPosition φ.cursor.position > 0 ∧
      φ.rows.toList.map Prod.snd = [rowWithId "1"] ∧
      plainReader.reconstructAsOf 4 (φ.world.destinations "local") m.headPosition ["id"]
        (ofOrd String).cmp =
          some (.ok (some ⟨[rowWithId "1", rowWithId "2"], m.headPosition⟩)) := by
  have h : Reach (Step diffsOnly eventsSource "local")
      (Advancing diffsOnly (emptyAt "0/10")) (init ∅ "0/10") _ := .refl _
  have h := h.snoc (.writer (.start rfl))
    |>.snoc (.writer (.capture rfl (.refl _)))
    |>.snoc (a := .writer (.commit none 0)) (.writer (.commit rfl)) (by
      refine ⟨⟨trivial, by intro _ _ _ _ hph; cases hph; rfl, ?_⟩, nofun⟩
      exact plainConfig_keysFree rfl (by decide +kernel))
  have h := h
    |>.snoc (a := .writer (.publish "0/20" insertOne)) (.writer (.publish rfl))
    |>.snoc (.writer (.deliver rfl))
    |>.snoc (a := .writer (.drain _ 0)) (.writer (.drain rfl buffer_insertOne_ne (.refl _)))
    |>.snoc (.writer (.stamp rfl))
  have h := h.snoc (a := .writer (.write none)) (.writer (.write rfl)) (by
    refine ⟨⟨?_, by intro _ _ hph; cases hph; nofun, ?_⟩, nofun⟩
    · intro d upTo hph
      cases hph
      decide +kernel
    · exact plainConfig_keysFree rfl (by decide +kernel))
    |>.snoc (.source (.load (.inl rfl) rfl))
    |>.snoc (.source (@Move.reconstructed _ _ _ _ _ _ "0/20" 3 ⟨[rowWithId "1"], "0/20"⟩ rfl
      rfl))
  have h := h
    |>.snoc (a := .writer (.publish "0/20" insertTwo)) (.writer (.publish rfl))
    |>.snoc (.writer (.deliver rfl))
    |>.snoc (.writer (.force rfl))
    |>.snoc (.writer (.capture rfl (.refl _)))
  have h := h.snoc (a := .writer (.commit none 0)) (.writer (.commit rfl)) (by
    refine ⟨⟨trivial, by intro _ _ _ _ hph; cases hph; rfl, ?_⟩, nofun⟩
    exact plainConfig_keysFree rfl (by decide +kernel))
  have hfwd : ∀ a ∈ [(⟨.snapshot, 1, none, "0/10", ["plain"]⟩ : Artifact),
      ⟨.diff, 1, some "0/10", "0/20", ["plain"]⟩, ⟨.snapshot, 2, none, "0/20", ["plain"]⟩],
      ∀ p ∈ a.fromPosition, (ofOrd String).Lt p a.toPosition := by decide +kernel
  have hhead : ¬ eventsSource.cmp "0/20" "0/20" > 0 := by decide +kernel
  exact ⟨_, _, h, rfl, rfl, hfwd, hhead, rfl, rfl⟩

theorem follows_diff : ∃ φ : Follower (Payload Text) Text,
      Reach (Step diffsOnly eventsSource "local") (Plannable diffsOnly (emptyAt "0/10"))
        (init ∅ "0/10") φ ∧
      φ.cursor.pc = .draining [] ∧ φ.cursor.position = "0/20" ∧ φ.base = "0/10" ∧
      φ.AtHead eventsSource φ.read ∧ φ.emitted.Nodup := by
  have h : Reach (Step diffsOnly eventsSource "local")
      (Plannable diffsOnly (emptyAt "0/10")) (init ∅ "0/10") _ := .refl _
  have h := h.snoc (.writer (.start rfl))
    |>.snoc (.writer (.capture rfl (.refl _)))
    |>.snoc (a := .writer (.commit none 0)) (.writer (.commit rfl)) (by
      refine ⟨⟨⟨trivial, by intro _ _ _ _ hph; cases hph; rfl, ?_⟩, nofun⟩, nofun⟩
      exact plainConfig_keysFree rfl (by decide +kernel))
  have h := h
    |>.snoc (.source (.load (.inl rfl) rfl))
    |>.snoc (.source (@Move.reconstructed _ _ _ _ _ _ "0/10" 3 ⟨[], "0/10"⟩ rfl rfl))
    |>.snoc (a := .writer (.publish "0/20" insertOne)) (.writer (.publish rfl))
    |>.snoc (.writer (.deliver rfl))
    |>.snoc (a := .writer (.drain _ 0)) (.writer (.drain rfl buffer_insertOne_ne (.refl _)))
    |>.snoc (.writer (.stamp rfl))
  have h := h.snoc (a := .writer (.write none)) (.writer (.write rfl)) (by
    refine ⟨⟨⟨trivial, by intro _ _ hph; cases hph; nofun, ?_⟩, nofun⟩, nofun⟩
    exact plainConfig_keysFree rfl (by decide +kernel))
  have hhead : eventsSource.cmp "0/20" "0/10" > 0 := by decide +kernel
  have h := h.snoc (.source (@Move.plan _ _ _ _ _ _ _ 3
    ⟨none, [⟨.diff, 1, some "0/10", "0/20", ["plain"]⟩], "0/20"⟩ rfl rfl hhead rfl rfl))
  have h := h
    |>.snoc (.source (.read rfl rfl))
    |>.snoc (.source (.emit rfl))
    |>.snoc (.source (.next rfl))
  have hres := following_equals_reconstructing diffsOnly (emptyAt "0/10")
    Snapshotter.plainConfig_formatsApart eventsSource (eventsSource_reads "0/10") (n := "local")
    (List.mem_singleton.mpr rfl) h
  exact ⟨_, h, rfl, rfl, rfl, hres.1 rfl, hres.2.1.1⟩

end Follower

end Laredo.Archive
