import Laredo.Snapshotter.History

/-!
# Faithful

Runs of the writer in which every artifact listed in a manifest leads to or between tables that the
subscription really had (`Truthful`).
-/

namespace Laredo.Snapshotter

open World Manifest List Option

variable {B V : Type}

lemma Manifest.mem_add {keepEpochs : Int} {art a : Artifact} {m : Manifest}
    (h : a ∈ (m.add keepEpochs art).artifacts) : a ∈ m.artifacts ∨ a = art := by
  have hmem := (prune_sublist keepEpochs _).subset h
  rcases mem_append.mp hmem with hold | hnew
  · exact .inl hold
  · exact .inr (mem_singleton.mp hnew)

@[simp] lemma Manifest.prune_manifestVersion (keepEpochs : Int) (m : Manifest) :
    (m.prune keepEpochs).manifestVersion = m.manifestVersion := by
  unfold prune
  split <;> rfl

@[simp] lemma Manifest.add_manifestVersion (keepEpochs : Int) (art : Artifact) (m : Manifest) :
    (m.add keepEpochs art).manifestVersion = currentManifestVersion :=
  prune_manifestVersion keepEpochs _

namespace World

def Listed (cfg : Config B V) (s : World B V) (a : Artifact) : Prop :=
  a ∈ s.writer.manifest.artifacts ∨
    ∃ n ∈ cfg.destinations, ∃ m, (s.destinations n).manifest = some m ∧ a ∈ m.artifacts

def target (cfg : Config B V) (s : World B V) (fault : Option Nat) : Option Artifact :=
  match s.phase with
  | .stamped d upTo =>
      if (s.writer.finishFlush cfg d upTo s.table.size fault s.destinations).2.2 = .rebase then none
      else some (diffArtifact cfg d.epoch d.start upTo)
  | .captured _ epoch _ pos => some (snapshotArtifact cfg epoch pos)
  | _ => none

variable {initial : Bool} {epoch : Nat} {rows : List (Row V)} {pos : String}

lemma target_captured (cfg : Config B V) {s : World B V}
    (hph : s.phase = .captured initial epoch rows pos)
    (fault : Option Nat) : s.target cfg fault = some (snapshotArtifact cfg epoch pos) := by
  unfold target
  simp only [hph]

variable {d : Drained V} {upTo : String} {fault : Option Nat} {st : Destinations B} {w : Writer V}

lemma target_stamped {cfg : Config B V} {s : World B V} (hph : s.phase = .stamped d upTo)
    {w' : Writer V} {ok : Bool}
    (hdone : s.writer.finishFlush cfg d upTo s.table.size fault s.destinations =
      if ok = true then (st, w, .done) else (st, w', .failed)) :
    s.target cfg fault = some (diffArtifact cfg d.epoch d.start upTo) := by
  unfold target
  simp only [hph, hdone]
  cases ok <;> rfl

def KeysFree (cfg : Config B V) (s : World B V) : Label V → Prop
  | .write fault | .commit fault _ | .die fault =>
      ∀ art, s.target cfg fault = some art → ∀ a, s.Listed cfg a → art.Apart cfg a
  | _ => True

def DiffsComplete (cfg : Config B V) (s : World B V) : Label V → Prop
  | .write fault | .die fault =>
      ∀ art, s.target cfg fault = some art → art.kind = .diff → s.snapshotFailed = false
  | _ => True

def Based (s : World B V) : Prop :=
  s.snapshotFailed = false ∧ s.phase.collects = true

/-- The artifact leads to the table it says, or from one to the other, at every
destination. -/
structure Genuine (cfg : Config B V) (order : Comparator String) (visited : String → Prop)
    (tableAt : String → Store V) (st : Destinations B) (a : Artifact) : Prop where
  known : visited a.toPosition
  start : a.kind = .diff → ∃ p, a.fromPosition = some p ∧ visited p ∧ order.Lt p a.toPosition
  sound : ∀ n ∈ cfg.destinations, a.Sound cfg tableAt (st n)

/-- Everything listed in the manifest `held` or in a stored one is genuine, and the stored
ones have the current version. -/
structure Truthful (cfg : Config B V) (order : Comparator String) (visited : String → Prop)
    (tableAt : String → Store V) (st : Destinations B) (held : Manifest) : Prop where
  held : ∀ a ∈ held.artifacts, Genuine cfg order visited tableAt st a
  stored : ∀ n ∈ cfg.destinations, ∀ m, (st n).manifest = some m →
    ∀ a ∈ m.artifacts, Genuine cfg order visited tableAt st a
  version : ∀ n ∈ cfg.destinations, ∀ m, (st n).manifest = some m →
    m.manifestVersion = currentManifestVersion

section

variable {cfg : Config B V} {order : Comparator String} {visited visited' : String → Prop}
variable {tableAt tableAt' : String → Store V} {st st' : Destinations B} {art : Artifact}
variable {held : Manifest}

lemma Genuine.mono (h : Genuine cfg order visited tableAt st art)
    (hvisited : ∀ q, visited q → visited' q) (htab : ∀ q, visited q → tableAt' q = tableAt q) :
    Genuine cfg order visited' tableAt' st art := by
  obtain ⟨hknown, hst0, hsound⟩ := h
  refine ⟨hvisited _ hknown, ?_, ?_⟩
  · intro hkind
    obtain ⟨p, hp, hvis, hlt⟩ := hst0 hkind
    exact ⟨p, hp, hvisited p hvis, hlt⟩
  · intro n hn
    refine (hsound n hn).mono (htab _ hknown) fun hkind q hq => ?_
    obtain ⟨p, hp, hvis, -⟩ := hst0 hkind
    obtain rfl : p = q := some.inj (hp.symm.trans hq)
    exact htab p hvis

lemma Truthful.mono (h : Truthful cfg order visited tableAt st held)
    (hvis : ∀ q, visited q → visited' q) (htab : ∀ q, visited q → tableAt' q = tableAt q) :
    Truthful cfg order visited' tableAt' st held :=
  ⟨fun a ha => (h.held a ha).mono hvis htab,
    fun n hn m hm a ha => (h.stored n hn m hm a ha).mono hvis htab, h.version⟩

lemma Genuine.published (h : Genuine cfg order visited tableAt st art)
    (hobj : ∀ n, (st' n).objects = (st n).objects) :
    Genuine cfg order visited tableAt st' art := by
  refine ⟨h.known, h.start, fun n hn => ?_⟩
  have hat := h.sound n hn
  exact ⟨hat.formats, hobj n ▸ hat.objects⟩

lemma Truthful.loadManifest (h : Truthful cfg order visited tableAt st held) :
    Truthful cfg order visited tableAt st (Writer.new.loadManifest cfg st : Writer V).manifest := by
  refine ⟨Writer.loadManifest_all (P := fun m => ∀ a ∈ m.artifacts, _) cfg ?_ h.stored, h.stored,
    h.version⟩
  intro a ha
  cases ha

end

variable [GoValue V] {keyFields : List String}

/-- Rows are inserted, updated and deleted at strictly increasing positions, updates keep
the row's key, and nothing is published or in flight while the writer flushes or takes a
snapshot. -/
def Regular (o : Origin V keyFields) (s : World B V) : Label V → Prop
  | .publish pos e => o.order.Lt s.position pos ∧ e.isTruncate = false ∧ e.KeepsKey keyFields ∧
      (s.phase = .idle ∨ s.phase = .down)
  | .rebaseline _ _ => False
  | .drain _ _ | .force => s.inflight = none
  | _ => True

def unsaved (keyFields : List String) (s : World B V) : Buffer V :=
  match s.phase.drained with
  | some d => d.buffer
  | none =>
      match s.inflight with
      | none => s.writer.buffer
      | some e => s.writer.buffer.onChange keyFields e.old e.new

structure Tracks (o : Origin V keyFields) (s : World B V) : Prop where
  known : s.Known o s.writer.fromPos
  plain : (s.unsaved keyFields).Plain
  bridges : (s.unsaved keyFields).Bridges (s.tableAt o s.writer.fromPos) s.table
  moved : s.unsaved keyFields ≠ ∅ → o.order.Lt s.writer.fromPos s.position

structure Faithful (cfg : Config B V) (o : Origin V cfg.keyFields) (s : World B V) : Prop
    extends s.History o where
  truthful : Truthful cfg o.order (s.Known o) (s.tableAt o) s.destinations s.writer.manifest
  calm : s.phase ≠ .idle → s.inflight = none
  emptied : s.phase ≠ .idle → s.phase ≠ .down → s.writer.buffer = ∅
  stamp : ∀ q, s.phase.stamp = some q → q = s.position
  captured : ∀ initial epoch rows pos, s.phase = .captured initial epoch rows pos →
    rows.Perm (s.table.toList.map Prod.snd)
  drained : ∀ d, s.phase.drained = some d → d.start = s.writer.fromPos ∧
    d.epoch = s.writer.epoch ∧ d.buffer ≠ ∅ ∧ d.changes.Perm (d.buffer.toList.map Prod.snd)
  tracks : s.Based → s.Tracks o

variable {cfg : Config B V} {o : Origin V cfg.keyFields} {s s' : World B V} {a : Label V}

structure Intends (cfg : Config B V) (o : Origin V cfg.keyFields) (s : World B V) (art : Artifact)
    (encode : Format B V → Option B) : Prop where
  formats : art.formats = (cfg.formatsOf art.kind).map Format.formatID
  known : s.Known o art.toPosition
  start : art.kind = .diff →
    ∃ p, art.fromPosition = some p ∧ s.Known o p ∧ o.order.Lt p art.toPosition
  right : ∀ f ∈ cfg.formatsOf art.kind, ∀ data, encode f = some data →
    art.Holds (s.tableAt o) f data

variable {art : Artifact}

section

variable (h : Truthful cfg o.order (s.Known o) (s.tableAt o) s.destinations s.writer.manifest)
include h

lemma Truthful.genuine_of_listed (hart : s.Listed cfg art) :
    Genuine cfg o.order (s.Known o) (s.tableAt o) s.destinations art := by
  rcases hart with hhl | ⟨n, hn, m, hm, hstd⟩
  · exact h.held art hhl
  · exact h.stored n hn m hm art hstd

variable {encode : Format B V → Option B}

lemma Truthful.written (hap : cfg.FormatsApart)
    (hfree : ∀ a, s.Listed cfg a → art.Apart cfg a) (hart : s.Intends cfg o art encode)
    (hw : Written (Encodes cfg art encode (cfg.formatsOf art.kind)) s.destinations st)
    {a : Artifact} (ha : s.Listed cfg a) :
    Genuine cfg o.order (s.Known o) (s.tableAt o) st a := by
  obtain ⟨hknown, hst0, hsound⟩ := h.genuine_of_listed ha
  exact ⟨hknown, hst0, fun n hn => (hsound n hn).written hap (hfree a ha) hart.right hw⟩

lemma Truthful.attempt (hap : cfg.FormatsApart) {ok : Bool}
    (hatt : Attempt cfg art encode (cfg.formatsOf art.kind) s.writer s.destinations st w ok)
    (hfree : ∀ a, s.Listed cfg a → art.Apart cfg a) (hart : s.Intends cfg o art encode) :
    Truthful cfg o.order (s.Known o) (s.tableAt o) st w.manifest ∧
      Truthful cfg o.order (s.Known o) (s.tableAt o) st s.writer.manifest := by
  cases hatt with
  | notPut hw =>
    have htruth : Truthful cfg o.order (s.Known o) (s.tableAt o) st s.writer.manifest := by
      refine ⟨fun a ha => h.written hap hfree hart hw (.inl ha), ?_, ?_⟩
      · intro n hn m hm a ha
        rw [hw.manifest n] at hm
        exact h.written hap hfree hart hw (.inr ⟨n, hn, m, hm, ha⟩)
      · intro n hn m hm
        rw [hw.manifest n] at hm
        exact h.version n hn m hm
    exact ⟨htruth, htruth⟩
  | @put st₁ _ revs _ hw hc hp hok =>
    have hold : ∀ a, s.Listed cfg a → Genuine cfg o.order (s.Known o) (s.tableAt o) st a :=
      fun a ha => (h.written hap hfree hart hw ha).published hp.objects
    have hnew : Genuine cfg o.order (s.Known o) (s.tableAt o) st art := by
      refine Genuine.published ⟨hart.known, hart.start, fun n hn => ?_⟩ hp.objects
      exact Artifact.Sound.of_complete hn hap hart.formats hart.right hc
    have hadded : ∀ a ∈ (s.writer.manifest.add cfg.keepEpochs art).artifacts,
        Genuine cfg o.order (s.Known o) (s.tableAt o) st a := by
      intro a ha
      rcases mem_add ha with ha | rfl
      · exact hold a (.inl ha)
      · exact hnew
    have hman : ∀ n m, (st n).manifest = some m →
        (s.destinations n).manifest = some m ∨ m = s.writer.manifest.add cfg.keepEpochs art := by
      intro n m hm
      rcases hp.manifest n with hsame | hadd
      · rw [hm, hw.manifest n] at hsame
        exact .inl hsame.symm
      · rw [hm] at hadd
        exact .inr (some.inj hadd)
    have hstd : ∀ n ∈ cfg.destinations, ∀ m, (st n).manifest = some m → ∀ a ∈ m.artifacts,
        Genuine cfg o.order (s.Known o) (s.tableAt o) st a := by
      intro n hn m hm a ha
      rcases hman n m hm with hm | rfl
      · exact hold a (.inr ⟨n, hn, m, hm, ha⟩)
      · exact hadded a ha
    have hver : ∀ n ∈ cfg.destinations, ∀ m, (st n).manifest = some m →
        m.manifestVersion = currentManifestVersion := by
      intro n hn m hm
      rcases hman n m hm with hm | rfl
      · exact h.version n hn m hm
      · exact add_manifestVersion _ _ _
    exact ⟨⟨hadded, hstd, hver⟩, fun a ha => hold a (.inl ha), hstd, hver⟩

lemma Truthful.flushed (hap : cfg.FormatsApart) (hph : s.phase = .stamped d upTo)
    (hfree : ∀ art, s.target cfg fault = some art → ∀ a, s.Listed cfg a → art.Apart cfg a)
    (hart : s.target cfg fault = some (diffArtifact cfg d.epoch d.start upTo) →
      s.Intends cfg o (diffArtifact cfg d.epoch d.start upTo) (·.writeDiff d.changes)) :
    s.writer.finishFlush cfg d upTo s.table.size fault s.destinations =
        (s.destinations, s.writer.discard, .rebase) ∨
    ∃ st w ok, s.target cfg fault = some (diffArtifact cfg d.epoch d.start upTo) ∧
      Attempt cfg (diffArtifact cfg d.epoch d.start upTo) (·.writeDiff d.changes) cfg.diffFormats
        s.writer s.destinations st w ok ∧
      s.writer.finishFlush cfg d upTo s.table.size fault s.destinations =
        (if ok = true then (st, { w with fromPos := upTo }, .done)
        else (st, { w with buffer := w.buffer.remerge d.buffer }, .failed)) ∧
      Truthful cfg o.order (s.Known o) (s.tableAt o) st w.manifest ∧
      Truthful cfg o.order (s.Known o) (s.tableAt o) st s.writer.manifest := by
  rcases s.writer.finishFlush_spec cfg d upTo s.table.size fault s.destinations with
    hreb | ⟨st, w, ok, ⟨hatt, -⟩, hdone⟩
  · exact .inl hreb
  · have htgt := target_stamped hph hdone
    obtain ⟨hnew, hold⟩ := h.attempt hap hatt (hfree _ htgt) (hart htgt)
    exact .inr ⟨st, w, ok, htgt, hatt, hdone, hnew, hold⟩

lemma Truthful.snapshotted (hap : cfg.FormatsApart)
    (hph : s.phase = .captured initial epoch rows pos) (now : Int)
    (hfree : ∀ art, s.target cfg fault = some art → ∀ a, s.Listed cfg a → art.Apart cfg a)
    (hart : s.Intends cfg o (snapshotArtifact cfg epoch pos) (·.writeSnapshot rows)) :
    ∃ st w ok bytes, Attempt cfg (snapshotArtifact cfg epoch pos) (·.writeSnapshot rows)
        cfg.snapshotFormats s.writer s.destinations st w ok ∧
      s.writer.finishSnapshot cfg epoch rows pos now fault s.destinations =
        (st, (if ok = true then { w with
          epoch := epoch
          fromPos := pos
          lastSnapshotAt := now
          lastSnapshotBytes := bytes } else w), ok) ∧
      Truthful cfg o.order (s.Known o) (s.tableAt o) st w.manifest ∧
      Truthful cfg o.order (s.Known o) (s.tableAt o) st s.writer.manifest := by
  obtain ⟨st, w, ok, bytes, ⟨hatt, -⟩, hdone⟩ :=
    s.writer.finishSnapshot_spec cfg epoch rows pos now fault s.destinations
  have htgt := target_captured cfg hph fault
  obtain ⟨hnew, hold⟩ := h.attempt hap hatt (hfree _ htgt) hart
  exact ⟨st, w, ok, bytes, hatt, hdone, hnew, hold⟩

end

lemma Faithful.intends_diff (h : s.Faithful cfg o)
    (hph : s.phase = .stamped d upTo) (hclean : s.snapshotFailed = false) :
    s.Intends cfg o (diffArtifact cfg d.epoch d.start upTo) (·.writeDiff d.changes) := by
  have hdrn : s.phase.drained = some d := by rw [hph]; rfl
  obtain rfl : upTo = s.position := h.stamp upTo (by rw [hph]; rfl)
  obtain ⟨hst0, -, hne, hperm⟩ := h.drained d hdrn
  obtain ⟨hknown, hpl, hbrd, hmvd⟩ := h.tracks ⟨hclean, by rw [hph]; rfl⟩
  have huns : s.unsaved cfg.keyFields = d.buffer := by
    unfold unsaved
    rw [hdrn]
  rw [huns] at hpl hbrd hmvd
  refine ⟨rfl, h.current, fun _ => ⟨d.start, rfl, ?_, ?_⟩, ?_⟩
  · rw [hst0]
    exact hknown
  · rw [hst0]
    exact hmvd hne
  · intro f _ data hdata
    refine ⟨d.start, d.changes, rfl, hdata, ?_⟩
    show foldChanges (s.tableAt o d.start) d.changes = s.tableAt o s.position
    rw [hst0, h.tableAt_position]
    exact hbrd.foldChanges_eq hpl hperm

lemma Faithful.intends_snapshot (h : s.Faithful cfg o)
    (hph : s.phase = .captured initial epoch rows pos) :
    s.Intends cfg o (snapshotArtifact cfg epoch pos) (·.writeSnapshot rows) := by
  obtain rfl : pos = s.position := h.stamp pos (by rw [hph]; rfl)
  refine ⟨rfl, h.current, nofun, ?_⟩
  intro f _ data hdata
  refine ⟨rows, hdata, ?_⟩
  show rows.Perm ((s.tableAt o s.position).toList.map Prod.snd)
  rw [h.tableAt_position]
  exact h.captured initial epoch rows s.position hph

lemma Tracks.of_eq (h : s.Tracks o) (hlog : s'.log = s.log) (htab : s'.table = s.table)
    (hpos : s'.position = s.position) (hfrom : s'.writer.fromPos = s.writer.fromPos)
    (huns : s'.unsaved cfg.keyFields = s.unsaved cfg.keyFields) : s'.Tracks o := by
  obtain ⟨hknown, hpl, hbrd, hmvd⟩ := h
  refine ⟨?_, ?_, ?_, ?_⟩
  · unfold Known at hknown ⊢
    rw [hlog, hfrom]
    exact hknown
  · rw [huns]
    exact hpl
  · unfold tableAt at hbrd ⊢
    rw [huns, hlog, hfrom, htab]
    exact hbrd
  · rw [huns, hfrom, hpos]
    exact hmvd

lemma History.tracks_empty (h : s.History o) (hpos : s.writer.fromPos = s.position)
    (huns : s.unsaved cfg.keyFields = ∅) : s.Tracks o := by
  refine ⟨?_, ?_, ?_, fun hne => absurd huns hne⟩
  · rw [hpos]
    exact h.current
  · rw [huns]
    exact Buffer.Plain.empty
  · rw [huns, hpos, h.tableAt_position]
    exact WriteBuffer.Bridges.empty

lemma Faithful.move (h : s.Faithful cfg o) (eds : List (Edit V))
    (hne : eds ≠ []) (hpos : o.order.Lt s.position pos)
    (hlog : s'.log = s.log ++ eds.map (Prod.mk pos)) (hposi : s'.position = pos)
    (htab : s'.table = Edit.replay cfg.keyFields s.table eds)
    (hwriter : s'.writer = s.writer) (hph : s'.phase = s.phase)
    (hdests : s'.destinations = s.destinations) (hstamp : s.phase.stamp = none)
    (hcalm : s.phase ≠ .idle → s'.inflight = none) (htracks : s'.Based → s'.Tracks o) :
    s'.Faithful cfg o := by
  refine ⟨h.toHistory.publish hne hpos hlog hposi htab, ?_, ?_, ?_, ?_, ?_, ?_, htracks⟩
  · rw [hdests, hwriter]
    refine h.truthful.mono (fun q hq => (known_append hne hlog).mpr (.inl hq)) fun q hq => ?_
    exact tableAt_append hlog ((h.bounded q hq).trans_lt hpos)
  · rwa [hph]
  · rw [hph, hwriter]
    exact h.emptied
  · intro q hq
    rw [hph, hstamp] at hq
    cases hq
  · intro initial epoch rows q hcapt
    rw [← hph, hcapt] at hstamp
    cases hstamp
  · rw [hph, hwriter]
    exact h.drained

lemma Tracks.publish (h : s.Tracks o) (hidle : s.phase = .idle) (hin : s.inflight = none)
    {e : Edit V} (eds : List (Edit V)) (hne : eds ≠ [])
    (hbd : o.order.Lt s.writer.fromPos pos) (htr : e.isTruncate = false)
    (hlog : s'.log = s.log ++ eds.map (Prod.mk pos)) (hpos : s'.position = pos)
    (htab : s'.table = e.applyBlind cfg.keyFields s.table) (hwriter : s'.writer = s.writer)
    (hph : s'.phase = s.phase) (hinfl : s'.inflight = some e) : s'.Tracks o := by
  obtain ⟨hfrom, hpl, hbrd, -⟩ := h
  have hold : s.unsaved cfg.keyFields = s.writer.buffer := by
    simp only [unsaved, hidle, Phase.drained, hin]
  have hnew : s'.unsaved cfg.keyFields = s.writer.buffer.onChange cfg.keyFields e.old e.new := by
    simp only [unsaved, hph, hidle, Phase.drained, hinfl, hwriter]
  rw [hold] at hpl hbrd
  refine ⟨?_, ?_, ?_, fun _ => ?_⟩
  · rw [hwriter]
    exact (known_append hne hlog).mpr (.inl hfrom)
  · rw [hnew]
    exact hpl.onChange htr
  · rw [hnew, hwriter, tableAt_append hlog hbd, htab]
    exact hbrd.onChange htr
  · rw [hwriter, hpos]
    exact hbd

section

variable (h : s.Faithful cfg o)
include h

lemma Faithful.publish {e e₀ : Edit V}
    (hin : s.inflight = none) (hpos : o.order.Lt s.position pos) (htr : e.isTruncate = false)
    (hcalm : s.phase = .idle ∨ s.phase = .down)
    (hsame : e₀.apply cfg.keyFields s.table = e.applyBlind cfg.keyFields s.table) :
    Faithful cfg o { s with
      table := e.applyBlind cfg.keyFields s.table
      position := pos
      inflight := if s.phase.isDown then none else some e
      log := s.log ++ [(pos, e₀)] } := by
  refine h.move [e₀] nofun hpos rfl rfl hsame.symm rfl rfl rfl ?_ ?_ ?_
  · rcases hcalm with hph | hph <;> rw [hph] <;> rfl
  · intro hidle
    simp [hcalm.resolve_left hidle, Phase.isDown]
  · intro hbs
    have hidle : s.phase = .idle := by
      refine hcalm.resolve_right fun hdown => ?_
      have hcoll : s.phase.collects = true := hbs.2
      rw [hdown] at hcoll
      cases hcoll
    have htracks := h.tracks hbs
    exact htracks.publish hidle hin [e₀] nofun
      ((h.bounded _ htracks.known).trans_lt hpos) htr rfl rfl rfl rfl rfl
      (by simp [hidle, Phase.isDown])

lemma Faithful.death
    (htruth : Truthful cfg o.order (s.Known o) (s.tableAt o) st s.writer.manifest) :
    Faithful cfg o (s.afterDeath st) := by
  refine ⟨h.toHistory.of_eq rfl rfl rfl, htruth, fun _ => rfl, ?_, nofun, nofun, nofun,
    fun hbs => nomatch hbs.2⟩
  intro _ hdown
  exact absurd rfl hdown

lemma Faithful.putBack (hph : s.phase = .stamped d upTo) (hclean : s.snapshotFailed = false)
    (hbfr : w.buffer = ∅) (hfrom : w.fromPos = s.writer.fromPos) :
    Tracks o { s with
      destinations := st
      writer := { w with buffer := w.buffer.remerge d.buffer }
      phase := .idle } := by
  have hdrn : s.phase.drained = some d := by rw [hph]; rfl
  have hin : s.inflight = none := h.calm (by rw [hph]; nofun)
  have hold : s.unsaved cfg.keyFields = d.buffer := by
    unfold unsaved
    rw [hdrn]
  obtain ⟨hknown, hpl, hbrd, hmvd⟩ := h.tracks ⟨hclean, by rw [hph]; rfl⟩
  rw [hold] at hpl hbrd hmvd
  have hnew : unsaved cfg.keyFields { s with
      destinations := st
      writer := { w with buffer := w.buffer.remerge d.buffer }
      phase := .idle } = (∅ : Buffer V).remerge d.buffer := by
    simp only [unsaved, Phase.drained, hin, hbfr]
  refine ⟨?_, ?_, ?_, fun _ => ?_⟩
  · show s.Known o w.fromPos
    rw [hfrom]
    exact hknown
  · rw [hnew]
    exact Buffer.Plain.empty.remerge hpl
  · rw [hnew]
    rw [hfrom]
    exact hbrd.remerge WriteBuffer.Bridges.empty
  · show o.order.Lt w.fromPos s.position
    rw [hfrom]
    exact hmvd (h.drained d hdrn).2.2.1

lemma Faithful.write (hap : cfg.FormatsApart) (hph : s.phase = .stamped d upTo)
    (hfree : s.KeysFree cfg (.write fault)) (hcpl : s.DiffsComplete cfg (.write fault)) :
    Faithful cfg o (s.afterFlush cfg d upTo
      (s.writer.finishFlush cfg d upTo s.table.size fault s.destinations)) := by
  have hin : s.inflight = none := h.calm (by rw [hph]; nofun)
  have hemp : s.writer.buffer = ∅ := h.emptied (by rw [hph]; nofun) (by rw [hph]; nofun)
  obtain rfl : upTo = s.position := h.stamp upTo (by rw [hph]; rfl)
  rcases h.truthful.flushed hap hph hfree fun htgt => h.intends_diff hph (hcpl _ htgt rfl) with
    hreb | ⟨st, w, ok, htgt, hatt, hdone, htruth, -⟩
  · rw [hreb]
    exact ⟨h.toHistory.of_eq rfl rfl rfl, h.truthful, fun _ => hin,
      fun _ _ => rfl, nofun, nofun, nofun, fun hbs => nomatch hbs.2⟩
  · rw [hdone]
    cases ok with
    | true =>
      have hbfr := hatt.buffer_eq.trans hemp
      refine ⟨h.toHistory.of_eq rfl rfl rfl, htruth, fun hne => absurd rfl hne,
        fun hne => absurd rfl hne, nofun, nofun, nofun, fun _ => ?_⟩
      refine History.tracks_empty (h.toHistory.of_eq rfl rfl rfl) rfl ?_
      show (match s.inflight with | none => w.buffer | some e => _) = ∅
      rw [hin, hbfr]
    | false =>
      exact ⟨h.toHistory.of_eq rfl rfl rfl, htruth, fun hne => absurd rfl hne,
        fun hne => absurd rfl hne, nofun, nofun, nofun, fun _ => h.putBack hph (hcpl _ htgt rfl)
          (hatt.buffer_eq.trans hemp) hatt.fromPos_eq.1⟩

lemma Faithful.commit (hap : cfg.FormatsApart) {now : Int}
    (hph : s.phase = .captured initial epoch rows pos)
    (hfree : s.KeysFree cfg (.commit fault now)) :
    Faithful cfg o (s.afterSnapshot cfg initial epoch pos
      (s.writer.finishSnapshot cfg epoch rows pos now fault s.destinations)) := by
  have hin : s.inflight = none := h.calm (by rw [hph]; nofun)
  have hemp : s.writer.buffer = ∅ := h.emptied (by rw [hph]; nofun) (by rw [hph]; nofun)
  obtain rfl : pos = s.position := h.stamp pos (by rw [hph]; rfl)
  obtain ⟨st, w, ok, bytes, hatt, hdone, htruth, -⟩ :=
    h.truthful.snapshotted hap hph now hfree (h.intends_snapshot hph)
  rw [hdone]
  cases ok with
  | true =>
    refine ⟨h.toHistory.of_eq rfl rfl rfl, htruth, fun hne => absurd rfl hne,
      fun hne => absurd rfl hne, nofun, nofun, nofun, fun _ => ?_⟩
    refine History.tracks_empty (h.toHistory.of_eq rfl rfl rfl) rfl ?_
    show (match s.inflight with | none => w.buffer | some e => _) = ∅
    rw [hin]
    exact hatt.buffer_eq.trans hemp
  | false =>
    refine ⟨h.toHistory.of_eq rfl rfl rfl, htruth, fun _ => hin, ?_, ?_, ?_, ?_, ?_⟩
    · intro hidle hdown
      cases initial with
      | true => exact absurd rfl hdown
      | false => exact absurd rfl hidle
    · intro q hq
      cases initial <;> cases hq
    · intro initial' epoch' rows' pos' hph'
      cases initial <;> cases hph'
    · intro d hd
      cases initial <;> cases hd
    · rintro ⟨hclean, -⟩
      cases hclean

lemma Faithful.step (hap : cfg.FormatsApart) (hreg : s.Regular o a)
    (hfree : s.KeysFree cfg a) (hcpl : s.DiffsComplete cfg a) (hs : Step cfg s a s') :
    s'.Faithful cfg o := by
  cases hs with
  | publish hin =>
    obtain ⟨hpos, htr, hkp, hcalm⟩ := hreg
    exact h.publish hin hpos htr hcalm (Edit.applyBlind_eq hkp s.table).symm
  | @deliver e hin =>
    have hidle : s.phase = .idle := by
      by_contra hne
      rw [h.calm hne] at hin
      cases hin
    refine ⟨h.toHistory.of_eq rfl rfl rfl, h.truthful, fun _ => rfl,
      fun hne => absurd hidle hne, h.stamp, h.captured, h.drained, fun hbs => ?_⟩
    refine (h.tracks hbs).of_eq rfl rfl rfl rfl ?_
    simp only [unsaved, hidle, Phase.drained, hin]
    rfl
  | rebaseline _ => exact hreg.elim
  | @drain changes now hph hne hperm =>
    have hin : s.inflight = none := hreg
    refine ⟨h.toHistory.of_eq rfl rfl rfl, h.truthful, fun _ => hin,
      fun _ _ => rfl, nofun, nofun, ?_, fun hbs => ?_⟩
    · intro d hd
      cases hd
      exact ⟨rfl, rfl, hne, hperm⟩
    · refine (h.tracks ⟨hbs.1, by rw [hph]; rfl⟩).of_eq rfl rfl rfl rfl ?_
      simp only [unsaved, hph, Phase.drained, hin]
      rfl
  | @stamp d hph =>
    have hdrn : s.phase.drained = some d := by rw [hph]; rfl
    refine ⟨h.toHistory.of_eq rfl rfl rfl, h.truthful, fun _ => h.calm (by rw [hph]; nofun),
      fun _ _ => h.emptied (by rw [hph]; nofun) (by rw [hph]; nofun), ?_, nofun, ?_, fun hbs => ?_⟩
    · intro q hq
      exact (some.inj hq).symm
    · intro d' hd'
      cases hd'
      exact h.drained d hdrn
    · refine (h.tracks ⟨hbs.1, by rw [hph]; rfl⟩).of_eq rfl rfl rfl rfl ?_
      simp only [unsaved, hph, Phase.drained]
  | write hph => exact h.write hap hph hfree hcpl
  | force hph =>
    exact ⟨h.toHistory.of_eq rfl rfl rfl, h.truthful, fun _ => hreg,
      fun _ _ => rfl, nofun, nofun, nofun, fun hbs => nomatch hbs.2⟩
  | @capture initial epoch rows hph hperm =>
    refine ⟨h.toHistory.of_eq rfl rfl rfl, h.truthful, fun _ => h.calm (by rw [hph]; nofun),
      fun _ _ => h.emptied (by rw [hph]; nofun) (by rw [hph]; nofun), ?_, ?_, nofun,
      fun hbs => nomatch hbs.2⟩
    · intro q hq
      exact (some.inj hq).symm
    · intro initial' epoch' rows' pos' hph'
      cases hph'
      exact hperm
  | commit hph => exact h.commit hap hph hfree
  | crash => exact h.death h.truthful
  | @dieFlushing d upTo fault hph =>
    rcases h.truthful.flushed hap hph hfree fun htgt => h.intends_diff hph (hcpl _ htgt rfl) with
      hreb | ⟨st, w, ok, -, -, hdone, -, htruth⟩
    · rw [hreb]
      exact h.death h.truthful
    · rw [hdone]
      cases ok with
      | true | false => exact h.death htruth
  | @dieSnapshotting initial epoch rows pos fault hph =>
    obtain ⟨st, w, ok, bytes, -, hdone, -, htruth⟩ :=
      h.truthful.snapshotted hap hph 0 hfree (h.intends_snapshot hph)
    rw [hdone]
    exact h.death htruth
  | start hph =>
    exact ⟨h.toHistory.of_eq rfl rfl rfl, h.truthful.loadManifest,
      fun _ => h.calm (by rw [hph]; nofun), fun _ _ => rfl, nofun, nofun, nofun,
      fun hbs => nomatch hbs.2⟩

end

lemma Faithful.init : Faithful cfg o (init o.table o.position) :=
  ⟨History.init, ⟨nofun, nofun, nofun⟩, fun _ => rfl, fun _ _ => rfl, nofun, nofun, nofun,
    fun hbs => nomatch hbs.2⟩

end World

lemma plainFormat_ne_nil : [plainFormat (V := Option String)] ≠ [] := cons_ne_nil _ _

def plainReader : Reader (Payload Text) Text :=
  ⟨"events/", [plainFormat], plainFormat_ne_nil⟩

def emptyAt (position : String) : Origin Text ["id"] :=
  ⟨Comparator.ofOrd String, ∅, position, KeyedMap.Keyed.empty⟩

section

variable {keepEpochs : Int} {shouldSnapshot : TriggerState → Bool}

lemma plainConfig_formatsOf (kind : ArtifactKind) :
    (plainConfig keepEpochs shouldSnapshot).formatsOf kind = [plainFormat] := by
  cases kind <;> rfl

lemma plainConfig_formatsApart : (plainConfig keepEpochs shouldSnapshot).FormatsApart := by
  intro kind f hf g hg _
  rw [plainConfig_formatsOf, mem_singleton] at hf hg
  rw [hf, hg]

lemma plainReader_decodes : plainReader.Decodes (plainConfig keepEpochs shouldSnapshot) := by
  have hreader : ∀ f ∈ plainReader.formats, f = plainFormat := fun f hf => mem_singleton.mp hf
  refine ⟨rfl, ?_, ?_, ?_, ?_⟩
  · intro f hf kind g hg _
    rw [plainConfig_formatsOf, mem_singleton] at hg
    rw [hreader f hf, hg]
  · intro f hf g hg _ rows data hwrite
    rw [hreader f hf]
    obtain rfl : g = plainFormat := mem_singleton.mp hg
    cases hwrite
    rfl
  · intro f hf g hg _ changes data hwrite
    rw [hreader f hf]
    obtain rfl : g = plainFormat := mem_singleton.mp hg
    cases hwrite
    rfl
  · intro kind
    refine ⟨plainFormat, mem_singleton.mpr rfl, ?_⟩
    rw [plainConfig_formatsOf]
    exact mem_singleton.mpr rfl

lemma plainConfig_keysFree {s : World (Payload Text) Text}
    {fault : Option Nat} {art : Artifact}
    (htgt : s.target (plainConfig keepEpochs shouldSnapshot) fault = some art)
    (hne : ∀ a ∈ s.writer.manifest.artifacts ++
        (s.destinations "local").manifest.toList.flatMap artifacts,
      artifactObjectKey "events/" art ".plain" ≠ artifactObjectKey "events/" a ".plain") :
    ∀ art, s.target (plainConfig keepEpochs shouldSnapshot) fault = some art →
      ∀ a, s.Listed (plainConfig keepEpochs shouldSnapshot) a →
        art.Apart (plainConfig keepEpochs shouldSnapshot) a := by
  intro art' htgt' a ha f hf g hg hkey
  cases htgt.symm.trans htgt'
  rw [plainConfig_formatsOf, mem_singleton] at hf hg
  rw [hf, hg] at hkey
  refine absurd hkey (hne a (mem_append.mpr ?_))
  rcases ha with ha | ⟨n, hn, m, hm, ha⟩
  · exact .inl ha
  · obtain rfl : n = "local" := mem_singleton.mp hn
    exact .inr (by simpa [hm] using ha)

end

end Laredo.Snapshotter
