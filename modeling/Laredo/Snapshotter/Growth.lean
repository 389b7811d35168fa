import Laredo.Snapshotter.Replay

/-!
# Growth

How the archive at a destination changes while somebody reads it. A process that ends in the middle
of committing leaves destinations with an older manifest.
-/

namespace Laredo.Snapshotter

open Manifest World Option Artifact

variable {B V : Type}

def Manifest.Continues (c : Comparator String) (m m' : Manifest) : Prop :=
  ∀ a ∈ m'.artifacts, a ∈ m.artifacts ∨ c.Le m.headPosition a.origin

structure Manifest.Grows (c : Comparator String) (m m' : Manifest) : Prop where
  continues : m.Continues c m'
  head : c.Le m.headPosition m'.headPosition

def Manifest.Rooted (c : Comparator String) (m : Manifest) : Prop :=
  ∀ a ∈ m.artifacts, a.kind = .diff →
    ∃ b ∈ m.artifacts, b.kind = .snapshot ∧ b.epoch = a.epoch ∧ c.Le b.toPosition a.origin

section

variable {c : Comparator String} {m m' : Manifest} {a b art : Artifact} {keepEpochs : Int}

lemma Manifest.Continues.refl (c : Comparator String) (m : Manifest) : m.Continues c m :=
  fun _ ha => .inl ha

lemma Manifest.Grows.refl (c : Comparator String) (m : Manifest) : m.Grows c m :=
  ⟨Continues.refl c m, Comparator.Le.refl _ _⟩

lemma Manifest.Continues.add (h : m.Continues c m') (hart : c.Le m.headPosition art.origin)
    (keepEpochs : Int) : m.Continues c (m'.add keepEpochs art) := by
  intro a ha
  rcases mem_add ha with ha | rfl
  · exact h a ha
  · exact .inr hart

lemma Artifact.origin_snapshot (hkind : a.kind = .snapshot) : a.origin = a.toPosition := by
  unfold origin
  rw [hkind]

lemma Manifest.mem_add_of_mem_add (ha : a ∈ (m.add keepEpochs art).artifacts)
    (hb : b ∈ m.artifacts) (hep : b.epoch = a.epoch) :
    b ∈ (m.add keepEpochs art).artifacts := by
  have hb' : b ∈ m.artifacts ++ [art] := List.mem_append_left _ hb
  unfold add prune at ha ⊢
  by_cases hkeep : keepEpochs ≤ 0
  · rw [if_pos hkeep]
    exact hb'
  · rw [if_neg hkeep] at ha ⊢
    obtain ⟨-, hkept⟩ := List.mem_filter.mp ha
    refine List.mem_filter.mpr ⟨hb', ?_⟩
    rw [hep]
    exact hkept

lemma Manifest.Rooted.add (h : m.Rooted c) (hart : art.kind = .diff →
      ∃ b ∈ m.artifacts, b.kind = .snapshot ∧ b.epoch = art.epoch ∧ c.Le b.toPosition art.origin)
    (keepEpochs : Int) : (m.add keepEpochs art).Rooted c := by
  intro a ha hkind
  have hroot : ∃ b ∈ m.artifacts, b.kind = .snapshot ∧ b.epoch = a.epoch ∧
      c.Le b.toPosition a.origin := by
    rcases mem_add ha with hold | rfl
    · exact h a hold hkind
    · exact hart hkind
  obtain ⟨b, hb, hsnap, hep, hle⟩ := hroot
  exact ⟨b, mem_add_of_mem_add ha hb hep, hsnap, hep, hle⟩

lemma Manifest.Rooted.lt_origin (h : m.Rooted c) {p : String}
    (hbef : ∀ b ∈ m.artifacts, b.kind = .snapshot → c.Lt p b.toPosition) (ha : a ∈ m.artifacts) :
    c.Lt p a.origin := by
  cases hkind : a.kind with
  | snapshot =>
    rw [origin_snapshot hkind]
    exact hbef a ha hkind
  | diff =>
    obtain ⟨b, hb, hsnap, -, hle⟩ := h a ha hkind
    exact (hbef b hb hsnap).trans_le hle

end

lemma Attempt.done {cfg : Config B V} {art : Artifact} {encode : Format B V → Option B}
    {fmts : List (Format B V)} {st st' : Destinations B} {w w' : Writer V}
    (h : Attempt cfg art encode fmts w st st' w' true) :
    w'.manifest = w.manifest.add cfg.keepEpochs art ∧ ∀ n ∈ cfg.destinations,
      (st' n).manifest = some (w.manifest.add cfg.keepEpochs art) := by
  cases h with
  | put _ _ _ hok => exact ⟨rfl, hok rfl⟩

section

variable [GoValue V]

def Change.Filed (keyFields : List String) (ch : Change V) : Prop :=
  match ch.action with
  | .insert | .update => ch.key = rowKey keyFields ch.new
  | .delete => ch.key = rowKey keyFields ch.old
  | .truncate => True

def Buffer.Filed (keyFields : List String) (buffer : Buffer V) : Prop :=
  ∀ (k : String) (ch : Change V), buffer[k]? = some ch → ch.Filed keyFields

lemma Change.of_filed (keyFields : List String) (old new : Option (Row V)) :
    (Change.of keyFields old new).Filed keyFields := by
  unfold Change.of Change.Filed
  cases new <;> cases old <;> simp

lemma Buffer.Filed.empty (keyFields : List String) : Buffer.Filed keyFields (∅ : Buffer V) := by
  intro k ch hch
  simp at hch

variable {keyFields : List String}

lemma Buffer.Filed.insert {buf : Buffer V}
    (h : buf.Filed keyFields) (k : String) {ch : Change V} (hch : ch.Filed keyFields) :
    Buffer.Filed keyFields (buf.insert k ch) := by
  intro k' ch' hat
  rw [Std.ExtTreeMap.getElem?_insert] at hat
  split at hat
  · rw [← some.inj hat]
    exact hch
  · exact h k' ch' hat

lemma Buffer.Filed.onChange {buf : Buffer V}
    (h : buf.Filed keyFields) (old new : Option (Row V)) :
    (buf.onChange keyFields old new).Filed keyFields := by
  have hch := Change.of_filed keyFields old new
  unfold Buffer.onChange
  dsimp only
  split
  · exact (Buffer.Filed.empty keyFields).insert _ hch
  · exact h.insert _ hch

def Artifact.Filed (cfg : Config B V) (d : Destination B) (a : Artifact) : Prop :=
  a.kind = .diff → ∀ f ∈ cfg.diffFormats, ∀ data,
    d.objects[artifactObjectKey cfg.keyPrefix a f.extension]? = some data →
      ∃ changes, f.writeDiff changes = some data ∧ ∀ ch ∈ changes, ch.Filed cfg.keyFields

def Artifact.Files (cfg : Config B V) (art : Artifact) (encode : Format B V → Option B) : Prop :=
  art.kind = .diff → ∀ f ∈ cfg.diffFormats, ∀ data, encode f = some data →
    ∃ changes, f.writeDiff changes = some data ∧ ∀ ch ∈ changes, ch.Filed cfg.keyFields

variable {cfg : Config B V} {a art : Artifact} {encode : Format B V → Option B}
variable {st st' : Destinations B} {n : String}

lemma Artifact.Filed.written (h : a.Filed cfg (st n)) (hap : cfg.FormatsApart)
    (hfree : art.Apart cfg a) (hfls : art.Files cfg encode)
    (hw : Written (Encodes cfg art encode (cfg.formatsOf art.kind)) st st') :
    a.Filed cfg (st' n) := by
  intro hkind f hf data hdata
  have hf' : f ∈ cfg.formatsOf a.kind := by rwa [hkind]
  rcases hw.object (n := n) hap hfree hf' with hsame | ⟨hplace, data', henc, hnew⟩
  · exact h hkind f hf data (hsame ▸ hdata)
  · obtain rfl : data' = data := some.inj (hnew.symm.trans hdata)
    exact hfls (hplace.1 ▸ hkind) f hf data' henc

lemma Artifact.Filed.of_complete (hn : n ∈ cfg.destinations) (hap : cfg.FormatsApart)
    (hfls : art.Files cfg encode)
    (hc : Complete cfg.destinations (objectKeys cfg art (cfg.formatsOf art.kind))
      (Encodes cfg art encode (cfg.formatsOf art.kind)) st) : art.Filed cfg (st n) := by
  intro hkind f hf data hdata
  have hf' : f ∈ cfg.formatsOf art.kind := by rwa [hkind]
  obtain ⟨data', henc, hnew⟩ := hc.object hap hf' hn
  obtain rfl : data' = data := some.inj (hnew.symm.trans hdata)
  exact hfls hkind f hf data' henc

lemma Artifact.Sound.readDiff_filed {tableAt : String → Store V} {d : Destination B}
    {r : Reader B V} (h : a.Sound cfg tableAt d) (hfiled : a.Filed cfg d) (hr : r.Decodes cfg)
    {start : String} (hdiff : a.DiffFrom start) :
    ∃ changes, r.readDiff d a = .ok changes ∧ (∀ ch ∈ changes, ch.Filed cfg.keyFields) ∧
      foldChanges (tableAt start) changes = tableAt a.toPosition := by
  refine h.read_eq hr ?_
  intro f hf g hg hid data hdata hhld
  unfold Artifact.Holds at hhld
  rw [hdiff.1] at hg hhld
  obtain ⟨start', changes, hfrom, hwrite, hfold⟩ := hhld
  obtain rfl : start = start' := some.inj (hdiff.2.symm.trans hfrom)
  -- the object decodes to one list of changes only
  obtain ⟨changes', hwrite', hall⟩ := hfiled hdiff.1 g hg data hdata
  have hread := hr.diff f hf g hg hid changes data hwrite
  have hread' := hr.diff f hf g hg hid changes' data hwrite'
  obtain rfl : changes = changes' := some.inj (hread.symm.trans hread')
  exact ⟨changes, hread, hall, hfold⟩

end

namespace World

def Writes (cfg : Config B V) (s : World B V) (art : Artifact) : Label V → Prop
  | .write fault | .commit fault _ | .die fault => s.target cfg fault = some art
  | _ => False

variable [GoValue V]

inductive ArchiveEffect (cfg : Config B V) (o : Origin V cfg.keyFields) (s s' : World B V)
    (a : Label V) : Prop
  | kept (hst : s'.destinations = s.destinations) (hheld : s'.writer.manifest = s.writer.manifest)
      (hcollects : s'.phase.collects = true →
        s.phase.collects = true ∧ s'.writer.fromPos = s.writer.fromPos)
      (hup : s'.phase ≠ .down → s.phase ≠ .down)
  | loaded (hdown : s.phase = .down) (hst : s'.destinations = s.destinations)
      (hheld : s'.writer.manifest =
        (Writer.new.loadManifest cfg s.destinations : Writer V).manifest)
      (hcollects : s'.phase.collects = false)
  | wrote {art : Artifact} {encode : Format B V → Option B} {w : Writer V}
      (hwrites : s.Writes cfg art a) (hintends : s.Intends cfg o art encode)
      (hfiles : art.kind = .diff → ∃ d, s.phase.drained = some d ∧
        encode = fun f => f.writeDiff d.changes)
      (hattempt : Attempt cfg art encode (cfg.formatsOf art.kind) s.writer s.destinations
        s'.destinations w true)
      (hheld : s'.writer.manifest = w.manifest) (hfrom : s'.writer.fromPos = art.toPosition)
  | died {art : Artifact} {encode : Format B V → Option B} {w : Writer V} {ok : Bool}
      (hwrites : s.Writes cfg art a) (hintends : s.Intends cfg o art encode)
      (hfiles : art.kind = .diff → ∃ d, s.phase.drained = some d ∧
        encode = fun f => f.writeDiff d.changes)
      (hattempt : Attempt cfg art encode (cfg.formatsOf art.kind) s.writer s.destinations
        s'.destinations w ok)
      (hfirst : PrimaryFirst cfg (s.writer.manifest.add cfg.keepEpochs art) s.destinations
        s'.destinations)
      (hheld : s'.writer.manifest = s.writer.manifest) (hdown : s'.phase = .down)

variable {cfg : Config B V} {o : Origin V cfg.keyFields} {s s' : World B V} {a : Label V}
variable {art x : Artifact}

lemma Replayable.effect_write (h : s.Replayable cfg o) {d : Drained V} {upTo : String}
    {fault : Option Nat} (hph : s.phase = .stamped d upTo)
    (hnot : (s.writer.finishFlush cfg d upTo s.table.size fault s.destinations).2.2 ≠ .failed) :
    ArchiveEffect cfg o s (s.afterFlush cfg d upTo
      (s.writer.finishFlush cfg d upTo s.table.size fault s.destinations)) (.write fault) := by
  have hup : s.phase ≠ .down := by rw [hph]; nofun
  have hdrn : s.phase.drained = some d := by rw [hph]; rfl
  rcases s.writer.finishFlush_spec cfg d upTo s.table.size fault s.destinations with
    hreb | ⟨st, w, ok, ⟨hatt, -⟩, hdone⟩
  · rw [hreb]
    exact .kept rfl rfl nofun fun _ => hup
  · have htgt := target_stamped hph hdone
    rw [hdone] at hnot ⊢
    cases ok with
    | false => exact absurd rfl hnot
    | true =>
      exact .wrote htgt (h.intends_diff hph h.clean) (fun _ => ⟨d, hdrn, rfl⟩) hatt rfl rfl

lemma Replayable.effect_commit (h : s.Replayable cfg o) {initial : Bool} {epoch : Nat}
    {rows : List (Row V)} {pos : String} {fault : Option Nat} {now : Int}
    (hph : s.phase = .captured initial epoch rows pos)
    (hsucc : (s.writer.finishSnapshot cfg epoch rows pos now fault s.destinations).2.2 = true) :
    ArchiveEffect cfg o s (s.afterSnapshot cfg initial epoch pos
      (s.writer.finishSnapshot cfg epoch rows pos now fault s.destinations))
        (.commit fault now) := by
  obtain ⟨st, w, ok, bytes, ⟨hatt, -⟩, hres⟩ :=
    s.writer.finishSnapshot_spec cfg epoch rows pos now fault s.destinations
  rw [hres] at hsucc ⊢
  obtain rfl : ok = true := hsucc
  exact .wrote (target_captured cfg hph fault) (h.intends_snapshot hph) nofun hatt rfl rfl

lemma Replayable.archiveEffect (h : s.Replayable cfg o) (hok : s.Plannable cfg o a)
    (hs : Step cfg s a s') : ArchiveEffect cfg o s s' a := by
  obtain ⟨⟨hreg, hsucc, -⟩, -⟩ := hok
  cases hs with
  | publish _ | deliver _ => exact .kept rfl rfl (fun hc => ⟨hc, rfl⟩) id
  | rebaseline _ => exact hreg.elim
  | drain hph _ _ =>
    exact .kept rfl rfl (fun _ => ⟨by rw [hph]; rfl, rfl⟩) fun _ => by rw [hph]; nofun
  | stamp hph => exact .kept rfl rfl (fun _ => ⟨by rw [hph]; rfl, rfl⟩) fun _ => by rw [hph]; nofun
  | write hph => exact h.effect_write hph (hsucc _ _ hph)
  | force hph | capture hph _ => exact .kept rfl rfl nofun fun _ => by rw [hph]; nofun
  | commit hph => exact h.effect_commit hph (hsucc _ _ _ _ hph)
  | crash => exact .kept rfl rfl nofun fun hne => absurd rfl hne
  | @dieFlushing d upTo fault hph =>
    have hdrn : s.phase.drained = some d := by rw [hph]; rfl
    rcases s.writer.finishFlush_spec cfg d upTo s.table.size fault s.destinations with
      hreb | ⟨st, w, ok, ⟨hatt, hfst⟩, hdone⟩
    · rw [hreb]
      exact .kept rfl rfl nofun fun hne => absurd rfl hne
    · have htgt := target_stamped hph hdone
      rw [hdone]
      cases ok <;> exact .died htgt (h.intends_diff hph h.clean)
        (fun _ => ⟨d, hdrn, rfl⟩) hatt hfst rfl rfl
  | @dieSnapshotting initial epoch rows pos fault hph =>
    obtain ⟨st, w, ok, bytes, ⟨hatt, hfst⟩, hres⟩ :=
      s.writer.finishSnapshot_spec cfg epoch rows pos 0 fault s.destinations
    rw [hres]
    exact .died (target_captured cfg hph fault) (h.intends_snapshot hph) nofun hatt hfst rfl rfl
  | start hph => exact .loaded hph rfl rfl rfl

structure Growing (cfg : Config B V) (o : Origin V cfg.keyFields) (s : World B V) : Prop
    extends s.Replayable cfg o where
  rooted_held : s.writer.manifest.Rooted o.order
  rooted : ∀ n m, (s.destinations n).manifest = some m → m.Rooted o.order
  settled : s.phase.collects = true →
    ∀ x, s.Listed cfg x → o.order.Le x.toPosition s.writer.fromPos
  continued : s.phase ≠ .down → ∀ n ∈ cfg.destinations, ∀ m,
    (s.destinations n).manifest = some m → m.Continues o.order s.writer.manifest
  primary : ∀ p, (s.destinations cfg.primary).manifest = some p → ∀ n ∈ cfg.destinations, ∀ m,
    (s.destinations n).manifest = some m → m.Continues o.order p

lemma Growing.init : Growing cfg o (init o.table o.position) :=
  ⟨Replayable.init, nofun, nofun, nofun, nofun, nofun⟩

variable {encode : Format B V → Option B}

omit [GoValue V] in
lemma listed_of_attempt {fmts : List (Format B V)}
    {st : Destinations B} {w : Writer V} {ok : Bool}
    (hatt : Attempt cfg art encode fmts s.writer s.destinations st w ok) :
    (∀ x ∈ w.manifest.artifacts, s.Listed cfg x ∨ x = art) ∧
      ∀ n ∈ cfg.destinations, ∀ m, (st n).manifest = some m →
        ∀ x ∈ m.artifacts, s.Listed cfg x ∨ x = art := by
  have hadd : ∀ x ∈ (s.writer.manifest.add cfg.keepEpochs art).artifacts,
      s.Listed cfg x ∨ x = art := fun x hx => (mem_add hx).imp_left .inl
  obtain ⟨hhl, hstd⟩ := hatt.manifests
  refine ⟨?_, fun n hn m hm => ?_⟩
  · rcases hhl with hsame | hnew
    · rw [hsame]
      exact fun x hx => .inl (.inl hx)
    · rw [hnew]
      exact hadd
  · rcases hstd n with hsame | hnew
    · exact fun x hx => .inl (.inr ⟨n, hn, m, hsame ▸ hm, hx⟩)
    · rw [hm] at hnew
      rw [some.inj hnew]
      exact hadd

lemma ArchiveEffect.listed (he : ArchiveEffect cfg o s s' a) (hx : s'.Listed cfg x) :
    s.Listed cfg x ∨ s.Writes cfg x a := by
  cases he with
  | kept hst hhl _ _ =>
    unfold Listed at hx ⊢
    rw [hst, hhl] at hx
    exact .inl hx
  | loaded _ hst hhl _ =>
    unfold Listed at hx ⊢
    rw [hst, hhl] at hx
    refine .inl (hx.elim (fun hmem => ?_) .inr)
    revert hmem
    unfold Writer.loadManifest
    cases hprimary : (s.destinations (cfg.destinations.head cfg.destinations_ne)).manifest with
    | none => nofun
    | some m => exact fun hmem => .inr ⟨_, cfg.primary_mem, m, hprimary, hmem⟩
  | @wrote art _ _ hwr _ _ hatt hhl _ =>
    obtain ⟨hw, hstd⟩ := listed_of_attempt hatt
    have hcas : s.Listed cfg x ∨ x = art := hx.elim (fun hmem => hw x (hhl ▸ hmem))
      fun ⟨n, hn, m, hm, hmem⟩ => hstd n hn m hm x hmem
    rcases hcas with hold | rfl
    · exact .inl hold
    · exact .inr hwr
  | @died art _ _ _ hwr _ _ hatt _ hhl _ =>
    obtain ⟨-, hstd⟩ := listed_of_attempt hatt
    have hcas : s.Listed cfg x ∨ x = art := hx.elim (fun hmem => .inl (.inl (hhl ▸ hmem)))
      fun ⟨n, hn, m, hm, hmem⟩ => hstd n hn m hm x hmem
    rcases hcas with hold | rfl
    · exact .inl hold
    · exact .inr hwr

omit [GoValue V] in
lemma Writes.phase (h : s.Writes cfg art a) : s.Writing cfg art := by
  have htgt : ∃ fault, s.target cfg fault = some art := by
    cases a with
    | write fault | commit fault _ | die fault => exact ⟨fault, h⟩
    | _ => exact h.elim
  obtain ⟨fault, htgt⟩ := htgt
  unfold target at htgt
  cases hph : s.phase with
  | stamped d upTo =>
    simp only [hph] at htgt
    split at htgt
    · cases htgt
    · exact .inl ⟨d, upTo, hph, (some.inj htgt).symm⟩
  | captured initial epoch rows pos =>
    simp only [hph] at htgt
    exact .inr ⟨initial, epoch, rows, pos, hph, (some.inj htgt).symm⟩
  | _ => simp [hph] at htgt

omit [GoValue V] in
lemma Writes.up (h : s.Writes cfg art a) : s.phase ≠ .down := by
  rcases h.phase with ⟨d, upTo, hph, -⟩ | ⟨initial, epoch, rows, pos, hph, -⟩ <;> rw [hph] <;> nofun

lemma Growing.listed_le (h : s.Growing cfg o) (hx : s.Listed cfg x) :
    o.order.Le x.toPosition s.position :=
  h.bounded _ (h.truthful.genuine_of_listed hx).known

lemma Growing.le_origin (h : s.Growing cfg o) (hw : s.Writes cfg art a) (hx : s.Listed cfg x) :
    o.order.Le x.toPosition art.origin := by
  rcases hw.phase with ⟨d, upTo, hph, rfl⟩ | ⟨initial, epoch, rows, pos, hph, rfl⟩
  · show o.order.Le x.toPosition d.start
    rw [(h.drained d (by rw [hph]; rfl)).1]
    exact h.settled (by rw [hph]; rfl) x hx
  · show o.order.Le x.toPosition pos
    rw [h.stamp pos (by rw [hph]; rfl)]
    exact h.listed_le hx

lemma Growing.le_toPosition (h : s.Growing cfg o) (hw : s.Writes cfg art a)
    (hx : s.Listed cfg x) : o.order.Le x.toPosition art.toPosition := by
  rcases hw.phase with ⟨d, upTo, hph, rfl⟩ | ⟨initial, epoch, rows, pos, hph, rfl⟩
  · show o.order.Le x.toPosition upTo
    rw [h.stamp upTo (by rw [hph]; rfl)]
    exact h.listed_le hx
  · show o.order.Le x.toPosition pos
    rw [h.stamp pos (by rw [hph]; rfl)]
    exact h.listed_le hx

variable {n : String} {m : Manifest}

section

variable (h : s.Growing cfg o)
include h

lemma Growing.head_listed (hn : n ∈ cfg.destinations)
    (hm : (s.destinations n).manifest = some m) :
    ∃ x, s.Listed cfg x ∧ x.toPosition = m.headPosition := by
  obtain ⟨snap, chain, hhd⟩ := h.headed.stored n m hm
  obtain ⟨x, hx, hto⟩ := hhd.exists_artifact
  exact ⟨x, .inr ⟨n, hn, m, hm, hx⟩, hto⟩

lemma Growing.continues_add (hw : s.Writes cfg art a)
    (hn : n ∈ cfg.destinations) (hm : (s.destinations n).manifest = some m) :
    m.Continues o.order (s.writer.manifest.add cfg.keepEpochs art) := by
  obtain ⟨x, hx, hto⟩ := h.head_listed hn hm
  exact (h.continued hw.up n hn m hm).add (hto ▸ h.le_origin hw hx) cfg.keepEpochs

lemma Growing.rooted_add (hwriting : s.Writing cfg art) :
    (s.writer.manifest.add cfg.keepEpochs art).Rooted o.order := by
  refine h.rooted_held.add (fun hkind => ?_) cfg.keepEpochs
  rcases hwriting with ⟨d, upTo, hph, rfl⟩ | ⟨initial, epoch, rows, pos, hph, rfl⟩
  · obtain ⟨hst0, hep, -, -⟩ := h.drained d (by rw [hph]; rfl)
    obtain ⟨hne, hhead⟩ := h.head (by rw [hph]; rfl)
    obtain ⟨snap, chain, hhd⟩ := h.headed.held.resolve_left hne
    refine ⟨snap, hhd.mem, hhd.kind, ?_, ?_⟩
    · exact hhd.epoch.trans (h.epoch.trans hep.symm)
    · show o.order.Le snap.toPosition d.start
      rw [hst0, ← hhead]
      exact hhd.last snap hhd.mem
  · cases hkind

lemma Growing.grows (he : ArchiveEffect cfg o s s' a)
    (hn : n ∈ cfg.destinations) (hm : (s.destinations n).manifest = some m) :
    ∃ m', (s'.destinations n).manifest = some m' ∧ m.Grows o.order m' := by
  have hadd : ∀ {art}, s.Writes cfg art a →
      m.Grows o.order (s.writer.manifest.add cfg.keepEpochs art) := by
    intro art hw
    refine ⟨h.continues_add hw hn hm, ?_⟩
    obtain ⟨x, hx, hto⟩ := h.head_listed hn hm
    rw [add_headPosition, ← hto]
    exact h.le_toPosition hw hx
  have hatte : ∀ {art encode w ok}, s.Writes cfg art a →
      Attempt cfg art encode (cfg.formatsOf art.kind) s.writer s.destinations s'.destinations w ok →
      ∃ m', (s'.destinations n).manifest = some m' ∧ m.Grows o.order m' := by
    intro art encode w ok hw hatt
    rcases hatt.manifests.2 n with hsame | hnew
    · exact ⟨m, hsame.trans hm, Grows.refl _ m⟩
    · exact ⟨_, hnew, hadd hw⟩
  cases he with
  | kept hst _ _ _ | loaded _ hst _ _ => exact ⟨m, hst ▸ hm, Grows.refl _ m⟩
  | wrote hwr _ _ hatt _ _ | died hwr _ _ hatt _ _ _ => exact hatte hwr hatt

lemma Growing.step_settled (he : ArchiveEffect cfg o s s' a)
    (hcoll : s'.phase.collects = true) (hx : s'.Listed cfg x) :
    o.order.Le x.toPosition s'.writer.fromPos := by
  cases he with
  | kept hst hhl hkept _ =>
    obtain ⟨hbef, hfrom⟩ := hkept hcoll
    unfold Listed at hx
    rw [hst, hhl] at hx
    rw [hfrom]
    exact h.settled hbef x hx
  | loaded _ _ _ hnot =>
    rw [hnot] at hcoll
    cases hcoll
  | @wrote art _ _ hwr _ _ hatt hhl hfrom =>
    obtain ⟨hw, hstd⟩ := listed_of_attempt hatt
    have hcas : s.Listed cfg x ∨ x = art := hx.elim (fun hmem => hw x (hhl ▸ hmem))
      fun ⟨n, hn, m, hm, hmem⟩ => hstd n hn m hm x hmem
    rw [hfrom]
    rcases hcas with hold | rfl
    · exact h.le_toPosition hwr hold
    · exact Comparator.Le.refl _ _
  | died _ _ _ _ _ _ hdown =>
    rw [hdown] at hcoll
    cases hcoll

lemma Growing.step_continued (he : ArchiveEffect cfg o s s' a)
    (hup : s'.phase ≠ .down) (hn : n ∈ cfg.destinations)
    (hm : (s'.destinations n).manifest = some m) : m.Continues o.order s'.writer.manifest := by
  cases he with
  | kept hst hhl _ hbef =>
    rw [hst] at hm
    rw [hhl]
    exact h.continued (hbef hup) n hn m hm
  | loaded _ hst hhl _ =>
    rw [hst] at hm
    rw [hhl]
    unfold Writer.loadManifest
    cases hprimary : (s.destinations (cfg.destinations.head cfg.destinations_ne)).manifest with
    | none => nofun
    | some p => exact h.primary p hprimary n hn m hm
  | wrote _ _ _ hatt hhl _ =>
    obtain ⟨hw, hall⟩ := hatt.done
    cases (hall n hn).symm.trans hm
    rw [hhl, hw]
    exact Continues.refl _ _
  | died _ _ _ _ _ _ hdown => exact absurd hdown hup

lemma Growing.step_primary (he : ArchiveEffect cfg o s s' a)
    {p : Manifest} (hp : (s'.destinations cfg.primary).manifest = some p)
    (hn : n ∈ cfg.destinations) (hm : (s'.destinations n).manifest = some m) :
    m.Continues o.order p := by
  cases he with
  | kept hst _ _ _ | loaded _ hst _ _ =>
    rw [hst] at hp hm
    exact h.primary p hp n hn m hm
  | wrote _ _ _ hatt _ _ =>
    obtain ⟨-, hall⟩ := hatt.done
    cases (hall n hn).symm.trans hm
    cases (hall _ cfg.primary_mem).symm.trans hp
    exact Continues.refl _ _
  | died hwr _ _ hatt hfst _ _ =>
    rcases hfst with hsame | hnew
    · rw [hsame] at hp hm
      exact h.primary p hp n hn m hm
    · cases hnew.symm.trans hp
      rcases hatt.manifests.2 n with hold | hadded
      · exact h.continues_add hwr hn (hold ▸ hm)
      · cases hadded.symm.trans hm
        exact Continues.refl _ _

lemma Growing.step (hap : cfg.FormatsApart)
    (hok : s.Plannable cfg o a) (hs : Step cfg s a s') : s'.Growing cfg o := by
  have he := h.toReplayable.archiveEffect hok hs
  obtain ⟨hhl, hstd⟩ := hs.manifests_all (P := fun m => m.Rooted o.order) nofun (fun _ => id)
    h.rooted_held h.rooted fun _ => h.rooted_add
  exact ⟨h.toReplayable.step hap hok hs, hhl, hstd, fun hcoll x hx => h.step_settled he hcoll hx,
    fun hup n hn m hm => h.step_continued he hup hn hm,
    fun p hp n hn m hm => h.step_primary he hp hn hm⟩

end

structure Filing (cfg : Config B V) (s : World B V) : Prop where
  buffer : s.writer.buffer.Filed cfg.keyFields
  drained : ∀ d, s.phase.drained = some d → d.buffer.Filed cfg.keyFields
  objects : ∀ x, s.Listed cfg x → ∀ n ∈ cfg.destinations, x.Filed cfg (s.destinations n)

lemma Filing.init : Filing cfg (init o.table o.position : World B V) := by
  refine ⟨Buffer.Filed.empty _, nofun, fun x hx => ?_⟩
  rcases hx with hmem | ⟨n, hn, m, hm, hmem⟩
  · cases hmem
  · cases hm

lemma Filing.files (h : s.Filing cfg) (hinv : s.Faithful cfg o) (hfls : art.kind = .diff →
      ∃ d, s.phase.drained = some d ∧ encode = fun f => f.writeDiff d.changes) :
    art.Files cfg encode := by
  intro hkind f hf data henc
  obtain ⟨d, hdrn, rfl⟩ := hfls hkind
  obtain ⟨-, -, -, hperm⟩ := hinv.drained d hdrn
  refine ⟨d.changes, henc, fun ch hch => ?_⟩
  obtain ⟨⟨k, ch'⟩, hmem, rfl⟩ := List.mem_map.mp (hperm.mem_iff.mp hch)
  exact h.drained d hdrn k ch' (Std.ExtTreeMap.mem_toList_iff_getElem?_eq_some.mp hmem)

lemma Filing.attempt (h : s.Filing cfg) (hap : cfg.FormatsApart)
    (hfree : ∀ x, s.Listed cfg x → art.Apart cfg x)
    (hfls : art.Files cfg encode) {st : Destinations B} {w : Writer V} {ok : Bool}
    (hatt : Attempt cfg art encode (cfg.formatsOf art.kind) s.writer s.destinations st w ok)
    (hx : s.Listed cfg x ∨ x ∈ w.manifest.artifacts ∨
      ∃ n ∈ cfg.destinations, ∃ m, (st n).manifest = some m ∧ x ∈ m.artifacts) :
    ∀ n ∈ cfg.destinations, x.Filed cfg (st n) := by
  intro n hn
  have hcas : s.Listed cfg x ∨ x = art := by
    obtain ⟨hhl, hstd⟩ := listed_of_attempt hatt
    rcases hx with hx | hx | ⟨n, hn, m, hm, hx⟩
    · exact .inl hx
    · exact hhl x hx
    · exact hstd n hn m hm x hx
  cases hatt with
  | notPut hw =>
    have hlst : s.Listed cfg x := by
      rcases hx with hx | hx | ⟨n, hn, m, hm, hx⟩
      · exact hx
      · exact .inl hx
      · exact .inr ⟨n, hn, m, hw.manifest n ▸ hm, hx⟩
    exact (h.objects x hlst n hn).written hap (hfree x hlst) hfls hw
  | @put st₁ _ _ _ hw hc hp _ =>
    have hfiled : x.Filed cfg (st₁ n) := by
      rcases hcas with hold | rfl
      · exact (h.objects x hold n hn).written hap (hfree x hold) hfls hw
      · exact Artifact.Filed.of_complete hn hap hfls hc
    unfold Artifact.Filed
    rw [hp.objects n]
    exact hfiled

omit [GoValue V] in
lemma KeysFree.apart (h : s.KeysFree cfg a) (hw : s.Writes cfg art a) :
    ∀ x, s.Listed cfg x → art.Apart cfg x := by
  cases a with
  | write fault | commit fault _ | die fault => exact h art hw
  | _ => exact hw.elim

lemma Filing.step_objects (h : s.Filing cfg) (hinv : s.Faithful cfg o)
    (hap : cfg.FormatsApart) (hfree : s.KeysFree cfg a) (he : ArchiveEffect cfg o s s' a)
    (hx : s'.Listed cfg x) : ∀ n ∈ cfg.destinations, x.Filed cfg (s'.destinations n) := by
  have hlst := he.listed hx
  cases he with
  | kept hst hhl _ _ =>
    unfold Listed at hx
    rw [hst, hhl] at hx
    rw [hst]
    exact h.objects x hx
  | loaded hdown hst _ _ =>
    rw [hst]
    rcases hlst with hold | hwr
    · exact h.objects x hold
    · exact absurd hdown hwr.up
  | wrote hwr _ hfls hatt hhl _ =>
    refine h.attempt hap (hfree.apart hwr) (h.files hinv hfls) hatt (.inr ?_)
    rw [← hhl]
    exact hx
  | died hwr _ hfls hatt _ hhl _ =>
    refine h.attempt hap (hfree.apart hwr) (h.files hinv hfls) hatt ?_
    exact hx.elim (fun hmem => .inl (.inl (hhl ▸ hmem))) fun hstd => .inr (.inr hstd)

lemma Filing.step (h : s.Filing cfg) (hinv : s.Replayable cfg o) (hap : cfg.FormatsApart)
    (hok : s.Plannable cfg o a) (hs : Step cfg s a s') : s'.Filing cfg := by
  have he := hinv.archiveEffect hok hs
  obtain ⟨⟨hreg, hsucc, hfree⟩, -⟩ := hok
  have hobj : ∀ x, s'.Listed cfg x → ∀ n ∈ cfg.destinations, x.Filed cfg (s'.destinations n) :=
    fun x hx => h.step_objects hinv.toFaithful hap hfree he hx
  cases hs with
  | publish _ => exact ⟨h.buffer, h.drained, hobj⟩
  | deliver _ => exact ⟨h.buffer.onChange _ _, h.drained, hobj⟩
  | rebaseline _ => exact hreg.elim
  | drain _ _ _ =>
    refine ⟨Buffer.Filed.empty _, fun d hd => ?_, hobj⟩
    cases hd
    exact h.buffer
  | stamp hph =>
    refine ⟨h.buffer, fun d hd => h.drained d ?_, hobj⟩
    rw [hph]
    exact hd
  | @write d upTo fault hph =>
    have hnot := hsucc d upTo hph
    rcases s.writer.finishFlush_spec cfg d upTo s.table.size fault s.destinations with
      hreb | ⟨st, w, ok, ⟨hatt, -⟩, hdone⟩
    · rw [hreb] at hobj ⊢
      exact ⟨Buffer.Filed.empty _, nofun, hobj⟩
    · rw [hdone] at hnot hobj ⊢
      cases ok with
      | false => exact absurd rfl hnot
      | true => exact ⟨hatt.buffer_eq ▸ h.buffer, nofun, hobj⟩
  | force _ | start _ => exact ⟨Buffer.Filed.empty _, nofun, hobj⟩
  | capture _ _ | crash | dieFlushing _ | dieSnapshotting _ => exact ⟨h.buffer, nofun, hobj⟩
  | @commit initial epoch rows pos fault now hph =>
    have hdone := hsucc initial epoch rows pos hph
    obtain ⟨st, w, ok, bytes, ⟨hatt, -⟩, hres⟩ :=
      s.writer.finishSnapshot_spec cfg epoch rows pos now fault s.destinations
    rw [hres] at hdone hobj ⊢
    obtain rfl : ok = true := hdone
    exact ⟨hatt.buffer_eq ▸ h.buffer, nofun, hobj⟩

def Spares (cfg : Config B V) (s : World B V) (x : Artifact) (a : Label V) : Prop :=
  ∀ art, s.Writes cfg art a → ∀ f ∈ cfg.formatsOf art.kind, ∀ g ∈ cfg.formatsOf x.kind,
    artifactObjectKey cfg.keyPrefix art f.extension ≠ artifactObjectKey cfg.keyPrefix x g.extension

lemma ArchiveEffect.spared (he : ArchiveEffect cfg o s s' a) (hspare : s.Spares cfg x a)
    {g : Format B V} (hg : g ∈ cfg.formatsOf x.kind) (n : String) :
    (s'.destinations n).objects[artifactObjectKey cfg.keyPrefix x g.extension]? =
      (s.destinations n).objects[artifactObjectKey cfg.keyPrefix x g.extension]? := by
  have hwrt : ∀ {art encode st}, s.Writes cfg art a →
      Written (Encodes cfg art encode (cfg.formatsOf art.kind)) s.destinations st →
      (st n).objects[artifactObjectKey cfg.keyPrefix x g.extension]? =
        (s.destinations n).objects[artifactObjectKey cfg.keyPrefix x g.extension]? := by
    intro art encode st hwr hw
    rcases hw.objects n (artifactObjectKey cfg.keyPrefix x g.extension) with hsame | hnew
    · exact hsame
    · obtain ⟨data, ⟨f, hf, -, hkey⟩, -⟩ := hnew
      exact absurd hkey (hspare art hwr f hf g hg)
  have hatte : ∀ {art encode w ok}, s.Writes cfg art a →
      Attempt cfg art encode (cfg.formatsOf art.kind) s.writer s.destinations s'.destinations w ok →
      (s'.destinations n).objects[artifactObjectKey cfg.keyPrefix x g.extension]? =
        (s.destinations n).objects[artifactObjectKey cfg.keyPrefix x g.extension]? := by
    intro art encode w ok hwr hatt
    generalize s'.destinations = st' at hatt ⊢
    cases hatt with
    | notPut hw => exact hwrt hwr hw
    | put hw _ hp _ =>
      rw [hp.objects n]
      exact hwrt hwr hw
  cases he with
  | kept hst _ _ _ => rw [hst]
  | loaded _ hst _ _ => rw [hst]
  | wrote hwr _ _ hatt _ _ | died hwr _ _ hatt _ _ _ => exact hatte hwr hatt

lemma Growing.spares (h : s.Growing cfg o) (hok : s.Plannable cfg o a) (hx : s.Listed cfg x)
    {p : String} (hfrom : x.DiffFrom p) (hlt : o.order.Lt p x.toPosition) : s.Spares cfg x a := by
  intro art hwr f hf g hg hkey
  obtain ⟨hkind, -, hst0, -⟩ := hok.1.2.2.apart hwr x hx f hf g hg hkey
  -- what is written begins after the diff, so it is not the diff once more
  have hart : art.DiffFrom p := ⟨hkind ▸ hfrom.1, hst0 ▸ hfrom.2⟩
  have hle := h.le_origin hwr hx
  rw [hart.origin_eq] at hle
  exact hlt.not_le hle

lemma History.past (h : s.History o) (hreg : s.Regular o a) (hs : Step cfg s a s') {q : String}
    (hq : s.Known o q) : s'.Known o q ∧ s'.tableAt o q = s.tableAt o q := by
  have hsame : s'.log = s.log → s'.Known o q ∧ s'.tableAt o q = s.tableAt o q := by
    intro hlog
    unfold Known tableAt at *
    rw [hlog]
    exact ⟨hq, rfl⟩
  cases hs with
  | @publish pos e _ =>
    have hlog : s.log ++ [(pos, e)] = s.log ++ [e].map (Prod.mk pos) := rfl
    exact ⟨(known_append (List.cons_ne_nil e []) hlog).mpr (.inl hq),
      tableAt_append hlog ((h.bounded q hq).trans_lt hreg.1)⟩
  | @write d upTo fault _ =>
    refine hsame ?_
    rcases s.writer.finishFlush cfg d upTo s.table.size fault s.destinations with ⟨st, w, _ | _ | _⟩
    all_goals rfl
  | @commit initial epoch rows pos fault now _ =>
    refine hsame ?_
    rcases s.writer.finishSnapshot cfg epoch rows pos now fault s.destinations with ⟨st, w, _ | _⟩
    all_goals rfl
  | rebaseline _ => exact hreg.elim
  | _ => exact hsame rfl

lemma Genuine.step (h : Genuine cfg o.order (s.Known o) (s.tableAt o) s.destinations x)
    (hhist : s.History o) (hreg : s.Regular o a) (hs : Step cfg s a s')
    (he : ArchiveEffect cfg o s s' a) (hspare : s.Spares cfg x a) :
    Genuine cfg o.order (s'.Known o) (s'.tableAt o) s'.destinations x := by
  have hobj : Genuine cfg o.order (s.Known o) (s.tableAt o) s'.destinations x := by
    refine ⟨h.known, h.start, fun n hn => ⟨(h.sound n hn).formats, fun g hg => ?_⟩⟩
    rw [he.spared hspare hg]
    exact (h.sound n hn).objects g hg
  exact hobj.mono (fun q hq => (hhist.past hreg hs hq).1) fun q hq => (hhist.past hreg hs hq).2

end World

end Laredo.Snapshotter
