import Laredo.Snapshotter.Faithful

/-!
# Recovery

Failed writes: after the next successful commit the archive's head is the subscription's table,
unless a diff is written on top of a failed snapshot.
-/

namespace Laredo.Snapshotter

open Manifest Transition Comparator List Option

variable {B V : Type}

lemma getElem?_byFrom_filter {arts : List Artifact} {p : String} {a : Artifact}
    (h : (byFrom arts)[p]? = some a) (keep : Artifact → Bool) (ha : keep a = true) :
    (byFrom (arts.filter keep))[p]? = some a := by
  obtain ⟨l₁, l₂, rfl, hfrom, hlast⟩ := getElem?_byFrom_eq_some.mp h
  refine getElem?_byFrom_eq_some.mpr ⟨l₁.filter keep, l₂.filter keep, ?_, hfrom, ?_⟩
  · rw [filter_append, filter_cons, if_pos ha]
  · intro b hb
    exact hlast b (List.mem_filter.mp hb).1

namespace Manifest

variable {m : Manifest} {keepEpochs : Int} {a art : Artifact}

lemma prune_cases (keepEpochs : Int) (m : Manifest) : ∃ keep : Artifact → Bool,
    m.prune keepEpochs = { m with artifacts := m.artifacts.filter keep } ∧
      ∀ a : Artifact, a.epoch = m.epoch → keep a = true := by
  unfold prune
  by_cases hkeep : keepEpochs ≤ 0
  · rw [if_pos hkeep]
    exact ⟨fun _ => true, by simp, fun _ _ => rfl⟩
  · rw [if_neg hkeep]
    refine ⟨_, rfl, fun a ha => decide_eq_true ?_⟩
    omega

@[simp] lemma add_headPosition (keepEpochs : Int) (art : Artifact) (m : Manifest) :
    (m.add keepEpochs art).headPosition = art.toPosition := by
  unfold add
  obtain ⟨keep, hprune, -⟩ := prune_cases keepEpochs _
  rw [hprune]

def epochAfter (m : Manifest) (art : Artifact) : Nat :=
  match art.kind with
  | .snapshot => art.epoch
  | .diff => m.epoch

lemma add_cases (keepEpochs : Int) (art : Artifact) (m : Manifest) : ∃ keep : Artifact → Bool,
    (m.add keepEpochs art).artifacts = (m.artifacts ++ [art]).filter keep ∧
      (m.add keepEpochs art).epoch = m.epochAfter art ∧
      ∀ a : Artifact, a.epoch = m.epochAfter art → keep a = true := by
  obtain ⟨keep, hprune, hkeep⟩ := prune_cases keepEpochs
    ⟨currentManifestVersion, m.epochAfter art, art.toPosition, m.artifacts ++ [art]⟩
  have hadd : m.add keepEpochs art = _ := hprune
  rw [hadd]
  exact ⟨keep, rfl, rfl, hkeep⟩

lemma mem_add_of_epoch (ha : a ∈ m.artifacts ++ [art]) (hep : a.epoch = m.epochAfter art) :
    a ∈ (m.add keepEpochs art).artifacts := by
  obtain ⟨keep, hadd, -, hkeep⟩ := add_cases keepEpochs art m
  rw [hadd]
  exact List.mem_filter.mpr ⟨ha, hkeep a hep⟩

lemma getElem?_byFrom_add {p : String} (h : (byFrom (m.artifacts ++ [art]))[p]? = some a)
    (hep : a.epoch = m.epochAfter art) :
    (byFrom (m.add keepEpochs art).artifacts)[p]? = some a := by
  obtain ⟨keep, hadd, -, hkeep⟩ := add_cases keepEpochs art m
  rw [hadd]
  exact getElem?_byFrom_filter h keep (hkeep a hep)

end Manifest

structure Anchored (order : Comparator String) (w : Writer V) (base : String)
    (chain : List Artifact) : Prop where
  epoch : w.manifest.epoch = w.epoch
  listed : ∃ a ∈ w.manifest.artifacts, a.kind = .snapshot ∧ a.toPosition = base ∧ a.epoch = w.epoch
  latest : ∀ a ∈ w.manifest.artifacts, a.kind = .snapshot → order.Le a.toPosition base
  path : Links.Path (fun p => (byFrom w.manifest.artifacts)[p]?) Artifact.toPosition base chain
    w.fromPos
  current : ∀ d ∈ chain, d.epoch = w.epoch ∧ order.Le d.toPosition w.fromPos
  before : order.Le base w.fromPos

section

variable {order : Comparator String} {w w' : Writer V} {base : String} {chain : List Artifact}
variable {keepEpochs : Int} {art : Artifact}

lemma Anchored.of_eq (h : Anchored order w base chain) (hman : w'.manifest = w.manifest)
    (hep : w'.epoch = w.epoch) (hfrom : w'.fromPos = w.fromPos) :
    Anchored order w' base chain := by
  obtain ⟨buffer, churn, epoch, fromPos, at', bytes, manifest, revs⟩ := w'
  obtain rfl : manifest = w.manifest := hman
  obtain rfl : epoch = w.epoch := hep
  obtain rfl : fromPos = w.fromPos := hfrom
  exact ⟨h.epoch, h.listed, h.latest, h.path, h.current, h.before⟩

lemma Anchored.add (h : Anchored order w base chain) (hart : art.DiffFrom w.fromPos)
    (hfwd : ∀ a ∈ w.manifest.artifacts, ∀ p, a.DiffFrom p → order.Lt p a.toPosition)
    (hman : w'.manifest = w.manifest.add keepEpochs art) (hep : w'.epoch = w.epoch)
    (hfrom : w'.fromPos = w.fromPos) : Anchored order w' base chain := by
  have haft : w.manifest.epochAfter art = w.epoch := by
    unfold epochAfter
    rw [hart.1]
    exact h.epoch
  refine Anchored.of_eq (w := { w with manifest := w.manifest.add keepEpochs art })
    ⟨?_, ?_, ?_, ?_, h.current, h.before⟩ hman hep hfrom
  · obtain ⟨keep, -, hadd, -⟩ := add_cases keepEpochs art w.manifest
    exact hadd.trans haft
  · obtain ⟨a, ha, hkind, hto, hcur⟩ := h.listed
    exact ⟨a, mem_add_of_epoch (mem_append_left _ ha) (hcur.trans haft.symm), hkind, hto, hcur⟩
  · intro a ha hkind
    rcases mem_add ha with ha | rfl
    · exact h.latest a ha hkind
    · rw [hart.1] at hkind
      cases hkind
  · refine h.path.mono fun k d hd hnext => ?_
    obtain ⟨hcur, hle⟩ := h.current d hd
    refine getElem?_byFrom_add ?_ (hcur.trans haft.symm)
    -- the links of the chain start before `fromPos`
    obtain ⟨l₁, l₂, hspl, hdfrom, -⟩ := getElem?_byFrom_eq_some.mp hnext
    have hlt := hfwd d (by simp [hspl]) k hdfrom
    rw [getElem?_byFrom_snoc, if_neg]
    · exact hnext
    · intro hk
      obtain rfl : w.fromPos = k := some.inj (hart.2.symm.trans hk.2)
      exact hlt.not_le hle

lemma Anchored.extend (h : Anchored order w base chain) (hart : art.DiffFrom w.fromPos)
    (harte : art.epoch = w.epoch) (hlt : order.Lt w.fromPos art.toPosition)
    (hfwd : ∀ a ∈ w.manifest.artifacts, ∀ p, a.DiffFrom p → order.Lt p a.toPosition)
    (hman : w'.manifest = w.manifest.add keepEpochs art) (hep : w'.epoch = w.epoch)
    (hfrom : w'.fromPos = art.toPosition) : Anchored order w' base (chain ++ [art]) := by
  have hadd : Anchored order { w with manifest := w.manifest.add keepEpochs art } base chain :=
    h.add hart hfwd rfl rfl rfl
  have hlink : (byFrom (w.manifest.add keepEpochs art).artifacts)[w.fromPos]? = some art := by
    refine getElem?_byFrom_add ?_ ?_
    · rw [getElem?_byFrom_snoc, if_pos hart]
    · unfold epochAfter
      rw [hart.1]
      exact harte.trans h.epoch.symm
  refine Anchored.of_eq
    (w := { w with manifest := w.manifest.add keepEpochs art, fromPos := art.toPosition })
    ⟨hadd.epoch, hadd.listed, hadd.latest, hadd.path.append ⟨hlink, rfl⟩, ?_, ?_⟩
    hman hep hfrom
  · intro d hd
    rcases mem_append.mp hd with hd | hd
    · exact ⟨(h.current d hd).1, (h.current d hd).2.trans hlt.le⟩
    · obtain rfl := mem_singleton.mp hd
      exact ⟨harte, Le.refl _ _⟩
  · exact h.before.trans hlt.le

lemma Anchored.rebase (art : Artifact) (hkind : art.kind = .snapshot)
    (hlat : ∀ a ∈ w.manifest.artifacts, a.kind = .snapshot →
      order.Le a.toPosition art.toPosition)
    (hman : w'.manifest = w.manifest.add keepEpochs art) (hep : w'.epoch = art.epoch)
    (hfrom : w'.fromPos = art.toPosition) : Anchored order w' art.toPosition [] := by
  have haft : w.manifest.epochAfter art = art.epoch := by
    unfold epochAfter
    rw [hkind]
  refine ⟨?_, ?_, ?_, hfrom.symm, nofun, ?_⟩
  · obtain ⟨keep, -, hadd, -⟩ := add_cases keepEpochs art w.manifest
    rw [hman, hadd, haft, hep]
  · refine ⟨art, ?_, hkind, rfl, hep.symm⟩
    rw [hman]
    exact mem_add_of_epoch (by simp) haft.symm
  · intro a ha ha'
    rw [hman] at ha
    rcases mem_add ha with ha | rfl
    · exact hlat a ha ha'
    · exact Le.refl _ _
  · rw [hfrom]
    exact Le.refl _ _

end

namespace World

variable [GoValue V]

/-- The runs considered here: writes may fail, but no diff follows a failed snapshot before
another snapshot is committed. -/
def Recovers (cfg : Config B V) (o : Origin V cfg.keyFields) (s : World B V) (a : Label V) : Prop :=
  s.Regular o a ∧ s.KeysFree cfg a ∧ s.DiffsComplete cfg a

/-- While the buffer is complete, the manifest has a chain up to where the buffer begins. -/
structure Recoverable (cfg : Config B V) (o : Origin V cfg.keyFields) (s : World B V) : Prop
    extends s.Faithful cfg o where
  anchored : s.Based → ∃ base chain, Anchored o.order s.writer base chain

variable {cfg : Config B V} {o : Origin V cfg.keyFields} {s s' : World B V} {a : Label V}

lemma Recoverable.init : Recoverable cfg o (World.init o.table o.position) :=
  ⟨Faithful.init, fun hbs => nomatch hbs.2⟩

lemma Faithful.forward (h : s.Faithful cfg o) {d : Artifact}
    (hd : d ∈ s.writer.manifest.artifacts) {p : String} (hfrom : d.DiffFrom p) :
    o.order.Lt p d.toPosition := by
  obtain ⟨q, hq, -, hlt⟩ := (h.truthful.held d hd).start hfrom.1
  obtain rfl : p = q := some.inj (hfrom.2.symm.trans hq)
  exact hlt

lemma Recoverable.write (h : s.Recoverable cfg o) {d : Drained V} {upTo : String}
    {fault : Option Nat} (hph : s.phase = .stamped d upTo)
    (hcpl : s.DiffsComplete cfg (.write fault))
    (hnext : Faithful cfg o (s.afterFlush cfg d upTo
      (s.writer.finishFlush cfg d upTo s.table.size fault s.destinations)))
    (hfree : s.KeysFree cfg (.write fault)) (hap : cfg.FormatsApart) :
    Recoverable cfg o (s.afterFlush cfg d upTo
      (s.writer.finishFlush cfg d upTo s.table.size fault s.destinations)) := by
  have hdrn : s.phase.drained = some d := by rw [hph]; rfl
  obtain ⟨hst0, hep, -, -⟩ := h.drained d hdrn
  rcases h.truthful.flushed hap hph hfree fun htgt => h.intends_diff hph (hcpl _ htgt rfl) with
    hreb | ⟨st, w, ok, htgt, hatt, hdone, -, -⟩
  · rw [hreb] at hnext ⊢
    exact ⟨hnext, fun hbs => nomatch hbs.2⟩
  · obtain ⟨base, chain, hch⟩ := h.anchored ⟨hcpl _ htgt rfl, by rw [hph]; rfl⟩
    have hart : (diffArtifact cfg d.epoch d.start upTo).DiffFrom s.writer.fromPos :=
      ⟨rfl, congrArg some hst0⟩
    have hfwd : ∀ a ∈ s.writer.manifest.artifacts, ∀ p, a.DiffFrom p →
        o.order.Lt p a.toPosition := fun a ha p hp => h.toFaithful.forward ha hp
    rw [hdone] at hnext ⊢
    cases ok with
    | true =>
      obtain ⟨p, hp, -, hlt⟩ := (h.intends_diff hph (hcpl _ htgt rfl)).start rfl
      obtain rfl : d.start = p := some.inj hp
      rw [hst0] at hlt
      refine ⟨hnext, fun _ => ⟨base, chain ++ [diffArtifact cfg d.epoch d.start upTo], ?_⟩⟩
      cases hatt with
      | put _ _ _ _ => exact hch.extend hart hep hlt hfwd rfl rfl rfl
    | false =>
      refine ⟨hnext, fun _ => ⟨base, chain, ?_⟩⟩
      cases hatt with
      | notPut _ => exact hch.of_eq rfl rfl rfl
      | put _ _ _ _ => exact hch.add hart hfwd rfl rfl rfl

lemma Recoverable.step (h : s.Recoverable cfg o) (hap : cfg.FormatsApart)
    (hok : s.Recovers cfg o a) (hs : Step cfg s a s') : s'.Recoverable cfg o := by
  obtain ⟨hreg, hfree, hcpl⟩ := hok
  have hnext := h.toFaithful.step hap hreg hfree hcpl hs
  cases hs with
  | publish _ => exact ⟨hnext, h.anchored⟩
  | deliver _ =>
    refine ⟨hnext, fun hbs => ?_⟩
    obtain ⟨base, chain, hch⟩ := h.anchored hbs
    exact ⟨base, chain, hch.of_eq rfl rfl rfl⟩
  | rebaseline _ => exact hreg.elim
  | drain hph _ _ =>
    refine ⟨hnext, fun hbs => ?_⟩
    obtain ⟨base, chain, hch⟩ := h.anchored ⟨hbs.1, by rw [hph]; rfl⟩
    exact ⟨base, chain, hch.of_eq rfl rfl rfl⟩
  | stamp hph =>
    exact ⟨hnext, fun hbs => h.anchored ⟨hbs.1, by rw [hph]; rfl⟩⟩
  | write hph => exact h.write hph hcpl hnext hfree hap
  | force _ | capture _ _ | crash | dieFlushing _ | dieSnapshotting _ | start _ =>
    exact ⟨hnext, fun hbs => nomatch hbs.2⟩
  | @commit initial epoch rows pos fault now hph =>
    obtain rfl : pos = s.position := h.stamp pos (by rw [hph]; rfl)
    obtain ⟨st, w, ok, bytes, hatt, hdone, -, -⟩ :=
      h.truthful.snapshotted hap hph now hfree (h.intends_snapshot hph)
    rw [hdone] at hnext ⊢
    cases ok with
    | true =>
      refine ⟨hnext, fun _ => ⟨s.position, [], ?_⟩⟩
      have hlat : ∀ a ∈ s.writer.manifest.artifacts, a.kind = .snapshot →
          o.order.Le a.toPosition s.position :=
        fun a ha _ => h.bounded _ (h.truthful.held a ha).known
      cases hatt with
      | put _ _ _ _ =>
        exact Anchored.rebase (w := s.writer) (snapshotArtifact cfg epoch s.position) rfl
          hlat rfl rfl rfl
    | false => exact ⟨hnext, fun hbs => nomatch hbs.1⟩

lemma Recoverable.reconstruct (h : s.Recoverable cfg o) (hbs : s.Based) {r : Reader B V}
    (hr : r.Decodes cfg) {n : String} (hn : n ∈ cfg.destinations)
    (hstd : (s.destinations n).manifest = some s.writer.manifest) :
    ∃ fuel, r.reconstructAsOf fuel (s.destinations n) s.writer.fromPos cfg.keyFields o.order.cmp =
      some (.ok (some ⟨(s.tableAt o s.writer.fromPos).toList.map Prod.snd, s.writer.fromPos⟩)) := by
  obtain ⟨pos, chain, hch⟩ := h.anchored hbs
  have hpath := hch.path
  obtain ⟨a, ha, hkind, rfl, -⟩ := hch.listed
  have hknown : ∀ {x : Artifact}, x ∈ s.writer.manifest.artifacts → s.Known o x.toPosition :=
    fun hx => (h.truthful.held _ hx).known
  have hbase := baseAsOf_isBase o.order s.writer.manifest.artifacts s.writer.fromPos
  cases hfnd : baseAsOf s.writer.manifest.artifacts s.writer.fromPos o.order.cmp with
  | none =>
    rw [hfnd] at hbase
    exact absurd hch.before (hbase a ha hkind)
  | some base =>
    rw [hfnd] at hbase
    obtain ⟨hmem, hbasekind, -, hmax⟩ := hbase
    -- the base is at the position of the last snapshot
    have hsame := h.distinct _ _ (hknown hmem) (hknown ha)
      (hch.latest base hmem hbasekind) (hmax a ha hkind hch.before)
    rw [← hsame] at hpath
    have hkeep : ∀ d ∈ chain, decide (¬ o.order.cmp d.toPosition s.writer.fromPos > 0) = true :=
      fun d hd => decide_eq_true (Int.not_lt.mpr (hch.current d hd).2)
    -- a diff that starts at the head leads past it
    have hend : ∀ d, (byFrom s.writer.manifest.artifacts)[s.writer.fromPos]? = some d →
        decide (¬ o.order.cmp d.toPosition s.writer.fromPos > 0) = false := by
      intro d hd
      obtain ⟨l₁, l₂, hspl, hfrom, -⟩ := getElem?_byFrom_eq_some.mp hd
      have hlt := h.toFaithful.forward (d := d) (by simp [hspl]) hfrom
      exact decide_eq_false (not_not_intro ((o.order.swap _ _).mp hlt))
    exact ⟨_, Reader.reconstruct_of_plan hr hstd (h.truthful.version n hn _ hstd)
      (fun a ha => (h.truthful.held a ha).sound n hn) keyed_tableAt hmem hbasekind hfnd
      (Links.follow_of_path hpath hkeep hend) hpath⟩

lemma Recoverable.committed (h : s.Recoverable cfg o) (hap : cfg.FormatsApart)
    (hfree : s.KeysFree cfg a) (hcpl : s.DiffsComplete cfg a) (hs : Step cfg s a s')
    (hcomm : s'.archive.length = s.archive.length + 1) :
    s'.Based ∧ (∀ n ∈ cfg.destinations, (s'.destinations n).manifest = some s'.writer.manifest) ∧
      s'.writer.fromPos = s'.position ∧ s'.writer.manifest.headPosition = s'.position := by
  cases hs with
  | @write d upTo fault hph =>
    obtain rfl : upTo = s.position := h.stamp upTo (by rw [hph]; rfl)
    rcases h.truthful.flushed hap hph hfree fun htgt => h.intends_diff hph (hcpl _ htgt rfl) with
      hreb | ⟨st, w, ok, htgt, hatt, hdone, -, -⟩
    · rw [hreb] at hcomm
      exact absurd hcomm.symm (Nat.succ_ne_self _)
    · rw [hdone] at hcomm ⊢
      cases ok with
      | false => exact absurd hcomm.symm (Nat.succ_ne_self _)
      | true =>
        cases hatt with
        | put _ _ _ hput =>
          exact ⟨⟨hcpl _ htgt rfl, rfl⟩, hput rfl, rfl, add_headPosition _ _ _⟩
  | @commit initial epoch rows pos fault now hph =>
    obtain rfl : pos = s.position := h.stamp pos (by rw [hph]; rfl)
    obtain ⟨st, w, ok, bytes, hatt, hdone, -, -⟩ :=
      h.truthful.snapshotted hap hph now hfree (h.intends_snapshot hph)
    rw [hdone] at hcomm ⊢
    cases ok with
    | false => exact absurd hcomm.symm (Nat.succ_ne_self _)
    | true =>
      cases hatt with
      | put _ _ _ hput =>
        exact ⟨⟨rfl, rfl⟩, hput rfl, rfl, add_headPosition _ _ _⟩
  | _ => exact absurd hcomm.symm (Nat.succ_ne_self _)

/-- **No change is lost by a failed write.** In every run whose steps are all `Recovers`, when
a step commits an artifact, reconstructing the archive at its head gives exactly the
subscription's table, at every destination. -/
theorem reconstruct_after_commit (cfg : Config B V) (o : Origin V cfg.keyFields)
    (hapart : cfg.FormatsApart) (r : Reader B V) (hr : r.Decodes cfg)
    (hreach : Reach (Step cfg) (Recovers cfg o) (World.init o.table o.position) s)
    (hok : s.Recovers cfg o a) (hs : Step cfg s a s')
    (hcommitted : s'.archive.length = s.archive.length + 1) {n : String}
    (hn : n ∈ cfg.destinations) :
    ∃ m, (s'.destinations n).manifest = some m ∧ m.headPosition = s'.position ∧
      ∃ fuel rows, r.reconstructAsOf fuel (s'.destinations n) m.headPosition cfg.keyFields
          o.order.cmp = some (.ok (some ⟨rows, m.headPosition⟩)) ∧
        rows.Perm (s'.table.toList.map Prod.snd) := by
  have hinv : s.Recoverable cfg o := by
    refine hreach.invariant (Recoverable cfg o) Recoverable.init ?_
    intro s₁ s₂ a h hok hs
    exact h.step hapart hok hs
  have hnext := hinv.step hapart hok hs
  obtain ⟨hbs, hstd, hpos, hhead⟩ := hinv.committed hapart hok.2.1 hok.2.2 hs hcommitted
  obtain ⟨fuel, hres⟩ := hnext.reconstruct hbs hr hn (hstd n hn)
  rw [hpos, hnext.tableAt_position] at hres
  refine ⟨s'.writer.manifest, hstd n hn, hhead, fuel, _, ?_, List.Perm.refl _⟩
  rw [hhead]
  exact hres

/-- Row 1 is buffered; a forced snapshot discards the buffer and fails; row 2 is buffered and
flushed. -/
theorem failed_snapshot_loses_change :
    ∃ s : World (Payload Text) Text, Reach (Step diffsOnly)
        (fun s a => s.Regular (emptyAt "0/10") a ∧ s.KeysFree diffsOnly a)
        (World.init ∅ "0/10") s ∧
      s.archive.map (fun a => (a.kind, a.toPosition)) =
        [(.snapshot, "0/10"), (.diff, "0/30")] ∧
      plainReader.reconstructAsOf 3 (s.destinations "local") "0/30" ["id"]
        (ofOrd String).cmp = some (.ok (some ⟨[rowWithId "2"], "0/30"⟩)) ∧
      s.table.toList.map Prod.snd = [rowWithId "1", rowWithId "2"] := by
  have h : Reach (Step diffsOnly)
      (fun s a => s.Regular (emptyAt "0/10") a ∧ s.KeysFree diffsOnly a)
      (World.init ∅ "0/10") _ := .refl _
  have h := h
    |>.snoc (.start rfl)
    |>.snoc (.capture rfl (.refl _))
    |>.snoc (a := .commit none 0) (.commit rfl) (by
      refine ⟨trivial, ?_⟩
      exact plainConfig_keysFree rfl (by decide +kernel))
    |>.snoc (a := .publish "0/20" insertOne) (.publish rfl)
    |>.snoc (.deliver rfl)
    |>.snoc (.force rfl)
    |>.snoc (.capture rfl (.refl _))
    |>.snoc (a := .commit (some 0) 0) (.commit rfl) (by
      refine ⟨trivial, ?_⟩
      exact plainConfig_keysFree rfl (by decide +kernel))
    |>.snoc (a := .publish "0/30" insertTwo) (.publish rfl)
    |>.snoc (.deliver rfl)
    |>.snoc (a := .drain _ 0) (.drain rfl buffer_insertTwo_ne (.refl _))
    |>.snoc (.stamp rfl)
    |>.snoc (a := .write none) (.write rfl) (by
      refine ⟨trivial, ?_⟩
      exact plainConfig_keysFree rfl (by decide +kernel))
  exact ⟨_, h, rfl, rfl, rfl⟩

theorem failed_diff_recovered :
    ∃ s s' : World (Payload Text) Text, Reach (Step diffsOnly) (Recovers diffsOnly (emptyAt "0/10"))
        (World.init ∅ "0/10") s ∧
      Recovers diffsOnly (emptyAt "0/10") s (.write none) ∧ Step diffsOnly s (.write none) s' ∧
      s'.archive.length = s.archive.length + 1 ∧
      ∃ m, (s'.destinations "local").manifest = some m ∧ m.headPosition = s'.position ∧
        ∃ fuel rows, plainReader.reconstructAsOf fuel (s'.destinations "local") m.headPosition
            ["id"] (ofOrd String).cmp = some (.ok (some ⟨rows, m.headPosition⟩)) ∧
          rows.Perm (s'.table.toList.map Prod.snd) := by
  have h : Reach (Step diffsOnly) (Recovers diffsOnly (emptyAt "0/10"))
      (World.init ∅ "0/10") _ := .refl _
  have h := h
    |>.snoc (.start rfl)
    |>.snoc (.capture rfl (.refl _))
    |>.snoc (a := .commit none 0) (.commit rfl) (by
      refine ⟨trivial, ?_, trivial⟩
      exact plainConfig_keysFree rfl (by decide +kernel))
    |>.snoc (a := .publish "0/20" insertOne) (.publish rfl)
    |>.snoc (.deliver rfl)
    |>.snoc (a := .drain _ 0) (.drain rfl buffer_insertOne_ne (.refl _))
    |>.snoc (.stamp rfl)
    |>.snoc (a := .write (some 1)) (.write rfl) (by
      refine ⟨trivial, ?_, fun _ _ _ => rfl⟩
      exact plainConfig_keysFree rfl (by decide +kernel))
    |>.snoc (a := .drain _ 0)
      (.drain rfl (Buffer.remerge_ne_empty buffer_insertOne_ne) (.refl _))
    |>.snoc (.stamp rfl)
  refine ⟨_, _, h, ?_, .write rfl, rfl, reconstruct_after_commit diffsOnly (emptyAt "0/10")
    plainConfig_formatsApart plainReader plainReader_decodes h (a := .write none) ?_
      (.write rfl) rfl
    (n := "local") (mem_singleton.mpr rfl)⟩
  all_goals
    refine ⟨trivial, ?_, fun _ _ _ => rfl⟩
    exact plainConfig_keysFree rfl (by decide +kernel)

end World

end Laredo.Snapshotter
