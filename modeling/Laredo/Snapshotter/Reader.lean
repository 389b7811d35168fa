import Laredo.Snapshotter.Writer

/-!
# Reader

Reading an archive back (`snapshotter/reader.go`): `ReconstructAsOf` loads the manifest,
plans, reads the base snapshot and folds the diffs into it.
-/

namespace Laredo.Snapshotter

open List Option

variable {B V : Type}

/-- `Reader`, with what `NewReader` insists on; the destination is an argument of its
functions. -/
structure Reader (B V : Type) where
  keyPrefix : String
  formats : List (Format B V)
  formats_ne : formats ≠ []

inductive ReadError
  | manifestNotFound
  | unsupportedManifestVersion
  | noFormat
  | missingObject (key : String)
  | decode
  deriving DecidableEq, Repr

structure Reconstruction (V : Type) where
  rows : List (Row V)
  position : String

namespace Reader

def loadManifest (d : Destination B) : Except ReadError Manifest :=
  match d.manifest with
  | none => .error .manifestNotFound
  | some m =>
      if m.manifestVersion > currentManifestVersion then .error .unsupportedManifestVersion
      else .ok m

def formatFor (r : Reader B V) (art : Artifact) : Option (Format B V) :=
  r.formats.find? fun f => f.formatID ∈ art.formats

def artifactBytes (r : Reader B V) (d : Destination B) (art : Artifact) (f : Format B V) :
    Except ReadError B :=
  let key := artifactObjectKey r.keyPrefix art f.extension
  match d.objects[key]? with
  | none => .error (.missingObject key)
  | some data => .ok data

def read {α : Type} (r : Reader B V) (d : Destination B) (art : Artifact)
    (decode : Format B V → B → Option α) : Except ReadError α :=
  match r.formatFor art with
  | none => .error .noFormat
  | some f =>
      match r.artifactBytes d art f with
      | .error e => .error e
      | .ok data =>
          match decode f data with
          | none => .error .decode
          | some x => .ok x

def readSnapshot (r : Reader B V) (d : Destination B) (art : Artifact) :
    Except ReadError (List (Row V)) := r.read d art Format.readSnapshot

def readDiff (r : Reader B V) (d : Destination B) (art : Artifact) :
    Except ReadError (List (Change V)) := r.read d art Format.readDiff

def foldDiffs (r : Reader B V) (d : Destination B) (state : Store V) :
    List Artifact → Except ReadError (Store V)
  | [] => .ok state
  | art :: diffs =>
      match r.readDiff d art with
      | .error e => .error e
      | .ok changes => foldDiffs r d (foldChanges state changes) diffs

variable [GoValue V]

def loadBase (r : Reader B V) (d : Destination B) (keyFields : List String) :
    Option Artifact → Except ReadError (Store V)
  | none => .ok ∅
  | some base =>
      match r.readSnapshot d base with
      | .error e => .error e
      | .ok rows => .ok (KeyedMap.load (fun row => rowKey keyFields (some row)) ∅ rows)

/-- `ReconstructAsOf(position, keyFields, cmp)`; `none` if the plan is never finished. -/
def reconstructAsOf (fuel : Nat) (r : Reader B V) (d : Destination B) (position : String)
    (keyFields : List String) (cmp : String → String → Int) :
    Option (Except ReadError (Option (Reconstruction V))) :=
  match loadManifest d with
  | .error e => some (.error e)
  | .ok m =>
      match m.planAsOf fuel position cmp with
      | none => none
      | some none => some (.ok none)
      | some (some plan) =>
          match r.loadBase d keyFields plan.snapshot with
          | .error e => some (.error e)
          | .ok state =>
              match r.foldDiffs d state plan.diffs with
              | .error e => some (.error e)
              | .ok state => some (.ok (some ⟨state.toList.map Prod.snd, plan.headPosition⟩))

end Reader

def Config.formatsOf (cfg : Config B V) : ArtifactKind → List (Format B V)
  | .snapshot => cfg.snapshotFormats
  | .diff => cfg.diffFormats

def Artifact.Holds (tableAt : String → Store V) (a : Artifact) (f : Format B V) (data : B) : Prop :=
  match a.kind with
  | .snapshot => ∃ rows, f.writeSnapshot rows = some data ∧
      rows.Perm ((tableAt a.toPosition).toList.map Prod.snd)
  | .diff => ∃ start changes, a.fromPosition = some start ∧ f.writeDiff changes = some data ∧
      foldChanges (tableAt start) changes = tableAt a.toPosition

structure Artifact.Sound (cfg : Config B V) (tableAt : String → Store V) (d : Destination B)
    (a : Artifact) : Prop where
  formats : a.formats = (cfg.formatsOf a.kind).map Format.formatID
  objects : ∀ f ∈ cfg.formatsOf a.kind, ∃ data,
    d.objects[artifactObjectKey cfg.keyPrefix a f.extension]? = some data ∧ a.Holds tableAt f data

/-- The reader's formats decode what the writer's formats of the same id have encoded, and
there is one for every kind of artifact. -/
structure Reader.Decodes (r : Reader B V) (cfg : Config B V) : Prop where
  keyPrefix : r.keyPrefix = cfg.keyPrefix
  extension : ∀ f ∈ r.formats, ∀ kind, ∀ g ∈ cfg.formatsOf kind, f.formatID = g.formatID →
    f.extension = g.extension
  snapshot : ∀ f ∈ r.formats, ∀ g ∈ cfg.snapshotFormats, f.formatID = g.formatID →
    ∀ rows data, g.writeSnapshot rows = some data → f.readSnapshot data = some rows
  diff : ∀ f ∈ r.formats, ∀ g ∈ cfg.diffFormats, f.formatID = g.formatID →
    ∀ changes data, g.writeDiff changes = some data → f.readDiff data = some changes
  available : ∀ kind, ∃ f ∈ r.formats, f.formatID ∈ (cfg.formatsOf kind).map Format.formatID

section

variable {cfg : Config B V} {tableAt : String → Store V} {d : Destination B} {a : Artifact}
variable {r : Reader B V}

lemma Reader.Decodes.formatFor_inv (hr : r.Decodes cfg)
    (hfmts : a.formats = (cfg.formatsOf a.kind).map Format.formatID) {f : Format B V}
    (hfind : r.formatFor a = some f) : f ∈ r.formats ∧ ∃ g ∈ cfg.formatsOf a.kind,
      f.formatID = g.formatID ∧ artifactObjectKey r.keyPrefix a f.extension =
        artifactObjectKey cfg.keyPrefix a g.extension := by
  have hf : f ∈ r.formats := mem_of_find?_eq_some hfind
  have hid : f.formatID ∈ a.formats := by
    have hfnd := find?_some hfind
    exact of_decide_eq_true hfnd
  rw [hfmts] at hid
  obtain ⟨g, hg, hfg⟩ := List.mem_map.mp hid
  refine ⟨hf, g, hg, hfg.symm, ?_⟩
  rw [hr.keyPrefix, hr.extension f hf a.kind g hg hfg.symm]

lemma Artifact.Sound.read_eq {α : Type} (h : a.Sound cfg tableAt d) (hr : r.Decodes cfg)
    {dec : Format B V → B → Option α} {good : α → Prop}
    (hdec : ∀ f ∈ r.formats, ∀ g ∈ cfg.formatsOf a.kind, f.formatID = g.formatID →
      ∀ data, d.objects[artifactObjectKey cfg.keyPrefix a g.extension]? = some data →
        a.Holds tableAt g data → ∃ x, dec f data = some x ∧ good x) :
    ∃ x, r.read d a dec = .ok x ∧ good x := by
  obtain ⟨f₀, hf₀, hid₀⟩ := hr.available a.kind
  rw [← h.formats] at hid₀
  have hsome : (r.formatFor a).isSome = true := find?_isSome.mpr ⟨f₀, hf₀, decide_eq_true hid₀⟩
  obtain ⟨f, hfind⟩ := isSome_iff_exists.mp hsome
  obtain ⟨hf, g, hg, hid, hkey⟩ := hr.formatFor_inv h.formats hfind
  obtain ⟨data, hdata, hhld⟩ := h.objects g hg
  obtain ⟨x, hx, hgood⟩ := hdec f hf g hg hid data hdata hhld
  refine ⟨x, ?_, hgood⟩
  have hbytes : r.artifactBytes d a f = .ok data := by
    unfold Reader.artifactBytes
    simp only [hkey, hdata]
  unfold Reader.read
  simp only [hfind, hbytes, hx]

lemma Reader.Decodes.read_congr {α : Type} (hr : r.Decodes cfg)
    (hfmts : a.formats = (cfg.formatsOf a.kind).map Format.formatID) {d' : Destination B}
    (hobj : ∀ g ∈ cfg.formatsOf a.kind, d'.objects[artifactObjectKey cfg.keyPrefix a g.extension]? =
        d.objects[artifactObjectKey cfg.keyPrefix a g.extension]?)
    (decode : Format B V → B → Option α) : r.read d' a decode = r.read d a decode := by
  unfold Reader.read
  cases hfind : r.formatFor a with
  | none => rfl
  | some f =>
    obtain ⟨-, g, hg, -, hkey⟩ := hr.formatFor_inv hfmts hfind
    have hbytes : r.artifactBytes d' a f = r.artifactBytes d a f := by
      unfold Reader.artifactBytes
      simp only [hkey, hobj g hg]
    simp only [hbytes]

lemma Artifact.Sound.readSnapshot_eq (h : a.Sound cfg tableAt d) (hr : r.Decodes cfg)
    (hkind : a.kind = .snapshot) :
    ∃ rows, r.readSnapshot d a = .ok rows ∧
      rows.Perm ((tableAt a.toPosition).toList.map Prod.snd) := by
  refine h.read_eq hr ?_
  intro f hf g hg hid data _ hhld
  unfold Artifact.Holds at hhld
  rw [hkind] at hg hhld
  obtain ⟨rows, hwrite, hperm⟩ := hhld
  exact ⟨rows, hr.snapshot f hf g hg hid rows data hwrite, hperm⟩

lemma Artifact.Sound.readDiff_eq (h : a.Sound cfg tableAt d) (hr : r.Decodes cfg)
    {start : String} (hdiff : a.DiffFrom start) :
    ∃ changes, r.readDiff d a = .ok changes ∧
      foldChanges (tableAt start) changes = tableAt a.toPosition := by
  refine h.read_eq hr ?_
  intro f hf g hg hid data _ hhld
  unfold Artifact.Holds at hhld
  rw [hdiff.1] at hg hhld
  obtain ⟨start', changes, hfrom, hwrite, hfold⟩ := hhld
  obtain rfl : start = start' := some.inj (hdiff.2.symm.trans hfrom)
  exact ⟨changes, hr.diff f hf g hg hid changes data hwrite, hfold⟩

lemma Reader.foldDiffs_of_path (hr : r.Decodes cfg) {artifacts chain : List Artifact}
    {p q : String}
    (hpath : Links.Path (fun p => (byFrom artifacts)[p]?) Artifact.toPosition p chain q)
    (hsound : ∀ a ∈ artifacts, a.Sound cfg tableAt d) :
    r.foldDiffs d (tableAt p) chain = .ok (tableAt q) := by
  induction chain generalizing p with
  | nil =>
    obtain rfl : p = q := hpath
    rfl
  | cons a chain ih =>
    obtain ⟨hnext, hrest⟩ := hpath
    obtain ⟨l₁, l₂, hspl, hfrom, -⟩ := getElem?_byFrom_eq_some.mp hnext
    have hmem : a ∈ artifacts := by simp [hspl]
    obtain ⟨changes, hread, hfold⟩ := (hsound a hmem).readDiff_eq hr hfrom
    unfold Reader.foldDiffs
    simp only [hread, hfold]
    exact ih hrest

end

def IsBase (c : Comparator String) (artifacts : List Artifact) (p : String) :
    Option Artifact → Prop
  | none => ∀ a ∈ artifacts, a.kind = .snapshot → ¬ c.Le a.toPosition p
  | some base => base ∈ artifacts ∧ base.kind = .snapshot ∧ c.Le base.toPosition p ∧
      ∀ a ∈ artifacts, a.kind = .snapshot → c.Le a.toPosition p →
        c.Le a.toPosition base.toPosition

lemma IsBase.snoc {c : Comparator String} {arts : List Artifact} {p : String}
    {base : Option Artifact} (h : IsBase c arts p base) {a : Artifact}
    (ha : a.kind = .snapshot → c.Le a.toPosition p →
      ∃ b, base = some b ∧ c.Le a.toPosition b.toPosition) : IsBase c (arts ++ [a]) p base := by
  cases base with
  | none =>
    intro x hx hkind hle
    rcases mem_append.mp hx with hx | hx
    · exact h x hx hkind hle
    · obtain rfl := mem_singleton.mp hx
      obtain ⟨b, hb, -⟩ := ha hkind hle
      cases hb
  | some base =>
    obtain ⟨hmem, hkind, hle, hmax⟩ := h
    refine ⟨mem_append_left _ hmem, hkind, hle, ?_⟩
    intro x hx hxkind hxle
    rcases mem_append.mp hx with hx | hx
    · exact hmax x hx hxkind hxle
    · obtain rfl := mem_singleton.mp hx
      obtain ⟨b, hb, hxb⟩ := ha hxkind hxle
      cases hb
      exact hxb

lemma baseAsOf_isBase (c : Comparator String) (arts : List Artifact) (p : String) :
    IsBase c arts p (baseAsOf arts p c.cmp) := by
  induction arts using List.reverseRecOn with
  | nil => nofun
  | append_singleton arts a ih =>
    unfold baseAsOf at ih ⊢
    rw [foldl_append, foldl_cons, foldl_nil]
    generalize arts.foldl _ none = base at ih ⊢
    by_cases hkind : a.kind = .snapshot
    · rw [if_neg (not_not_intro hkind)]
      by_cases htake : c.cmp a.toPosition p ≤ 0 ∧
          base.all (fun b => c.cmp a.toPosition b.toPosition > 0) = true
      · -- further than the base so far, and so than all before
        rw [if_pos htake]
        refine ⟨by simp, hkind, htake.1, ?_⟩
        intro x hx hxkind hxle
        rcases mem_append.mp hx with hx | hx
        · cases base with
          | none => exact absurd hxle (ih x hx hxkind)
          | some b =>
            have hb : c.cmp a.toPosition b.toPosition > 0 := by simpa using htake.2
            have hlt : c.Lt b.toPosition a.toPosition := (c.swap _ _).mpr hb
            exact (ih.2.2.2 x hx hxkind hxle).trans hlt.le
        · obtain rfl := mem_singleton.mp hx
          exact Comparator.Le.refl _ _
      · rw [if_neg htake]
        refine ih.snoc fun _ hle => ?_
        cases base with
        | none => exact absurd ⟨hle, rfl⟩ htake
        | some b =>
          refine ⟨b, rfl, ?_⟩
          have hb : ¬ c.cmp a.toPosition b.toPosition > 0 := fun hb =>
            htake ⟨hle, by simpa using hb⟩
          exact Int.not_lt.mp hb
    · rw [if_pos hkind]
      exact ih.snoc fun h => absurd h hkind

section

variable [GoValue V] {cfg : Config B V} {tableAt : String → Store V} {d : Destination B}
variable {r : Reader B V} {m : Manifest} {p : String} {cmp : String → String → Int}

lemma Reader.loadManifest_eq (hm : d.manifest = some m)
    (hver : m.manifestVersion = currentManifestVersion) : Reader.loadManifest d = .ok m := by
  unfold Reader.loadManifest
  simp [hm, hver]

lemma Reader.manifest_of_loadManifest (h : Reader.loadManifest d = .ok m) :
    d.manifest = some m := by
  unfold Reader.loadManifest at h
  cases hm : d.manifest with
  | none => simp [hm] at h
  | some m' =>
    simp only [hm] at h
    split at h
    · cases h
    · exact congrArg some (Except.ok.inj h)

lemma Reader.loadBase_eq (hr : r.Decodes cfg) {base : Artifact}
    (hsound : base.Sound cfg tableAt d) (hkind : base.kind = .snapshot)
    (hkd : KeyedMap.Keyed (fun row => rowKey cfg.keyFields (some row)) (tableAt base.toPosition)) :
    r.loadBase d cfg.keyFields (some base) = .ok (tableAt base.toPosition) := by
  obtain ⟨rows, hread, hperm⟩ := hsound.readSnapshot_eq hr hkind
  unfold Reader.loadBase
  simp only [hread]
  rw [KeyedMap.load_values hkd hperm]

lemma Reader.reconstruct_of_no_base (hm : d.manifest = some m)
    (hver : m.manifestVersion = currentManifestVersion)
    (hbase : baseAsOf m.artifacts p cmp = none) (fuel : Nat) (kf : List String) :
    r.reconstructAsOf fuel d p kf cmp = some (.ok none) := by
  have hplan : m.planAsOf fuel p cmp = some none := by
    unfold Manifest.planAsOf
    rw [hbase]
    exact ite_self _
  unfold Reader.reconstructAsOf
  rw [Reader.loadManifest_eq hm hver]
  simp only [hplan]

lemma Reader.reconstruct_of_plan (hr : r.Decodes cfg) (hm : d.manifest = some m)
    (hver : m.manifestVersion = currentManifestVersion)
    (hsound : ∀ a ∈ m.artifacts, a.Sound cfg tableAt d)
    (hkd : ∀ q, KeyedMap.Keyed (fun row => rowKey cfg.keyFields (some row)) (tableAt q))
    {base : Artifact} (hmem : base ∈ m.artifacts) (hkind : base.kind = .snapshot)
    (hbase : baseAsOf m.artifacts p cmp = some base) {fuel : Nat} {chain : List Artifact}
    (hfol : Links.follow (fun p => (byFrom m.artifacts)[p]?) Artifact.toPosition
      (fun d => ¬ cmp d.toPosition p > 0) fuel base.toPosition = some chain) {q : String}
    (hpath : Links.Path (fun p => (byFrom m.artifacts)[p]?) Artifact.toPosition base.toPosition
      chain q) :
    r.reconstructAsOf fuel d p cfg.keyFields cmp =
      some (.ok (some ⟨(tableAt q).toList.map Prod.snd, q⟩)) := by
  have hne : m.artifacts.isEmpty = false := isEmpty_eq_false_iff_exists_mem.mpr ⟨base, hmem⟩
  have hplan : m.planAsOf fuel p cmp = some (some ⟨some base, chain, q⟩) := by
    unfold Manifest.planAsOf
    rw [hbase, hne, if_neg (by decide)]
    dsimp only
    rw [hfol, map_some, hpath.getLast_target]
  have hload := Reader.loadBase_eq hr (hsound base hmem) hkind (hkd _)
  unfold Reader.reconstructAsOf
  rw [Reader.loadManifest_eq hm hver]
  simp only [hplan, hload, Reader.foldDiffs_of_path hr hpath hsound]

end

end Laredo.Snapshotter
