import Mathlib.Data.List.Pairwise
import Laredo.Snapshotter.Faithful

/-!
# Point in time

`ReconstructAsOf` finds the latest artifact boundary at or below the position asked for, and the
table there, as long as no write fails.
-/

namespace Laredo.Snapshotter

open Comparator Reader Artifact Transition List Option Manifest Links

variable {B V : Type}

def Artifact.origin (a : Artifact) : String :=
  match a.kind, a.fromPosition with
  | .diff, some p => p
  | _, _ => a.toPosition

lemma Artifact.DiffFrom.origin_eq {a : Artifact} {p : String} (h : a.DiffFrom p) :
    a.origin = p := by
  unfold origin
  rw [h.1, h.2]

/-- Each artifact begins where or after the ones before it end, and diffs lead forward. -/
structure Sequential (c : Comparator String) (artifacts : List Artifact) : Prop where
  after : artifacts.Pairwise fun a b => c.Le a.toPosition b.origin
  forward : ∀ a ∈ artifacts, a.kind = .diff → ∃ p, a.DiffFrom p ∧ c.Lt p a.toPosition

inductive Boundary (artifacts : List Artifact) : String → Prop
  | snapshot {a : Artifact} (ha : a ∈ artifacts) (hkind : a.kind = .snapshot) :
      Boundary artifacts a.toPosition
  | diff {p : String} {a : Artifact} (hp : Boundary artifacts p) (ha : a ∈ artifacts)
      (hfrom : a.DiffFrom p) : Boundary artifacts a.toPosition

section

variable {c : Comparator String} {artifacts : List Artifact}

lemma Sequential.nil : Sequential c [] := ⟨List.Pairwise.nil, nofun⟩

lemma Sequential.sublist (h : Sequential c artifacts) {artifacts' : List Artifact}
    (hsub : artifacts'.Sublist artifacts) : Sequential c artifacts' :=
  ⟨h.after.sublist hsub, fun a ha => h.forward a (hsub.subset ha)⟩

lemma Sequential.add {m : Manifest} (h : Sequential c m.artifacts) (keepEpochs : Int)
    {art : Artifact} (haft : ∀ a ∈ m.artifacts, c.Le a.toPosition art.origin)
    (hfwd : art.kind = .diff → ∃ p, art.DiffFrom p ∧ c.Lt p art.toPosition) :
    Sequential c (m.add keepEpochs art).artifacts := by
  refine Sequential.sublist ⟨?_, ?_⟩ (prune_sublist keepEpochs _)
  · refine pairwise_append.mpr ⟨h.after, pairwise_singleton _ _, ?_⟩
    intro a ha b hb
    obtain rfl := mem_singleton.mp hb
    exact haft a ha
  · intro a ha
    rcases mem_append.mp ha with ha | ha
    · exact h.forward a ha
    · obtain rfl := mem_singleton.mp ha
      exact hfwd

variable {a : Artifact}

lemma Sequential.origin_le (h : Sequential c artifacts) (ha : a ∈ artifacts) :
    c.Le a.origin a.toPosition := by
  cases hkind : a.kind with
  | snapshot =>
    unfold origin
    rw [hkind]
    exact Le.refl _ _
  | diff =>
    obtain ⟨p, hp, hlt⟩ := h.forward a ha hkind
    rw [hp.origin_eq]
    exact hlt.le

lemma Sequential.total (h : Sequential c artifacts) {b : Artifact} (ha : a ∈ artifacts)
    (hb : b ∈ artifacts) : a = b ∨ c.Le a.toPosition b.origin ∨ c.Le b.toPosition a.origin := by
  by_cases hab : a = b
  · exact .inl hab
  · have hsymm : Std.Symm fun a b : Artifact =>
        c.Le a.toPosition b.origin ∨ c.Le b.toPosition a.origin := ⟨fun _ _ h => h.symm⟩
    have hpair : artifacts.Pairwise fun a b =>
        c.Le a.toPosition b.origin ∨ c.Le b.toPosition a.origin := h.after.imp .inl
    exact .inr (hpair.forall ha hb hab)

variable {p : String}

lemma Sequential.unique (h : Sequential c artifacts) {b : Artifact}
    (ha : a ∈ artifacts) (hb : b ∈ artifacts) (hap : a.DiffFrom p) (hbp : b.DiffFrom p) :
    a = b := by
  have hfwd : ∀ {x : Artifact}, x ∈ artifacts → x.DiffFrom p → c.Lt p x.toPosition := by
    intro x hx hxp
    obtain ⟨q, hq, hlt⟩ := h.forward x hx hxp.1
    rwa [← hq.origin_eq, hxp.origin_eq] at hlt
  rcases h.total ha hb with hab | hab | hba
  · exact hab
  · rw [hbp.origin_eq] at hab
    exact absurd hab (hfwd ha hap).not_le
  · rw [hap.origin_eq] at hba
    exact absurd hba (hfwd hb hbp).not_le

lemma Sequential.noReturn (h : Sequential c artifacts) : NoReturn artifacts := by
  have hbef : ∀ {a d : Artifact}, a ∈ artifacts → d ∈ artifacts → d.kind = .diff →
      c.Le a.origin d.origin → ¬ a.DiffFrom d.toPosition := by
    intro a d _ hd hkind hle hfrom
    obtain ⟨p, hp, hlt⟩ := h.forward d hd hkind
    rw [hfrom.origin_eq, hp.origin_eq] at hle
    exact hlt.not_le hle
  constructor
  · refine List.Pairwise.imp_of_mem ?_ h.after
    intro a d ha hd hle hkind
    exact hbef ha hd hkind ((h.origin_le ha).trans hle)
  · intro d hd hself
    exact hbef hd hd hself.1 (Le.refl _ _) hself

variable {q : String}

lemma Sequential.path (h : Sequential c artifacts) {chain : List Artifact}
    (hpath : Links.Path (fun p => (byFrom artifacts)[p]?) toPosition p chain q)
    (hp : Boundary artifacts p) :
    Boundary artifacts q ∧ c.Le p q ∧ (q = p ∨ ∃ a ∈ chain, a.toPosition = q) := by
  induction chain generalizing p with
  | nil =>
    obtain rfl : p = q := hpath
    exact ⟨hp, Le.refl _ _, .inl rfl⟩
  | cons a chain ih =>
    obtain ⟨hnext, hrest⟩ := hpath
    obtain ⟨l₁, l₂, hspl, hfrom, -⟩ := getElem?_byFrom_eq_some.mp hnext
    have ha : a ∈ artifacts := by simp [hspl]
    obtain ⟨hq, hle, hend⟩ := ih hrest (.diff hp ha hfrom)
    have hfwd : c.Le p a.toPosition := hfrom.origin_eq ▸ h.origin_le ha
    refine ⟨hq, hfwd.trans hle, .inr ?_⟩
    rcases hend with rfl | ⟨b, hb, hbq⟩
    · exact ⟨a, mem_cons_self, rfl⟩
    · exact ⟨b, mem_cons_of_mem _ hb, hbq⟩

lemma Boundary.exists_artifact (h : Boundary artifacts q) :
    ∃ x ∈ artifacts, x.toPosition = q := by
  cases h with
  | snapshot ha _ | diff _ ha _ => exact ⟨_, ha, rfl⟩

lemma Sequential.latest (h : Sequential c artifacts) (hq : Boundary artifacts q)
    (hbase : ∀ a ∈ artifacts, a.kind = .snapshot → c.Le a.toPosition p → c.Le a.toPosition q)
    (hend : ∀ a, (byFrom artifacts)[q]? = some a → ¬ c.Le a.toPosition p)
    (hdst : ∀ b, Boundary artifacts b → c.Le b q → c.Le q b → b = q) {b : String}
    (hb : Boundary artifacts b) (hle : c.Le b p) : c.Le b q := by
  induction hb with
  | snapshot ha hkind => exact hbase _ ha hkind hle
  | @diff b' a hb' ha hfrom ih =>
    have horigin : c.Le b' a.toPosition := hfrom.origin_eq ▸ h.origin_le ha
    have hbef := ih (horigin.trans hle)
    by_contra hnot
    have hlt := Comparator.not_le.mp hnot
    -- the diff `a` would straddle `q`, but `q` is the end of an artifact `x`
    obtain ⟨x, hx, hxq⟩ := hq.exists_artifact
    rcases h.total ha hx with rfl | hax | hxa
    · exact absurd (hxq ▸ hlt) Lt.irrefl
    · have hback : c.Le a.toPosition q := hxq ▸ hax.trans (h.origin_le hx)
      exact hlt.not_le hback
    · -- so `a` starts at `q`, and the walk would have gone on
      rw [hfrom.origin_eq, hxq] at hxa
      obtain rfl := hdst b' hb' hbef hxa
      obtain ⟨d, hd⟩ := exists_byFrom ha hfrom
      obtain ⟨l₁, l₂, hspl, hdfrom, -⟩ := getElem?_byFrom_eq_some.mp hd
      have hmem : d ∈ artifacts := by simp [hspl]
      obtain rfl := h.unique ha hmem hfrom hdfrom
      exact hend a hd hle

end

namespace World

def Succeeds (cfg : Config B V) (s : World B V) : Label V → Prop
  | .write fault => ∀ d upTo, s.phase = .stamped d upTo →
      (s.writer.finishFlush cfg d upTo s.table.size fault s.destinations).2.2 ≠ .failed
  | .commit fault now => ∀ initial epoch rows pos, s.phase = .captured initial epoch rows pos →
      (s.writer.finishSnapshot cfg epoch rows pos now fault s.destinations).2.2 = true
  | _ => True

variable [GoValue V]

def Orderly (cfg : Config B V) (o : Origin V cfg.keyFields) (s : World B V) (a : Label V) : Prop :=
  s.Regular o a ∧ s.Succeeds cfg a ∧ s.KeysFree cfg a

structure Chronicle (cfg : Config B V) (o : Origin V cfg.keyFields) (s : World B V) : Prop
    extends s.Faithful cfg o where
  clean : s.snapshotFailed = false
  held : Sequential o.order s.writer.manifest.artifacts
  stored : ∀ n m, (s.destinations n).manifest = some m → Sequential o.order m.artifacts
  ended : s.phase.collects = true →
    ∀ a ∈ s.writer.manifest.artifacts, o.order.Le a.toPosition s.writer.fromPos

variable {cfg : Config B V} {o : Origin V cfg.keyFields} {s s' : World B V} {a : Label V}

lemma Chronicle.init : Chronicle cfg o (World.init o.table o.position) :=
  ⟨Faithful.init, rfl, Sequential.nil, nofun, fun _ => nofun⟩

lemma Chronicle.diffsComplete (h : s.Chronicle cfg o) : s.DiffsComplete cfg a := by
  cases a <;> first | exact fun _ _ _ => h.clean | trivial

lemma Faithful.listed_le (h : s.Faithful cfg o) {art : Artifact}
    (hart : art ∈ s.writer.manifest.artifacts) : o.order.Le art.toPosition s.position :=
  h.bounded _ (h.truthful.held art hart).known

lemma Chronicle.add (h : s.Chronicle cfg o) {art : Artifact} (hwriting : s.Writing cfg art) :
    Sequential o.order (s.writer.manifest.add cfg.keepEpochs art).artifacts := by
  rcases hwriting with ⟨d, upTo, hph, rfl⟩ | ⟨initial, epoch, rows, pos, hph, rfl⟩
  · have hdrn : s.phase.drained = some d := by rw [hph]; rfl
    refine h.held.add cfg.keepEpochs ?_ fun _ => ?_
    · intro a ha
      rw [(h.drained d hdrn).1]
      exact h.ended (by rw [hph]; rfl) a ha
    · obtain ⟨p, hp, -, hlt⟩ := (h.intends_diff hph h.clean).start rfl
      exact ⟨p, ⟨rfl, hp⟩, hlt⟩
  · refine h.held.add cfg.keepEpochs ?_ nofun
    intro a ha
    rw [h.stamp pos (by rw [hph]; rfl)]
    exact h.toFaithful.listed_le ha

lemma Chronicle.step (h : s.Chronicle cfg o) (hap : cfg.FormatsApart)
    (hok : s.Orderly cfg o a) (hs : Step cfg s a s') : s'.Chronicle cfg o := by
  obtain ⟨hreg, hsucc, hfree⟩ := hok
  have hnext := h.toFaithful.step hap hreg hfree h.diffsComplete hs
  obtain ⟨hhl, hstd⟩ := hs.manifests_all (P := fun m => Sequential o.order m.artifacts)
    Sequential.nil (fun _ => id) h.held h.stored fun _ => h.add
  cases hs with
  | publish _ | deliver _ => exact ⟨hnext, h.clean, hhl, hstd, h.ended⟩
  | rebaseline _ => exact hreg.elim
  | drain hph _ _ | stamp hph =>
    exact ⟨hnext, h.clean, hhl, hstd, fun _ => h.ended (by rw [hph]; rfl)⟩
  | @write d upTo fault hph =>
    have hnot := hsucc d upTo hph
    obtain rfl : upTo = s.position := h.stamp upTo (by rw [hph]; rfl)
    rcases s.writer.finishFlush_spec cfg d s.position s.table.size fault s.destinations with
      hdone | ⟨st, w, ok, -, hdone⟩ <;> rw [hdone] at hnot hnext hhl hstd ⊢
    · exact ⟨hnext, h.clean, hhl, hstd, nofun⟩
    · cases ok with
      | true => exact ⟨hnext, h.clean, hhl, hstd, fun _ a ha => hnext.listed_le ha⟩
      | false => exact absurd rfl hnot
  | @commit initial epoch rows pos fault now hph =>
    have hdone := hsucc initial epoch rows pos hph
    obtain rfl : pos = s.position := h.stamp pos (by rw [hph]; rfl)
    obtain ⟨st, w, ok, bytes, -, hres⟩ :=
      s.writer.finishSnapshot_spec cfg epoch rows s.position now fault s.destinations
    rw [hres] at hdone hnext hhl hstd ⊢
    obtain rfl : ok = true := hdone
    exact ⟨hnext, rfl, hhl, hstd, fun _ a ha => hnext.listed_le ha⟩
  | _ => exact ⟨hnext, h.clean, hhl, hstd, nofun⟩

variable {n : String} {m : Manifest}

lemma Faithful.known_of_boundary (h : s.Faithful cfg o) (hn : n ∈ cfg.destinations)
    (hm : (s.destinations n).manifest = some m) {q : String}
    (hq : Boundary m.artifacts q) : s.Known o q := by
  obtain ⟨x, hx, rfl⟩ := hq.exists_artifact
  exact (h.truthful.stored n hn m hm x hx).known

lemma Chronicle.walk (h : s.Chronicle cfg o) (hn : n ∈ cfg.destinations)
    (hm : (s.destinations n).manifest = some m) {p : String} {base : Artifact}
    (hbase : IsBase o.order m.artifacts p (some base)) {fuel : Nat} {chain : List Artifact}
    (hfol : Links.follow (fun p => (byFrom m.artifacts)[p]?) toPosition
      (fun d => ¬ o.order.cmp d.toPosition p > 0) fuel base.toPosition = some chain) :
    ∃ q, Links.Path (fun p => (byFrom m.artifacts)[p]?) toPosition base.toPosition chain q ∧
      Boundary m.artifacts q ∧ o.order.Le q p ∧
      ∀ b, Boundary m.artifacts b → o.order.Le b p → o.order.Le b q := by
  obtain ⟨hmem, hkind, hle, hmax⟩ := hbase
  have hseq := h.stored n m hm
  obtain ⟨q, hpath, hkeep, hend⟩ := follow_spec hfol
  obtain ⟨hboun, hfwd, hlast⟩ := hseq.path hpath (.snapshot hmem hkind)
  have hkept : ∀ a : Artifact, ¬ o.order.cmp a.toPosition p > 0 ↔ o.order.Le a.toPosition p :=
    fun a => Int.not_lt
  have hqp : o.order.Le q p := by
    rcases hlast with rfl | ⟨a, ha, rfl⟩
    · exact hle
    · exact (hkept a).mp (of_decide_eq_true (hkeep a ha))
  refine ⟨q, hpath, hboun, hqp, ?_⟩
  intro b hb hbp
  refine hseq.latest hboun ?_ ?_ ?_ hb hbp
  · intro a ha hsnap hap
    exact (hmax a ha hsnap hap).trans hfwd
  · intro a ha hap
    exact absurd ((hkept a).mpr hap) (of_decide_eq_false (hend a ha))
  · intro b' hb' hb'q hqb'
    exact h.distinct b' q (h.toFaithful.known_of_boundary hn hm hb')
      (h.toFaithful.known_of_boundary hn hm hboun) hb'q hqb'

/-- What `ReconstructAsOf` can return: nothing, if the position precedes every snapshot, or the
table at the latest boundary. -/
def Reconstructs (o : Origin V cfg.keyFields) (s : World B V) (m : Manifest) (p : String) :
    Except ReadError (Option (Reconstruction V)) → Prop
  | .error _ => False
  | .ok none => ∀ a ∈ m.artifacts, a.kind = .snapshot → o.order.Lt p a.toPosition
  | .ok (some rec) => (∃ a ∈ m.artifacts, a.kind = .snapshot ∧ o.order.Le a.toPosition p) ∧
      rec.rows = (s.tableAt o rec.position).toList.map Prod.snd ∧
      Boundary m.artifacts rec.position ∧ o.order.Le rec.position p ∧
      ∀ b, Boundary m.artifacts b → o.order.Le b p → o.order.Le b rec.position

lemma reconstruct_total (r : Reader B V) (hret : NoReturn m.artifacts)
    (hm : (s.destinations n).manifest = some m) (p : String) (keyFields : List String)
    (cmp : String → String → Int) :
    ∃ fuel result, r.reconstructAsOf fuel (s.destinations n) p keyFields cmp = some result := by
  obtain ⟨fuel, hplan⟩ := hret.planAsOf_total p cmp
  obtain ⟨plan, hplan⟩ := isSome_iff_exists.mp hplan
  refine ⟨fuel, isSome_iff_exists.mp ?_⟩
  unfold reconstructAsOf
  cases hload : loadManifest (s.destinations n) with
  | error e => rfl
  | ok m' =>
    cases hm.symm.trans (manifest_of_loadManifest hload)
    simp only [hplan]
    cases plan with
    | none => rfl
    | some plan =>
      dsimp only
      cases r.loadBase (s.destinations n) keyFields plan.snapshot with
      | error e => rfl
      | ok state =>
        dsimp only
        cases r.foldDiffs (s.destinations n) state plan.diffs <;> rfl

variable {r : Reader B V} {p : String} {fuel : Nat}
variable {result : Except ReadError (Option (Reconstruction V))}

lemma Truthful.reconstruct_inv
    (h : Truthful cfg o.order (s.Known o) (s.tableAt o) s.destinations s.writer.manifest)
    (hr : r.Decodes cfg) (hn : n ∈ cfg.destinations) (hm : (s.destinations n).manifest = some m)
    (hrec : r.reconstructAsOf fuel (s.destinations n) p cfg.keyFields o.order.cmp = some result) :
    (result = .ok none ∧ ∀ a ∈ m.artifacts, a.kind = .snapshot → o.order.Lt p a.toPosition) ∨
    ∃ base chain q, IsBase o.order m.artifacts p (some base) ∧
      Links.follow (fun p => (byFrom m.artifacts)[p]?) toPosition
        (fun d => ¬ o.order.cmp d.toPosition p > 0) fuel base.toPosition = some chain ∧
      Links.Path (fun p => (byFrom m.artifacts)[p]?) toPosition base.toPosition chain q ∧
      result = .ok (some ⟨(s.tableAt o q).toList.map Prod.snd, q⟩) := by
  have hver := h.version n hn m hm
  have hbase := baseAsOf_isBase o.order m.artifacts p
  cases hfnd : baseAsOf m.artifacts p o.order.cmp with
  | none =>
    rw [hfnd] at hbase
    rw [reconstruct_of_no_base hm hver hfnd] at hrec
    cases hrec
    exact .inl ⟨rfl, fun a ha hkind => Comparator.not_le.mp (hbase a ha hkind)⟩
  | some base =>
    rw [hfnd] at hbase
    cases hfol : Links.follow (fun p => (byFrom m.artifacts)[p]?) toPosition
        (fun d => ¬ o.order.cmp d.toPosition p > 0) fuel base.toPosition with
    | none =>
      have hplan : m.planAsOf fuel p o.order.cmp = none := by
        unfold planAsOf
        rw [if_neg (by simpa using ne_nil_of_mem hbase.1), hfnd]
        simp only [hfol, map_none]
      unfold reconstructAsOf at hrec
      rw [loadManifest_eq hm hver] at hrec
      simp only [hplan] at hrec
      cases hrec
    | some chain =>
      obtain ⟨q, hpath, -, -⟩ := follow_spec hfol
      have hres := reconstruct_of_plan hr hm hver (fun a ha => (h.stored n hn m hm a ha).sound n hn)
        keyed_tableAt hbase.1 hbase.2.1 hfnd hfol hpath
      rw [hres] at hrec
      cases hrec
      exact .inr ⟨base, chain, q, hbase, hfol, hpath, rfl⟩

lemma Chronicle.reconstruct_total (h : s.Chronicle cfg o) (r : Reader B V)
    (hm : (s.destinations n).manifest = some m) (p : String) :
    ∃ fuel result, r.reconstructAsOf fuel (s.destinations n) p cfg.keyFields o.order.cmp =
      some result :=
  World.reconstruct_total r (h.stored n m hm).noReturn hm p _ _

lemma Chronicle.reconstruct_inv (h : s.Chronicle cfg o) (hr : r.Decodes cfg)
    (hn : n ∈ cfg.destinations) (hm : (s.destinations n).manifest = some m)
    (hrec : r.reconstructAsOf fuel (s.destinations n) p cfg.keyFields o.order.cmp = some result) :
    s.Reconstructs o m p result := by
  rcases h.truthful.reconstruct_inv hr hn hm hrec with
    ⟨rfl, hbef⟩ | ⟨base, chain, q, hbase, hfol, hpath, rfl⟩
  · exact hbef
  · obtain ⟨q', hpath', hlat⟩ := h.walk hn hm hbase hfol
    obtain rfl : q = q' := hpath.getLast_target.symm.trans hpath'.getLast_target
    exact ⟨⟨base, hbase.1, hbase.2.1, hbase.2.2.1⟩, rfl, hlat⟩

/-- **Point-in-time reconstruction.** In every `Orderly` run, at every destination and for
every position `p`: if `p` precedes every retained snapshot, nothing is returned; otherwise
the table at the latest boundary at or below `p` is, with its position. -/
theorem reconstruct_as_of_boundary (cfg : Config B V) (o : Origin V cfg.keyFields)
    (hapart : cfg.FormatsApart) (r : Reader B V) (hr : r.Decodes cfg)
    (hreach : Reach (Step cfg) (Orderly cfg o) (World.init o.table o.position) s)
    {n : String} (hn : n ∈ cfg.destinations) (p : String) :
    ((s.destinations n).manifest = none → ∀ fuel,
      r.reconstructAsOf fuel (s.destinations n) p cfg.keyFields o.order.cmp =
        some (.error .manifestNotFound)) ∧
    ∀ m, (s.destinations n).manifest = some m →
      ((∀ a ∈ m.artifacts, a.kind = .snapshot → o.order.Lt p a.toPosition) → ∃ fuel,
        r.reconstructAsOf fuel (s.destinations n) p cfg.keyFields o.order.cmp = some (.ok none)) ∧
      ((∃ a ∈ m.artifacts, a.kind = .snapshot ∧ o.order.Le a.toPosition p) → ∃ fuel rows q,
        r.reconstructAsOf fuel (s.destinations n) p cfg.keyFields o.order.cmp =
          some (.ok (some ⟨rows, q⟩)) ∧
        rows.Perm ((s.tableAt o q).toList.map Prod.snd) ∧
        Boundary m.artifacts q ∧ o.order.Le q p ∧
        ∀ b, Boundary m.artifacts b → o.order.Le b p → o.order.Le b q) := by
  have hinv : s.Chronicle cfg o := by
    refine hreach.invariant (Chronicle cfg o) Chronicle.init ?_
    intro s₁ s₂ a h hok hs
    exact h.step hapart hok hs
  refine ⟨?_, fun m hm => ?_⟩
  · intro hnone fuel
    unfold reconstructAsOf loadManifest
    rw [hnone]
  · obtain ⟨fuel, result, hrec⟩ := hinv.reconstruct_total r hm p
    have hres := hinv.reconstruct_inv hr hn hm hrec
    constructor
    · intro hbef
      rcases result with e | _ | rec
      · exact hres.elim
      · exact ⟨fuel, hrec⟩
      · obtain ⟨⟨a, ha, hkind, hle⟩, -⟩ := hres
        exact absurd hle (hbef a ha hkind).not_le
    · rintro ⟨a, ha, hkind, hle⟩
      rcases result with e | _ | rec
      · exact hres.elim
      · exact absurd hle (hres a ha hkind).not_le
      · obtain ⟨-, hrows, hlat⟩ := hres
        exact ⟨fuel, rec.rows, rec.position, hrec, .of_eq hrows, hlat⟩

/-- The positions "1 0", "1/0" and "1:0" differ, but not in an object key: the second diff
overwrites the first, and the table at "1/0" is reconstructed with row 2 instead of row 1. -/
theorem shared_object_key_misreads : ∃ s : World (Payload Text) Text, Reach (Step diffsOnly)
        (fun s a => s.Regular (emptyAt "1 0") a ∧ s.Succeeds diffsOnly a) (World.init ∅ "1 0") s ∧
      plainReader.reconstructAsOf 3 (s.destinations "local") "1/0" ["id"]
        (ofOrd String).cmp = some (.ok (some ⟨[rowWithId "2"], "1/0"⟩)) ∧
      (s.tableAt (emptyAt "1 0") "1/0").toList.map Prod.snd = [rowWithId "1"] := by
  have h : Reach (Step diffsOnly)
      (fun s a => s.Regular (emptyAt "1 0") a ∧ s.Succeeds diffsOnly a) (World.init ∅ "1 0") _ :=
    .refl _
  have h := h
    |>.snoc (.start rfl)
    |>.snoc (.capture rfl (.refl _))
    |>.snoc (a := .commit none 0) (.commit rfl)
    |>.snoc (a := .publish "1/0" insertOne) (.publish rfl)
    |>.snoc (.deliver rfl)
    |>.snoc (a := .drain _ 0) (.drain rfl buffer_insertOne_ne (.refl _))
    |>.snoc (.stamp rfl)
    |>.snoc (a := .write none) (.write rfl)
    |>.snoc (a := .publish "1:0" insertTwo) (.publish rfl)
    |>.snoc (.deliver rfl)
    |>.snoc (a := .drain _ 0) (.drain rfl buffer_insertTwo_ne (.refl _))
    |>.snoc (.stamp rfl)
    |>.snoc (a := .write none) (.write rfl)
  exact ⟨_, h, rfl, rfl⟩

theorem reconstruct_as_of_diff :
    ∃ (s : World (Payload Text) Text) (m : Manifest),
      Reach (Step diffsOnly) (Orderly diffsOnly (emptyAt "0/10"))
        (World.init ∅ "0/10") s ∧
      (s.destinations "local").manifest = some m ∧
      (∃ a ∈ m.artifacts, a.kind = .snapshot ∧ (ofOrd String).Le a.toPosition "0/25") ∧
      ∃ fuel rows q, plainReader.reconstructAsOf fuel (s.destinations "local") "0/25" ["id"]
          (ofOrd String).cmp = some (.ok (some ⟨rows, q⟩)) ∧
        rows.Perm ((s.tableAt (emptyAt "0/10") q).toList.map Prod.snd) ∧
        Boundary m.artifacts q ∧ (ofOrd String).Le q "0/25" ∧
        ∀ b, Boundary m.artifacts b → (ofOrd String).Le b "0/25" →
          (ofOrd String).Le b q := by
  have h : Reach (Step diffsOnly) (Orderly diffsOnly (emptyAt "0/10"))
      (World.init ∅ "0/10") _ := .refl _
  have h := h
    |>.snoc (.start rfl)
    |>.snoc (.capture rfl (.refl _))
    |>.snoc (a := .commit none 0) (.commit rfl) (by
      refine ⟨trivial, by intro _ _ _ _ hph; cases hph; rfl, ?_⟩
      exact plainConfig_keysFree rfl (by decide +kernel))
    |>.snoc (a := .publish "0/20" insertOne) (.publish rfl)
    |>.snoc (.deliver rfl)
    |>.snoc (a := .drain _ 0) (.drain rfl buffer_insertOne_ne (.refl _))
    |>.snoc (.stamp rfl)
    |>.snoc (a := .write none) (.write rfl) (by
      refine ⟨trivial, by intro _ _ hph; cases hph; nofun, ?_⟩
      exact plainConfig_keysFree rfl (by decide +kernel))
  have hbase : ∃ a ∈ [(⟨.snapshot, 1, none, "0/10", ["plain"]⟩ : Artifact),
      ⟨.diff, 1, some "0/10", "0/20", ["plain"]⟩], a.kind = .snapshot ∧
        (ofOrd String).Le a.toPosition "0/25" := by decide +kernel
  have hres := reconstruct_as_of_boundary diffsOnly (emptyAt "0/10") plainConfig_formatsApart
    plainReader plainReader_decodes h (n := "local") (mem_singleton.mpr rfl) "0/25"
  exact ⟨_, _, h, rfl, hbase, (hres.2 _ rfl).2 hbase⟩

end World

end Laredo.Snapshotter
