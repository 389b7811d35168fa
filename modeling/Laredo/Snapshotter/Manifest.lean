import Mathlib.Data.List.Induction
import Laredo.Lib.Links
import Laredo.Snapshotter.Buffer

/-!
# Manifest

The archive's index (`snapshotter/types.go`), the layout of its objects (`snapshotter/keys.go`) and
the plans of `snapshotter/reader.go`.
-/

namespace Laredo.Snapshotter

open List Option

inductive ArtifactKind
  | snapshot
  | diff
  deriving DecidableEq, Repr

structure Artifact where
  kind : ArtifactKind
  epoch : Nat
  fromPosition : Option String
  toPosition : String
  formats : List String
  deriving DecidableEq, Repr

structure Manifest where
  manifestVersion : Nat
  epoch : Nat
  headPosition : String
  artifacts : List Artifact
  deriving DecidableEq, Repr

def currentManifestVersion : Nat := 1

def Manifest.empty : Manifest := ⟨currentManifestVersion, 0, "", []⟩

def sanitizePosition (p : String) : String :=
  if p = "" then "0"
  else String.ofList (p.toList.map fun c => if c = '/' ∨ c = ':' ∨ c = ' ' then '_' else c)

def artifactObjectKey (keyPrefix : String) (art : Artifact) (ext : String) : String :=
  let upTo := sanitizePosition art.toPosition
  let name := match art.kind with
    | .snapshot => "snapshot-" ++ upTo
    | .diff =>
        let start := match art.fromPosition with
          | some p => sanitizePosition p
          | none => "start"
        "diff-" ++ start ++ "-" ++ upTo
  keyPrefix ++ "epoch=" ++ toString art.epoch ++ "/" ++ name ++ ext

def Manifest.latestSnapshot (m : Manifest) : Option Artifact :=
  m.artifacts.foldl (fun latest a =>
    if a.kind ≠ .snapshot then latest
    else match latest with
      | none => some a
      | some l => if l.epoch < a.epoch then some a else latest) none

def Manifest.prune (keepEpochs : Int) (m : Manifest) : Manifest :=
  if keepEpochs ≤ 0 then m
  else { m with artifacts := m.artifacts.filter fun a => m.epoch - keepEpochs + 1 ≤ a.epoch }

/-- `byFrom`: the diffs by their start; of several with the same start the last. -/
def byFrom (artifacts : List Artifact) : Std.ExtTreeMap String Artifact :=
  artifacts.foldl (fun m a =>
    match a.kind, a.fromPosition with
    | .diff, some p => m.insert p a
    | _, _ => m) ∅

lemma Manifest.prune_sublist (keepEpochs : Int) (m : Manifest) :
    (m.prune keepEpochs).artifacts.Sublist m.artifacts := by
  unfold Manifest.prune
  by_cases hkeep : keepEpochs ≤ 0
  · rw [if_pos hkeep]
  · rw [if_neg hkeep]
    exact filter_sublist

def Artifact.DiffFrom (a : Artifact) (p : String) : Prop :=
  a.kind = .diff ∧ a.fromPosition = some p

instance (a : Artifact) (p : String) : Decidable (a.DiffFrom p) :=
  inferInstanceAs (Decidable (_ ∧ _))

@[simp] lemma byFrom_nil : byFrom [] = ∅ := rfl

lemma getElem?_byFrom_snoc (artifacts : List Artifact) (a : Artifact) (p : String) :
    (byFrom (artifacts ++ [a]))[p]? = if a.DiffFrom p then some a else (byFrom artifacts)[p]? := by
  obtain ⟨kind, epoch, start, upTo, formats⟩ := a
  unfold byFrom Artifact.DiffFrom
  rw [foldl_append, foldl_cons, foldl_nil]
  cases kind with
  | snapshot => simp
  | diff =>
    cases start with
    | none => simp
    | some q => simp [Std.ExtTreeMap.getElem?_insert]

variable {artifacts : List Artifact} {p : String} {d : Artifact}

lemma getElem?_byFrom_eq_some :
    (byFrom artifacts)[p]? = some d ↔ ∃ l₁ l₂, artifacts = l₁ ++ d :: l₂ ∧ d.DiffFrom p ∧
      ∀ a ∈ l₂, ¬ a.DiffFrom p := by
  induction artifacts using List.reverseRecOn with
  | nil => simp
  | append_singleton artifacts a ih =>
    rw [getElem?_byFrom_snoc]
    by_cases ha : a.DiffFrom p
    · rw [if_pos ha, some.injEq]
      constructor
      · rintro rfl
        exact ⟨artifacts, [], rfl, ha, nofun⟩
      · rintro ⟨l₁, l₂, hspl, -, hlast⟩
        rcases eq_nil_or_concat l₂ with rfl | ⟨l, b, rfl⟩
        · exact (append_inj' hspl rfl).2 |> List.cons.inj |>.1
        · rw [concat_eq_append] at hspl hlast
          rw [← cons_append, ← append_assoc] at hspl
          obtain rfl := (List.cons.inj (append_inj' hspl rfl).2).1
          exact absurd ha (hlast a (by simp))
    · rw [if_neg ha, ih]
      constructor
      · rintro ⟨l₁, l₂, rfl, hd, hlast⟩
        refine ⟨l₁, l₂ ++ [a], by simp, hd, ?_⟩
        intro b hb
        rcases mem_append.mp hb with hb | hb
        · exact hlast b hb
        · rw [mem_singleton.mp hb]
          exact ha
      · rintro ⟨l₁, l₂, hspl, hd, hlast⟩
        rcases eq_nil_or_concat l₂ with rfl | ⟨l, b, rfl⟩
        · obtain rfl := (List.cons.inj (append_inj' hspl rfl).2).1
          exact absurd hd ha
        · rw [concat_eq_append] at hspl hlast
          rw [← cons_append, ← append_assoc] at hspl
          refine ⟨l₁, l, (append_inj' hspl rfl).1, hd, fun c hc => hlast c ?_⟩
          exact mem_append_left _ hc

lemma exists_byFrom (hd : d ∈ artifacts)
    (hfrom : d.DiffFrom p) : ∃ e, (byFrom artifacts)[p]? = some e := by
  induction artifacts using List.reverseRecOn with
  | nil => cases hd
  | append_singleton artifacts a ih =>
    rw [getElem?_byFrom_snoc]
    by_cases ha : a.DiffFrom p
    · exact ⟨a, if_pos ha⟩
    · rw [if_neg ha]
      refine ih ((mem_append.mp hd).resolve_right fun hlast => ?_)
      exact ha (mem_singleton.mp hlast ▸ hfrom)

structure ReplayPlan where
  snapshot : Option Artifact
  diffs : List Artifact
  headPosition : String
  deriving DecidableEq, Repr

/-- `contiguousDiffChain(diffs, startPos)`: the chain, where it leads to, and whether there
is one at all. -/
def contiguousDiffChain (fuel : Nat) (diffs : List Artifact) (startPos : String) :
    Option (List Artifact × String × Bool) :=
  (Links.follow (fun p => (byFrom diffs)[p]?) Artifact.toPosition (fun _ => true) fuel startPos).map
    fun chain => (chain, (chain.getLast?.map Artifact.toPosition).getD "", !chain.isEmpty)

def Manifest.diffs (m : Manifest) : List Artifact :=
  m.artifacts.filter fun a => a.kind = .diff ∧ a.fromPosition.isSome

def Manifest.plan (fuel : Nat) (m : Manifest) (fromPosition : String)
    (cmp : String → String → Int) : Option (Option ReplayPlan) :=
  if m.artifacts.isEmpty then some none
  else match contiguousDiffChain fuel m.diffs fromPosition with
    | none => none
    | some (chain, head, ok) =>
        if ok ∧ cmp head m.headPosition ≥ 0 then some (some ⟨none, chain, head⟩)
        else match m.latestSnapshot with
          | none => some none
          | some snap =>
              match contiguousDiffChain fuel m.diffs snap.toPosition with
              | none => none
              | some (chain, head, _) =>
                  some (some ⟨some snap, chain, if head = "" then snap.toPosition else head⟩)

/-- The base `PlanAsOf` starts from: the first of the snapshots at or before `position` that
are furthest. -/
def baseAsOf (artifacts : List Artifact) (position : String) (cmp : String → String → Int) :
    Option Artifact :=
  artifacts.foldl (fun base a =>
    if a.kind ≠ .snapshot then base
    else if cmp a.toPosition position ≤ 0 ∧
        base.all (fun b => cmp a.toPosition b.toPosition > 0) then some a
    else base) none

def Manifest.planAsOf (fuel : Nat) (m : Manifest) (position : String)
    (cmp : String → String → Int) : Option (Option ReplayPlan) :=
  if m.artifacts.isEmpty then some none
  else match baseAsOf m.artifacts position cmp with
    | none => some none
    | some base =>
        (Links.follow (fun p => (byFrom m.artifacts)[p]?) Artifact.toPosition
          (fun d => ¬ cmp d.toPosition position > 0) fuel base.toPosition).map fun chain =>
            some ⟨some base, chain, (chain.getLast?.map Artifact.toPosition).getD base.toPosition⟩

structure NoReturn (artifacts : List Artifact) : Prop where
  earlier : artifacts.Pairwise fun a d => d.kind = .diff → ¬ a.DiffFrom d.toPosition
  self : ∀ d ∈ artifacts, ¬ d.DiffFrom d.toPosition

lemma NoReturn.nil : NoReturn [] := ⟨List.Pairwise.nil, nofun⟩

lemma NoReturn.sublist {artifacts' : List Artifact} (h : NoReturn artifacts)
    (hsub : artifacts'.Sublist artifacts) : NoReturn artifacts' :=
  ⟨h.earlier.sublist hsub, fun d hd => h.self d (hsub.subset hd)⟩

lemma NoReturn.snoc (h : NoReturn artifacts)
    (hd : d.kind = .diff → ∀ a ∈ artifacts ++ [d], ¬ a.DiffFrom d.toPosition) :
    NoReturn (artifacts ++ [d]) := by
  refine ⟨pairwise_append.mpr ⟨h.earlier, pairwise_singleton _ _, ?_⟩, ?_⟩
  · intro a ha b hb
    obtain rfl := mem_singleton.mp hb
    exact fun hkind => hd hkind a (mem_append_left _ ha)
  · intro a ha
    rcases mem_append.mp ha with ha | ha
    · exact h.self a ha
    · obtain rfl := mem_singleton.mp ha
      exact fun hself => hd hself.1 a (by simp) hself

lemma NoReturn.follow_total (h : NoReturn artifacts) (keep : Artifact → Bool) (p : String) :
    (Links.follow (fun p => (byFrom artifacts)[p]?) Artifact.toPosition keep
      (artifacts.length + 1) p).isSome = true := by
  have hfnd : ∀ {p d}, (byFrom artifacts)[p]? = some d → d ∈ artifacts ∧ d.DiffFrom p := by
    intro p d hd
    obtain ⟨l₁, l₂, hspl, hfrom, -⟩ := getElem?_byFrom_eq_some.mp hd
    exact ⟨by simp [hspl], hfrom⟩
  refine Links.follow_total (fun d => artifacts.idxOf d) artifacts.length ?_ ?_ keep p
  · intro p d hd
    exact idxOf_lt_length_of_mem (hfnd hd).1
  · intro p d d' hd hd'
    obtain ⟨hmem, hfrom⟩ := hfnd hd
    obtain ⟨hmem', hfrom'⟩ := hfnd hd'
    have hlt := idxOf_lt_length_of_mem hmem
    have hlt' := idxOf_lt_length_of_mem hmem'
    by_contra hle
    rcases Nat.lt_or_eq_of_le (Nat.le_of_not_lt hle) with hbef | hsame
    · have hpair := pairwise_iff_getElem.mp h.earlier _ _ hlt' hlt hbef
      rw [getElem_idxOf, getElem_idxOf] at hpair
      exact hpair hfrom.1 hfrom'
    · obtain rfl : d' = d := by
        have hget := getElem_idxOf hlt'
        have hget' := getElem_idxOf hlt
        simp only [hsame] at hget
        exact hget.symm.trans hget'
      exact h.self d' hmem hfrom'

lemma NoReturn.contiguousDiffChain_total {diffs : List Artifact} (h : NoReturn diffs)
    {fuel : Nat} (hfuel : fuel = diffs.length + 1) (p : String) :
    (contiguousDiffChain fuel diffs p).isSome = true := by
  subst hfuel
  unfold contiguousDiffChain
  rw [isSome_map]
  exact h.follow_total _ p

variable {m : Manifest}

lemma NoReturn.plan_total (h : NoReturn m.artifacts) (p : String)
    (cmp : String → String → Int) : ∃ fuel, (m.plan fuel p cmp).isSome = true := by
  have hdiffs : NoReturn m.diffs := h.sublist filter_sublist
  refine ⟨m.diffs.length + 1, ?_⟩
  obtain ⟨⟨chain, head, ok⟩, hch⟩ :=
    isSome_iff_exists.mp (hdiffs.contiguousDiffChain_total rfl p)
  unfold Manifest.plan
  by_cases hemp : m.artifacts.isEmpty = true
  · rw [if_pos hemp]
    rfl
  · rw [if_neg hemp, hch]
    show Option.isSome (if _ then _ else _) = true
    by_cases hhead : ok = true ∧ cmp head m.headPosition ≥ 0
    · rw [if_pos hhead]
      rfl
    · rw [if_neg hhead]
      cases m.latestSnapshot with
      | none => rfl
      | some snap =>
        obtain ⟨⟨chain', head', ok'⟩, hch'⟩ := isSome_iff_exists.mp
          (hdiffs.contiguousDiffChain_total rfl snap.toPosition)
        simp only [hch', isSome_some]

lemma NoReturn.planAsOf_total (h : NoReturn m.artifacts) (p : String)
    (cmp : String → String → Int) : ∃ fuel, (m.planAsOf fuel p cmp).isSome = true := by
  refine ⟨m.artifacts.length + 1, ?_⟩
  unfold Manifest.planAsOf
  by_cases hemp : m.artifacts.isEmpty = true
  · rw [if_pos hemp]
    rfl
  · rw [if_neg hemp]
    cases baseAsOf m.artifacts p cmp with
    | none => rfl
    | some base =>
      rw [isSome_map]
      exact h.follow_total _ _

lemma Manifest.plan_of_loop
    (hne : m.artifacts.isEmpty = false) (hd : (byFrom m.diffs)[p]? = some d)
    (hback : d.toPosition = p) (fuel : Nat) (cmp : String → String → Int) :
    m.plan fuel p cmp = none := by
  have hloop : contiguousDiffChain fuel m.diffs p = none := by
    unfold contiguousDiffChain
    rw [Links.follow_loop hd hback rfl, map_none]
  unfold Manifest.plan
  rw [hne, hloop]
  rfl

lemma Manifest.planAsOf_of_loop {base : Artifact}
    {cmp : String → String → Int} (hne : m.artifacts.isEmpty = false)
    (hbase : baseAsOf m.artifacts p cmp = some base)
    (hd : (byFrom m.artifacts)[base.toPosition]? = some d) (hback : d.toPosition = base.toPosition)
    (hle : cmp d.toPosition p ≤ 0) (fuel : Nat) : m.planAsOf fuel p cmp = none := by
  unfold Manifest.planAsOf
  rw [hne, hbase]
  show Option.map _ _ = none
  rw [Links.follow_loop hd hback (by simpa using hle), map_none]

end Laredo.Snapshotter
