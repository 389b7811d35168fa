import Laredo.Snapshotter.PointInTime
import Laredo.Snapshotter.Recovery

/-!
# Replay

Replay plans (`Plan` of `snapshotter/reader.go`) bring any consumer to the head of the
archive, as long as no write fails.
-/

namespace Laredo.Snapshotter

open Artifact Comparator Links Reader Transition List Option

variable {B V : Type}

def Reader.applyPlan [GoValue V] (r : Reader B V) (d : Destination B) (keyFields : List String)
    (state : Store V) (plan : ReplayPlan) : Except ReadError (Store V) :=
  match plan.snapshot with
  | none => r.foldDiffs d state plan.diffs
  | some base =>
      match r.loadBase d keyFields (some base) with
      | .error e => .error e
      | .ok state => r.foldDiffs d state plan.diffs

lemma Manifest.getElem?_byFrom_diffs (m : Manifest) (p : String) :
    (byFrom m.diffs)[p]? = (byFrom m.artifacts)[p]? := by
  unfold Manifest.diffs
  generalize m.artifacts = artifacts
  induction artifacts using List.reverseRecOn with
  | nil => rfl
  | append_singleton artifacts a ih =>
    rw [filter_append, getElem?_byFrom_snoc]
    by_cases ha : a.kind = .diff ∧ a.fromPosition.isSome
    · rw [filter_cons_of_pos (by simpa using ha), filter_nil, getElem?_byFrom_snoc, ih]
    · have hnot : ¬ a.DiffFrom p := fun hfrom => ha ⟨hfrom.1, by simp [hfrom.2]⟩
      rw [filter_cons_of_neg (by simpa using ha), filter_nil, append_nil, if_neg hnot, ih]

def IsLatest (artifacts : List Artifact) : Option Artifact → Prop
  | none => ∀ a ∈ artifacts, a.kind ≠ .snapshot
  | some l => l ∈ artifacts ∧ l.kind = .snapshot ∧
      ∀ a ∈ artifacts, a.kind = .snapshot → a.epoch ≤ l.epoch

section

variable {artifacts : List Artifact} {latest : Option Artifact} {a : Artifact}

lemma IsLatest.keep (h : IsLatest artifacts latest)
    (ha : a.kind = .snapshot → ∃ l, latest = some l ∧ a.epoch ≤ l.epoch) :
    IsLatest (artifacts ++ [a]) latest := by
  cases latest with
  | none =>
    intro b hb hkind
    rcases mem_append.mp hb with hb | hb
    · exact h b hb hkind
    · obtain rfl := mem_singleton.mp hb
      obtain ⟨l, hl, -⟩ := ha hkind
      cases hl
  | some l =>
    refine ⟨mem_append_left _ h.1, h.2.1, fun b hb hkind => ?_⟩
    rcases mem_append.mp hb with hb | hb
    · exact h.2.2 b hb hkind
    · obtain rfl := mem_singleton.mp hb
      obtain ⟨l', hl, hle⟩ := ha hkind
      cases hl
      exact hle

lemma IsLatest.take (h : IsLatest artifacts latest) (hkind : a.kind = .snapshot)
    (ha : ∀ l, latest = some l → l.epoch < a.epoch) : IsLatest (artifacts ++ [a]) (some a) := by
  refine ⟨by simp, hkind, fun b hb hbkind => ?_⟩
  rcases mem_append.mp hb with hb | hb
  · cases latest with
    | none => exact absurd hbkind (h b hb)
    | some l =>
      have hle := h.2.2 b hb hbkind
      have hlt := ha l rfl
      omega
  · obtain rfl := mem_singleton.mp hb
    exact Nat.le_refl _

end

lemma Manifest.latestSnapshot_isLatest (m : Manifest) :
    IsLatest m.artifacts m.latestSnapshot := by
  unfold Manifest.latestSnapshot
  generalize m.artifacts = artifacts
  induction artifacts using List.reverseRecOn with
  | nil => nofun
  | append_singleton artifacts a ih =>
    rw [foldl_append, foldl_cons, foldl_nil]
    generalize artifacts.foldl _ none = latest at ih ⊢
    by_cases hkind : a.kind = .snapshot
    · rw [if_neg (not_not_intro hkind)]
      cases latest with
      | none => exact ih.take hkind nofun
      | some l =>
        by_cases hlt : l.epoch < a.epoch
        · simp only [hlt, if_true]
          exact ih.take hkind fun l' hl => some.inj hl ▸ hlt
        · simp only [hlt, if_false]
          exact ih.keep fun _ => ⟨l, rfl, Nat.le_of_not_lt hlt⟩
    · rw [if_pos hkind]
      exact ih.keep fun h => absurd h hkind

structure Headed (c : Comparator String) (m : Manifest) (snap : Artifact)
    (chain : List Artifact) : Prop where
  mem : snap ∈ m.artifacts
  kind : snap.kind = .snapshot
  epoch : snap.epoch = m.epoch
  only : ∀ a ∈ m.artifacts, a.kind = .snapshot → a = snap ∨ a.epoch < m.epoch
  path : Path (fun p => (byFrom m.artifacts)[p]?) toPosition snap.toPosition chain
    m.headPosition
  current : ∀ d ∈ chain, d.epoch = m.epoch
  last : ∀ a ∈ m.artifacts, c.Le a.toPosition m.headPosition

section

variable {c : Comparator String} {m : Manifest} {snap art : Artifact} {chain : List Artifact}

lemma Headed.latestSnapshot (h : Headed c m snap chain) : m.latestSnapshot = some snap := by
  have hspec := m.latestSnapshot_isLatest
  cases hlat : m.latestSnapshot with
  | none =>
    rw [hlat] at hspec
    exact absurd h.kind (hspec snap h.mem)
  | some l =>
    rw [hlat] at hspec
    obtain ⟨hmem, hkind, hmax⟩ := hspec
    rcases h.only l hmem hkind with rfl | hlt
    · rfl
    · have hle := hmax snap h.mem h.kind
      rw [h.epoch] at hle
      omega

lemma Headed.ends (h : Headed c m snap chain) (hseq : Sequential c m.artifacts) :
    (byFrom m.artifacts)[m.headPosition]? = none := by
  cases hnext : (byFrom m.artifacts)[m.headPosition]? with
  | none => rfl
  | some a =>
    obtain ⟨l₁, l₂, hspl, hfrom, -⟩ := getElem?_byFrom_eq_some.mp hnext
    have ha : a ∈ m.artifacts := by simp [hspl]
    obtain ⟨p, hp, hlt⟩ := hseq.forward a ha hfrom.1
    rw [← hp.origin_eq, hfrom.origin_eq] at hlt
    exact absurd (h.last a ha) hlt.not_le

lemma Headed.diff (h : Headed c m snap chain) (hseq : Sequential c m.artifacts)
    (hart : art.DiffFrom m.headPosition) (hep : art.epoch = m.epoch)
    (hlt : c.Lt m.headPosition art.toPosition) (keepEpochs : Int) :
    Headed c (m.add keepEpochs art) snap (chain ++ [art]) := by
  have haft : m.epochAfter art = m.epoch := by
    unfold Manifest.epochAfter
    rw [hart.1]
  obtain ⟨keep, hadd, hnew, -⟩ := Manifest.add_cases keepEpochs art m
  have hsame := hnew.trans haft
  refine ⟨Manifest.mem_add_of_epoch (by simp [h.mem]) (h.epoch.trans haft.symm), h.kind,
    h.epoch.trans hsame.symm, ?_, ?_, ?_, ?_⟩
  · intro a ha hkind
    rw [hsame]
    rcases Manifest.mem_add ha with ha | rfl
    · exact h.only a ha hkind
    · rw [hart.1] at hkind
      cases hkind
  · rw [Manifest.add_headPosition]
    -- the links of the chain are still there, as none starts at the head
    refine Path.append (h.path.mono fun k d hd hnext => ?_) ⟨?_, rfl⟩
    · refine Manifest.getElem?_byFrom_add ?_ ((h.current d hd).trans haft.symm)
      rw [getElem?_byFrom_snoc, if_neg]
      · exact hnext
      · intro hk
        obtain rfl : m.headPosition = k := some.inj (hart.2.symm.trans hk.2)
        rw [h.ends hseq] at hnext
        cases hnext
    · refine Manifest.getElem?_byFrom_add ?_ (hep.trans haft.symm)
      rw [getElem?_byFrom_snoc, if_pos hart]
  · intro d hd
    rw [hsame]
    rcases mem_append.mp hd with hd | hd
    · exact h.current d hd
    · rw [mem_singleton.mp hd]
      exact hep
  · intro a ha
    rw [Manifest.add_headPosition]
    rcases Manifest.mem_add ha with ha | rfl
    · exact (h.last a ha).trans hlt.le
    · exact Le.refl _ _

lemma Headed.snapshot (hkind : art.kind = .snapshot)
    (hnew : ∀ a ∈ m.artifacts, a.kind = .snapshot → a.epoch < art.epoch)
    (hlast : ∀ a ∈ m.artifacts, c.Le a.toPosition art.toPosition) (keepEpochs : Int) :
    Headed c (m.add keepEpochs art) art [] := by
  have haft : m.epochAfter art = art.epoch := by
    unfold Manifest.epochAfter
    rw [hkind]
  obtain ⟨keep, hadd, hep, -⟩ := Manifest.add_cases keepEpochs art m
  rw [haft] at hep
  refine ⟨Manifest.mem_add_of_epoch (by simp) haft.symm, hkind, hep.symm, ?_, ?_, nofun, ?_⟩
  · intro a ha hsnap
    rw [hep]
    rcases Manifest.mem_add ha with ha | rfl
    · exact .inr (hnew a ha hsnap)
    · exact .inl rfl
  · exact (Manifest.add_headPosition _ _ _).symm
  · intro a ha
    rw [Manifest.add_headPosition]
    rcases Manifest.mem_add ha with ha | rfl
    · exact hlast a ha
    · exact Le.refl _ _

variable {fuel : Nat} {p : String}

lemma contiguousDiffChain_inv {head : String} {chain : List Artifact} {ok : Bool}
    (h : contiguousDiffChain fuel m.diffs p = some (chain, head, ok)) :
    head = (chain.getLast?.map toPosition).getD "" ∧ ok = !chain.isEmpty ∧
      ∃ q, Path (fun p => (byFrom m.artifacts)[p]?) toPosition p chain q ∧
        (byFrom m.artifacts)[q]? = none := by
  obtain ⟨chain', hfol, heq⟩ := map_eq_some_iff.mp h
  cases heq
  obtain ⟨q, hpath, -, hend⟩ := follow_spec hfol
  refine ⟨rfl, rfl, q, ?_, ?_⟩
  · refine hpath.mono fun k a _ hnext => ?_
    rwa [← Manifest.getElem?_byFrom_diffs]
  · rw [← Manifest.getElem?_byFrom_diffs]
    cases hnext : (byFrom m.diffs)[q]? with
    | none => rfl
    | some a => exact nomatch hend a hnext

lemma contiguousDiffChain_spec (hseq : Sequential c m.artifacts) (p : String) :
    ∃ chain q, contiguousDiffChain (m.diffs.length + 1) m.diffs p =
        some (chain, (chain.getLast?.map toPosition).getD "", !chain.isEmpty) ∧
      Path (fun p => (byFrom m.artifacts)[p]?) toPosition p chain q ∧
      (byFrom m.artifacts)[q]? = none := by
  have hdiffs : NoReturn m.diffs := hseq.noReturn.sublist filter_sublist
  obtain ⟨chain, hfol⟩ := isSome_iff_exists.mp (hdiffs.follow_total (fun _ => true) p)
  have hch : contiguousDiffChain (m.diffs.length + 1) m.diffs p =
      some (chain, (chain.getLast?.map toPosition).getD "", !chain.isEmpty) := by
    unfold contiguousDiffChain
    rw [hfol, map_some]
  obtain ⟨-, -, q, hpath, hend⟩ := contiguousDiffChain_inv hch
  exact ⟨chain, q, hch, hpath, hend⟩

variable {q : String}

lemma byFrom_path_end {artifacts l : List Artifact} (hne : l ≠ [])
    (hpath : Path (fun p => (byFrom artifacts)[p]?) toPosition p l q) :
    (l.getLast?.map toPosition).getD "" = q ∧
      ∃ a ∈ artifacts, a.kind = .diff ∧ a.toPosition = q := by
  have htgt := hpath.getLast_target
  rw [getLast?_eq_some_getLast hne, map_some, getD_some] at htgt ⊢
  obtain ⟨k, hnext⟩ := hpath.exists_next (getLast_mem hne)
  obtain ⟨l₁, l₂, hspl, hfrom, -⟩ := getElem?_byFrom_eq_some.mp hnext
  exact ⟨htgt, l.getLast hne, by simp [hspl], hfrom.1, htgt⟩

def chainHead (chain : List Artifact) : String := (chain.getLast?.map toPosition).getD ""

variable {cmp : String → String → Int}

lemma Manifest.plan_cases {plan : ReplayPlan} (h : m.plan fuel p cmp = some (some plan)) :
    m.artifacts.isEmpty = false ∧ ∃ start, contiguousDiffChain fuel m.diffs start =
          some (plan.diffs, chainHead plan.diffs, !plan.diffs.isEmpty) ∧
        (plan.snapshot = none ∧ plan.diffs ≠ [] ∧ start = p ∧
            plan.headPosition = chainHead plan.diffs ∧
            cmp (chainHead plan.diffs) m.headPosition ≥ 0 ∨
          ∃ snap, m.latestSnapshot = some snap ∧ plan.snapshot = some snap ∧
            start = snap.toPosition ∧ plan.headPosition =
              if chainHead plan.diffs = "" then snap.toPosition else chainHead plan.diffs) := by
  unfold Manifest.plan at h
  cases hemp : m.artifacts.isEmpty with
  | true => simp [hemp] at h
  | false =>
    rcases hch : contiguousDiffChain fuel m.diffs p with _ | ⟨chain, head, ok⟩
    · simp [hemp, hch] at h
    obtain ⟨rfl, rfl, -⟩ := contiguousDiffChain_inv hch
    simp only [hemp, Bool.false_eq_true, if_false, hch] at h
    refine ⟨rfl, ?_⟩
    split_ifs at h with htake
    · cases some.inj h
      exact ⟨p, hch, .inl ⟨rfl, by simpa using htake.1, rfl, rfl, htake.2⟩⟩
    · cases hlat : m.latestSnapshot with
      | none => simp [hlat] at h
      | some snap =>
        rcases hch' : contiguousDiffChain fuel m.diffs snap.toPosition with
          _ | ⟨chain', head', ok'⟩
        · simp [hlat, hch'] at h
        obtain ⟨rfl, rfl, -⟩ := contiguousDiffChain_inv hch'
        simp only [hlat, hch'] at h
        cases some.inj h
        exact ⟨_, hch', .inr ⟨snap, rfl, rfl, rfl, rfl⟩⟩

lemma chainHead_eq {chain : List Artifact} {start : String}
    (hpath : Path (fun p => (byFrom m.artifacts)[p]?) toPosition start chain q)
    (hne : ∀ a ∈ m.artifacts, a.kind = .diff → a.toPosition ≠ "") :
    (chain ≠ [] → chainHead chain = q) ∧
      (if chainHead chain = "" then start else chainHead chain) = q := by
  cases chain with
  | nil => exact ⟨fun h => absurd rfl h, hpath⟩
  | cons d rest =>
    obtain ⟨hlast, a, ha, hkind, hto⟩ := byFrom_path_end (cons_ne_nil d rest) hpath
    have hhead : chainHead (d :: rest) = q := hlast
    rw [hhead, if_neg (hto ▸ hne a ha hkind)]
    exact ⟨fun _ => rfl, rfl⟩

lemma Manifest.plan_inv {plan : ReplayPlan} (h : m.plan fuel p cmp = some (some plan))
    (hne : ∀ a ∈ m.artifacts, a.kind = .diff → a.toPosition ≠ "") :
    ∃ start, Path (fun p => (byFrom m.artifacts)[p]?) toPosition start plan.diffs
        plan.headPosition ∧
      (plan.snapshot = none ∧ start = p ∨
        ∃ snap, m.latestSnapshot = some snap ∧ plan.snapshot = some snap ∧
          start = snap.toPosition) := by
  obtain ⟨-, start, hch, hshape⟩ := Manifest.plan_cases h
  obtain ⟨-, -, q, hpath, -⟩ := contiguousDiffChain_inv hch
  obtain ⟨hhead, hhead'⟩ := chainHead_eq hpath hne
  rcases hshape with ⟨hnone, hnonempty, rfl, hplan, -⟩ | ⟨snap, hlat, hsnap, rfl, hplan⟩
  · rw [hhead hnonempty] at hplan
    exact ⟨start, hplan ▸ hpath, .inl ⟨hnone, rfl⟩⟩
  · rw [hhead'] at hplan
    exact ⟨_, hplan ▸ hpath, .inr ⟨snap, hlat, hsnap, rfl⟩⟩

lemma Manifest.plan_head_listed {plan : ReplayPlan} (h : m.plan fuel p cmp = some (some plan))
    (hne : ∀ a ∈ m.artifacts, a.kind = .diff → a.toPosition ≠ "") :
    ∃ a ∈ m.artifacts, a.toPosition = plan.headPosition := by
  obtain ⟨-, start, hch, hshape⟩ := Manifest.plan_cases h
  obtain ⟨-, -, q, hpath, -⟩ := contiguousDiffChain_inv hch
  obtain ⟨hhead, hhead'⟩ := chainHead_eq hpath hne
  by_cases hdiffs : plan.diffs = []
  · rcases hshape with ⟨-, hnone, -⟩ | ⟨snap, hlat, -, rfl, hplan⟩
    · exact absurd hdiffs hnone
    · have hspec := m.latestSnapshot_isLatest
      rw [hlat] at hspec
      rw [hdiffs] at hpath
      exact ⟨snap, hspec.1, by rw [hplan, hhead']; exact hpath⟩
  · obtain ⟨-, a, ha, -, hto⟩ := byFrom_path_end hdiffs hpath
    refine ⟨a, ha, hto.trans ?_⟩
    rcases hshape with ⟨-, -, rfl, hplan, -⟩ | ⟨snap, -, -, rfl, hplan⟩
    · rw [hplan, hhead hdiffs]
    · rw [hplan, hhead']

lemma Manifest.plan_resume {start : String}
    {plan : ReplayPlan} (h : m.plan fuel p cmp = some (some plan))
    (hne : ∀ a ∈ m.artifacts, a.kind = .diff → a.toPosition ≠ "") {done rest : List Artifact}
    (hspl : plan.diffs = done ++ rest) (hrest : rest ≠ [])
    (hdone : Path (fun p => (byFrom m.artifacts)[p]?) toPosition start done q)
    (hst0 : plan.snapshot = none ∧ start = p ∨
      ∃ snap, plan.snapshot = some snap ∧ start = snap.toPosition) :
    m.plan fuel q cmp = some (some plan) ∨
      m.plan fuel q cmp = some (some ⟨none, rest, plan.headPosition⟩) := by
  obtain ⟨hemp, start', hch, hshape⟩ := Manifest.plan_cases h
  obtain ⟨-, -, q', hpath, -⟩ := contiguousDiffChain_inv hch
  obtain ⟨hhead, hhead'⟩ := chainHead_eq hpath hne
  obtain rfl : start = start' := by
    rcases hst0 with ⟨hnone, rfl⟩ | ⟨snap, hsnap, rfl⟩ <;>
      rcases hshape with ⟨hnone', -, rfl, -⟩ | ⟨snap', -, hsnap', rfl, -⟩
    · rfl
    · rw [hnone] at hsnap'
      cases hsnap'
    · rw [hnone'] at hsnap
      cases hsnap
    · rw [hsnap] at hsnap'
      rw [some.inj hsnap']
  have hplanHead : plan.headPosition = chainHead plan.diffs := by
    have hnonempty : plan.diffs ≠ [] := by simp [hspl, hrest]
    rcases hshape with ⟨-, -, -, hplan, -⟩ | ⟨snap, -, -, rfl, hplan⟩
    · exact hplan
    · rw [hplan, hhead', hhead hnonempty]
  have hlast : chainHead rest = chainHead plan.diffs := by
    unfold chainHead
    rw [hspl, getLast?_append_of_ne_nil _ hrest]
  -- the walk from `q` is the rest of the walk of the plan
  have hrestC : contiguousDiffChain fuel m.diffs q =
      some (rest, chainHead rest, !rest.isEmpty) := by
    unfold contiguousDiffChain at hch ⊢
    obtain ⟨chain, hfol, heq⟩ := map_eq_some_iff.mp hch
    obtain rfl : chain = plan.diffs := congrArg Prod.fst heq
    rw [hspl] at hfol
    have hdone' : Path (fun p => (byFrom m.diffs)[p]?) toPosition start done q :=
      hdone.mono fun k a _ hnext => by rwa [Manifest.getElem?_byFrom_diffs]
    rw [follow_suffix hfol hdone', map_some]
    rfl
  unfold Manifest.plan
  simp only [hemp, Bool.false_eq_true, if_false, hrestC]
  by_cases hge : cmp (chainHead rest) m.headPosition ≥ 0
  · refine .inr ?_
    rw [if_pos ⟨by simpa using hrest, hge⟩, hlast, hplanHead]
  · refine .inl ?_
    rw [if_neg fun hand => hge hand.2]
    rw [hlast] at hge
    rcases hshape with ⟨-, -, -, -, hge'⟩ | ⟨snap, hlat, hsnap, rfl, hplan⟩
    · exact absurd hge' hge
    · rw [hlat]
      simp only [hch]
      rw [← hsnap, ← hplan]

lemma Headed.exists_artifact (h : Headed c m snap chain) :
    ∃ a ∈ m.artifacts, a.toPosition = m.headPosition := by
  have hpath := h.path
  cases chain with
  | nil => exact ⟨snap, h.mem, hpath⟩
  | cons d rest =>
    obtain ⟨-, a, ha, -, hto⟩ := byFrom_path_end (cons_ne_nil d rest) hpath
    exact ⟨a, ha, hto⟩

lemma Headed.plan (h : Headed c m snap chain) (hseq : Sequential c m.artifacts)
    (hdst : ∀ a ∈ m.artifacts, c.Le m.headPosition a.toPosition → a.toPosition = m.headPosition)
    (hne : ∀ a ∈ m.artifacts, a.kind = .diff → a.toPosition ≠ "") (p : String) :
    ∃ fuel plan, m.plan fuel p c.cmp = some (some plan) ∧ plan.headPosition = m.headPosition ∧
      ∃ q, Path (fun p => (byFrom m.artifacts)[p]?) toPosition q plan.diffs
          m.headPosition ∧
        (plan.snapshot = none ∧ q = p ∨ plan.snapshot = some snap ∧ q = snap.toPosition) := by
  have hemp : m.artifacts.isEmpty = false := isEmpty_eq_false_iff_exists_mem.mpr ⟨snap, h.mem⟩
  obtain ⟨chain₁, q₁, hchain₁, hpath₁, -⟩ := contiguousDiffChain_spec hseq p
  obtain ⟨chain₂, q₂, hchain₂, hpath₂, hend₂⟩ := contiguousDiffChain_spec hseq snap.toPosition
  obtain ⟨rfl, rfl⟩ := hpath₂.unique_of_end h.path hend₂ (h.ends hseq)
  refine ⟨m.diffs.length + 1, ?_⟩
  unfold Manifest.plan
  simp only [hemp, Bool.false_eq_true, if_false, hchain₁]
  by_cases htake : (!chain₁.isEmpty) = true ∧
      c.cmp ((chain₁.getLast?.map toPosition).getD "") m.headPosition ≥ 0
  · rw [if_pos htake]
    have hnone : chain₁ ≠ [] := by simpa using htake.1
    obtain ⟨hhead, a, ha, -, rfl⟩ := byFrom_path_end hnone hpath₁
    rw [hhead] at htake ⊢
    have hle := Comparator.not_lt.mp (Int.not_lt.mpr htake.2)
    have hsame := hdst a ha hle
    exact ⟨_, rfl, hsame, p, hsame ▸ hpath₁, .inl ⟨rfl, rfl⟩⟩
  · rw [if_neg htake, h.latestSnapshot]
    simp only [hchain₂]
    refine ⟨_, rfl, ?_, _, h.path, .inr ⟨rfl, rfl⟩⟩
    cases hnil : chain₂ with
    | nil =>
      have hpath := h.path
      rw [hnil] at hpath
      exact hpath
    | cons d rest =>
      rw [← hnil]
      obtain ⟨hhead, a, ha, hkind, hto⟩ := byFrom_path_end (by rw [hnil]; nofun) h.path
      rw [hhead, if_neg (hto ▸ hne a ha hkind)]

end

structure AllHeaded (c : Comparator String) (held : Manifest) (st : Destinations B) : Prop where
  held : held.artifacts = [] ∨ ∃ snap chain, Headed c held snap chain
  stored : ∀ n m, (st n).manifest = some m → ∃ snap chain, Headed c m snap chain

def Phase.rebasesTo : Phase V → Option Nat
  | .rebasing _ epoch | .captured _ epoch _ _ => some epoch
  | _ => none

namespace World

variable [GoValue V]

/-- The runs considered here: nothing fails, and no change has the empty position, which
`Plan` takes for "no diff". -/
def Plannable (cfg : Config B V) (o : Origin V cfg.keyFields) (s : World B V) (a : Label V) :
    Prop :=
  s.Orderly cfg o a ∧ ∀ pos e, a = .publish pos e → pos ≠ ""

/-- Every manifest has a head that its latest snapshot leads to, and the writer goes on from
there. -/
structure Replayable (cfg : Config B V) (o : Origin V cfg.keyFields) (s : World B V) : Prop
    extends s.Chronicle cfg o where
  headed : AllHeaded o.order s.writer.manifest s.destinations
  epoch : s.writer.manifest.epoch = s.writer.epoch
  next : ∀ epoch, s.phase.rebasesTo = some epoch → epoch = s.writer.epoch + 1
  head : s.phase.collects = true →
    s.writer.manifest.artifacts ≠ [] ∧ s.writer.manifest.headPosition = s.writer.fromPos
  published : s.archive ≠ [] → ∀ n ∈ cfg.destinations, ∃ m, (s.destinations n).manifest = some m
  named : ∀ x ∈ s.log, o.order.Lt o.position x.1 ∧ x.1 ≠ ""

variable {cfg : Config B V} {o : Origin V cfg.keyFields} {s s' : World B V} {a : Label V}

lemma Replayable.init : Replayable cfg o (World.init o.table o.position) :=
  ⟨Chronicle.init, ⟨.inl rfl, nofun⟩, rfl, nofun, nofun, fun hne => absurd rfl hne, nofun⟩

lemma Replayable.add (h : s.Replayable cfg o) {art : Artifact} (hwriting : s.Writing cfg art) :
    ∃ snap chain, Headed o.order (s.writer.manifest.add cfg.keepEpochs art) snap chain := by
  rcases hwriting with ⟨d, upTo, hph, rfl⟩ | ⟨initial, epoch, rows, pos, hph, rfl⟩
  · have hdrn : s.phase.drained = some d := by rw [hph]; rfl
    obtain ⟨hst0, hep, -, -⟩ := h.drained d hdrn
    obtain ⟨hne, hhead⟩ := h.head (by rw [hph]; rfl)
    obtain ⟨snap, chain, hhd⟩ := h.headed.held.resolve_left hne
    obtain ⟨p, hp, -, hlt⟩ := (h.intends_diff hph h.clean).start rfl
    obtain rfl : d.start = p := some.inj hp
    have hfrom := hst0.trans hhead.symm
    exact ⟨snap, _, hhd.diff h.held ⟨rfl, congrArg some hfrom⟩ (hep.trans h.epoch.symm)
      (hfrom ▸ hlt) cfg.keepEpochs⟩
  · obtain rfl : pos = s.position := h.stamp pos (by rw [hph]; rfl)
    obtain rfl : epoch = s.writer.epoch + 1 := h.next epoch (by rw [hph]; rfl)
    refine ⟨_, _, Headed.snapshot rfl ?_ (fun a ha => h.toFaithful.listed_le ha) cfg.keepEpochs⟩
    intro a ha hkind
    show a.epoch < s.writer.epoch + 1
    rcases h.headed.held with hnil | ⟨snap, chain, hhd⟩
    · rw [hnil] at ha
      cases ha
    · have hep := h.epoch
      rcases hhd.only a ha hkind with rfl | hlt
      · have hsnap := hhd.epoch
        omega
      · omega

lemma Replayable.add_ne_nil (h : s.Replayable cfg o) {art : Artifact}
    (hwriting : s.Writing cfg art) : (s.writer.manifest.add cfg.keepEpochs art).artifacts ≠ [] := by
  obtain ⟨snap, chain, hadd⟩ := h.add hwriting
  exact ne_nil_of_mem hadd.mem

lemma Replayable.step (h : s.Replayable cfg o) (hap : cfg.FormatsApart)
    (hok : s.Plannable cfg o a) (hs : Step cfg s a s') : s'.Replayable cfg o := by
  obtain ⟨horderly, hnamed⟩ := hok
  have hnext := h.toChronicle.step hap horderly hs
  have hhd : AllHeaded o.order s'.writer.manifest s'.destinations := by
    obtain ⟨hhl, hstd⟩ := hs.manifests_all
      (P := fun m => m.artifacts = [] ∨ ∃ snap chain, Headed o.order m snap chain) (.inl rfl)
      (fun _ => .inr) h.headed.held h.headed.stored fun _ => h.add
    exact ⟨hhl, hstd⟩
  have hpub : s.archive ≠ [] → ∀ n ∈ cfg.destinations,
      ∃ m, (s'.destinations n).manifest = some m := fun hne n hn =>
    hs.stays_stored (h.published hne n hn)
  cases hs with
  | @publish pos e _ =>
    refine ⟨hnext, hhd, h.epoch, h.next, h.head, hpub, ?_⟩
    intro x hx
    rcases mem_append.mp hx with hx | hx
    · exact h.named x hx
    · obtain rfl := mem_singleton.mp hx
      have hlt := horderly.1.1
      exact ⟨(h.bounded _ (.inl rfl)).trans_lt hlt, hnamed pos e rfl⟩
  | deliver _ => exact ⟨hnext, hhd, h.epoch, h.next, h.head, hpub, h.named⟩
  | rebaseline _ => exact horderly.1.elim
  | drain hph _ _ | stamp hph =>
    exact ⟨hnext, hhd, h.epoch, nofun, fun _ => h.head (by rw [hph]; rfl), hpub, h.named⟩
  | @write d upTo fault hph =>
    have hnot := horderly.2.1 d upTo hph
    rcases s.writer.finishFlush_spec cfg d upTo s.table.size fault s.destinations with
      hreb | ⟨st, w, ok, ⟨hatt, -⟩, hdone⟩
    · rw [hreb] at hnext hhd hpub ⊢
      refine ⟨hnext, hhd, h.epoch, ?_, nofun, hpub, h.named⟩
      intro epoch hep
      exact (some.inj hep).symm
    · rw [hdone] at hnot hnext hhd hpub ⊢
      cases ok with
      | false => exact absurd rfl hnot
      | true =>
        cases hatt with
        | put hw hc hp hok =>
          obtain ⟨keep, -, hep, -⟩ := Manifest.add_cases cfg.keepEpochs
            (diffArtifact cfg d.epoch d.start upTo) s.writer.manifest
          exact ⟨hnext, hhd, hep.trans h.epoch, nofun,
            fun _ => ⟨h.add_ne_nil (.inl ⟨d, upTo, hph, rfl⟩),
              Manifest.add_headPosition _ _ _⟩, fun _ n hn => ⟨_, hok rfl n hn⟩, h.named⟩
  | force _ =>
    refine ⟨hnext, hhd, h.epoch, ?_, nofun, hpub, h.named⟩
    intro epoch hep
    exact (some.inj hep).symm
  | @capture initial epoch rows hph _ =>
    refine ⟨hnext, hhd, h.epoch, ?_, nofun, hpub, h.named⟩
    intro epoch' hep
    refine h.next epoch' ?_
    rw [hph]
    exact hep
  | @commit initial epoch rows pos fault now hph =>
    have hsucc := horderly.2.1 initial epoch rows pos hph
    obtain ⟨st, w, ok, bytes, ⟨hatt, -⟩, hres⟩ :=
      s.writer.finishSnapshot_spec cfg epoch rows pos now fault s.destinations
    rw [hres] at hsucc hnext hhd ⊢
    obtain rfl : ok = true := hsucc
    cases hatt with
    | put hw hc hp hok =>
      obtain ⟨keep, -, hep, -⟩ := Manifest.add_cases cfg.keepEpochs
        (snapshotArtifact cfg epoch pos) s.writer.manifest
      exact ⟨hnext, hhd, hep, nofun,
        fun _ => ⟨h.add_ne_nil (.inr ⟨initial, epoch, rows, pos, hph, rfl⟩),
          Manifest.add_headPosition _ _ _⟩, fun _ n hn => ⟨_, hok rfl n hn⟩, h.named⟩
  | crash | dieFlushing _ | dieSnapshotting _ =>
    exact ⟨hnext, hhd, h.epoch, nofun, nofun, hpub, h.named⟩
  | start hph =>
    refine ⟨hnext, hhd, ?_, ?_, nofun, hpub, h.named⟩
    · show (Writer.new.loadManifest cfg s.destinations : Writer V).manifest.epoch =
        (Writer.new.loadManifest cfg s.destinations : Writer V).epoch
      unfold Writer.loadManifest
      split <;> rfl
    · intro epoch hep
      exact (some.inj hep).symm

lemma Replayable.diff_ne_empty (h : s.Replayable cfg o) {n : String} (hn : n ∈ cfg.destinations)
    {m : Manifest} (hm : (s.destinations n).manifest = some m) {d : Artifact}
    (hd : d ∈ m.artifacts) (hkind : d.kind = .diff) : d.toPosition ≠ "" := by
  have hgenuine := h.truthful.stored n hn m hm d hd
  rcases hgenuine.known with horigin | ⟨x, hx, hto⟩
  · obtain ⟨p, -, hp, hlt⟩ := hgenuine.start hkind
    rw [horigin] at hlt
    rcases hp with rfl | ⟨y, hy, rfl⟩
    · exact absurd hlt Lt.irrefl
    · exact absurd (hlt.trans (h.named y hy).1) Lt.irrefl
  · rw [← hto]
    exact (h.named x hx).2

/-- **Replay plans bring any consumer to the head**, in every run whose steps are all `Plannable`:
for every position `p`, `Plan` gives a plan that leads from the table at `p` to the table at the
head. -/
theorem plan_reaches_head (cfg : Config B V) (o : Origin V cfg.keyFields)
    (hapart : cfg.FormatsApart) (r : Reader B V) (hr : r.Decodes cfg)
    (hreach : Reach (Step cfg) (Plannable cfg o) (World.init o.table o.position) s)
    {n : String} (hn : n ∈ cfg.destinations) :
    (s.archive ≠ [] → ∃ m, loadManifest (s.destinations n) = .ok m) ∧
    ∀ m, loadManifest (s.destinations n) = .ok m → ∀ p, ∃ fuel plan,
      m.plan fuel p o.order.cmp = some (some plan) ∧ plan.headPosition = m.headPosition ∧
      r.applyPlan (s.destinations n) cfg.keyFields (s.tableAt o p) plan =
        .ok (s.tableAt o m.headPosition) := by
  have hinv : s.Replayable cfg o := by
    refine hreach.invariant (Replayable cfg o) Replayable.init ?_
    intro s₁ s₂ a h hok hs
    exact h.step hapart hok hs
  constructor
  · intro hne
    obtain ⟨m, hm⟩ := hinv.published hne n hn
    exact ⟨m, loadManifest_eq hm (hinv.truthful.version n hn m hm)⟩
  · intro m hload p
    have hm := manifest_of_loadManifest hload
    obtain ⟨snap, chain, hhd⟩ := hinv.headed.stored n m hm
    have hknown : ∀ a ∈ m.artifacts, s.Known o a.toPosition := fun a ha =>
      (hinv.truthful.stored n hn m hm a ha).known
    have hsound : ∀ a ∈ m.artifacts, a.Sound cfg (s.tableAt o) (s.destinations n) := fun a ha =>
      (hinv.truthful.stored n hn m hm a ha).sound n hn
    have hhead : s.Known o m.headPosition := by
      obtain ⟨a, ha, hto⟩ := hhd.exists_artifact
      exact hto ▸ hknown a ha
    obtain ⟨fuel, plan, hplan, hto, q, hpath, hshape⟩ := hhd.plan (hinv.stored n m hm)
      (fun a ha hle => hinv.distinct _ _ (hknown a ha) hhead (hhd.last a ha) hle)
      (fun a ha hkind => hinv.diff_ne_empty hn hm ha hkind) p
    refine ⟨fuel, plan, hplan, hto, ?_⟩
    unfold applyPlan
    rcases hshape with ⟨hnone, rfl⟩ | ⟨hsome, rfl⟩
    · rw [hnone]
      exact foldDiffs_of_path hr hpath hsound
    · rw [hsome]
      have hbase := loadBase_eq hr (hsound snap hhd.mem) hhd.kind
        (keyed_tableAt (s := s) (o := o) _)
      simp only [hbase]
      exact foldDiffs_of_path hr hpath hsound

/-- Like `Orderly`, but several changes may have the same position, as long as every diff
ends past its start. -/
def Advancing (cfg : Config B V) (o : Origin V cfg.keyFields) (s : World B V) : Label V → Prop
  | .publish pos e => o.order.Le s.position pos ∧ pos ≠ "" ∧ e.isTruncate = false ∧
      e.KeepsKey cfg.keyFields ∧ (s.phase = .idle ∨ s.phase = .down)
  | .write fault => (∀ d upTo, s.phase = .stamped d upTo → o.order.Lt d.start upTo) ∧
      s.Succeeds cfg (.write fault) ∧ s.KeysFree cfg (.write fault)
  | a => s.Orderly cfg o a

/-- Row 1 is inserted at 0/20 and flushed; row 2 is inserted at 0/20 as well, and a snapshot taken.
-/
theorem shared_position_loses_change :
    ∃ (s : World (Payload Text) Text) (m : Manifest) (plan : ReplayPlan),
      Reach (Step diffsOnly) (Advancing diffsOnly (emptyAt "0/10"))
        (World.init ∅ "0/10") s ∧
      loadManifest (s.destinations "local") = .ok m ∧
      (∀ a ∈ m.artifacts, ∀ p ∈ a.fromPosition, (ofOrd String).Lt p a.toPosition) ∧
      m.plan 4 "0/10" (ofOrd String).cmp = some (some plan) ∧
      (plainReader.applyPlan (s.destinations "local") ["id"] (s.tableAt (emptyAt "0/10") "0/10")
        plan).map (fun rows => rows.toList.map Prod.snd) = .ok [rowWithId "1"] ∧
      (s.tableAt (emptyAt "0/10") m.headPosition).toList.map Prod.snd =
        [rowWithId "1", rowWithId "2"] := by
  have h : Reach (Step diffsOnly) (Advancing diffsOnly (emptyAt "0/10"))
      (World.init ∅ "0/10") _ := .refl _
  have h := h
    |>.snoc (.start rfl)
    |>.snoc (.capture rfl (.refl _))
    |>.snoc (a := .commit none 0) (.commit rfl) (by
      refine ⟨trivial, by intro _ _ _ _ hph; cases hph; rfl, ?_⟩
      exact plainConfig_keysFree rfl (by decide +kernel))
    |>.snoc (a := .publish "0/20" insertOne) (.publish rfl)
    |>.snoc (.deliver rfl)
    |>.snoc (a := .drain _ 0) (.drain rfl buffer_insertOne_ne (.refl _))
    |>.snoc (.stamp rfl)
    |>.snoc (a := .write none) (.write rfl) (by
      refine ⟨?_, by intro _ _ hph; cases hph; nofun, ?_⟩
      · intro d upTo hph
        cases hph
        decide +kernel
      · exact plainConfig_keysFree rfl (by decide +kernel))
    |>.snoc (a := .publish "0/20" insertTwo) (.publish rfl)
    |>.snoc (.deliver rfl)
    |>.snoc (.force rfl)
    |>.snoc (.capture rfl (.refl _))
    |>.snoc (a := .commit none 0) (.commit rfl) (by
      refine ⟨trivial, by intro _ _ _ _ hph; cases hph; rfl, ?_⟩
      exact plainConfig_keysFree rfl (by decide +kernel))
  have hfwd : ∀ a ∈ [(⟨.snapshot, 1, none, "0/10", ["plain"]⟩ : Artifact),
      ⟨.diff, 1, some "0/10", "0/20", ["plain"]⟩, ⟨.snapshot, 2, none, "0/20", ["plain"]⟩],
      ∀ p ∈ a.fromPosition, (ofOrd String).Lt p a.toPosition := by decide +kernel
  exact ⟨_, _, _, h, rfl, hfwd, rfl, rfl, rfl⟩

theorem plan_reaches_diff : ∃ (s : World (Payload Text) Text) (m : Manifest),
      Reach (Step diffsOnly) (Plannable diffsOnly (emptyAt "0/10"))
        (World.init ∅ "0/10") s ∧
      loadManifest (s.destinations "local") = .ok m ∧ m.headPosition = "0/20" ∧
      ∀ p, ∃ fuel plan, m.plan fuel p (ofOrd String).cmp = some (some plan) ∧
        plan.headPosition = m.headPosition ∧
        plainReader.applyPlan (s.destinations "local") ["id"] (s.tableAt (emptyAt "0/10") p) plan =
          .ok (s.tableAt (emptyAt "0/10") m.headPosition) := by
  have h : Reach (Step diffsOnly) (Plannable diffsOnly (emptyAt "0/10"))
      (World.init ∅ "0/10") _ := .refl _
  have h := h
    |>.snoc (.start rfl)
    |>.snoc (.capture rfl (.refl _))
    |>.snoc (a := .commit none 0) (.commit rfl) (by
      refine ⟨⟨trivial, by intro _ _ _ _ hph; cases hph; rfl, ?_⟩, nofun⟩
      exact plainConfig_keysFree rfl (by decide +kernel))
    |>.snoc (a := .publish "0/20" insertOne) (.publish rfl)
    |>.snoc (.deliver rfl)
    |>.snoc (a := .drain _ 0) (.drain rfl buffer_insertOne_ne (.refl _))
    |>.snoc (.stamp rfl)
    |>.snoc (a := .write none) (.write rfl) (by
      refine ⟨⟨trivial, by intro _ _ hph; cases hph; nofun, ?_⟩, nofun⟩
      exact plainConfig_keysFree rfl (by decide +kernel))
  have hres := plan_reaches_head diffsOnly (emptyAt "0/10") plainConfig_formatsApart
    plainReader plainReader_decodes h (n := "local") (mem_singleton.mpr rfl)
  exact ⟨_, _, h, rfl, rfl, hres.2 _ rfl⟩

end World

end Laredo.Snapshotter
