import Laredo.Lib.Transition
import Laredo.Snapshotter.Writer

/-!
# Contention

Several writers that share one destination (`loadManifest` and `commit` of
`snapshotter/writer_manifest.go`, `PutCAS` of `snapshotter/destination.go`).
-/

namespace Laredo.Snapshotter.Contention

open List Function

variable {R ι : Type}

/-- The manifest object at a destination. -/
structure Register (R : Type) where
  manifest : Option Manifest
  rev : R

/-- A writer: its manifest and the revision it expects. -/
structure Contender (R : Type) where
  manifest : Manifest
  rev : R

def Contender.new (absent : R) : Contender R := ⟨Manifest.empty, absent⟩

/-- `loadManifest`: the revision is taken in any case, the manifest if there is one. -/
def Contender.loadManifest (w : Contender R) (d : Register R) : Contender R :=
  { w with manifest := d.manifest.getD w.manifest, rev := d.rev }

def Contender.stage (keepEpochs : Int) (art : Artifact) (w : Contender R) : Contender R :=
  { w with manifest := w.manifest.add keepEpochs art }

/-- `PutCAS(manifest, expected)`, where `newRev` is the revision the destination gives out. -/
def Register.putCAS [DecidableEq R] (d : Register R) (m : Manifest) (expected newRev : R) :
    Option (Register R) :=
  if d.rev = expected then some ⟨some m, newRev⟩ else none

def Contender.commit [DecidableEq R] (keepEpochs : Int) (art : Artifact) (newRev : R)
    (w : Contender R) (d : Register R) : Register R × Contender R × Bool :=
  let w := w.stage keepEpochs art
  match d.putCAS w.manifest w.rev newRev with
  | none => (d, w, false)
  | some d => (d, { w with rev := newRev }, true)

section

variable {B V : Type} {cfg : Config B V} {d : String}

def ofWriter (d : String) (w : Writer V) : Contender Nat := ⟨w.manifest, w.revs d⟩

def ofDestination (d : Destination B) : Register Nat := ⟨d.manifest, d.rev⟩

lemma ofWriter_loadManifest (hd : cfg.destinations = [d]) (w : Writer V) (st : Destinations B) :
    ofWriter d (w.loadManifest cfg st) = (ofWriter d w).loadManifest (ofDestination (st d)) := by
  have hhead : cfg.destinations.head cfg.destinations_ne = d := by simp [hd]
  unfold Writer.loadManifest
  rw [hhead]
  cases hm : (st d).manifest <;> simp [ofWriter, ofDestination, Contender.loadManifest, hd, hm]

lemma ofWriter_commit (hd : cfg.destinations = [d]) (art : Artifact) (w : Writer V)
    (st : Destinations B) :
    (ofDestination ((w.commit cfg art none st).1 d), ofWriter d (w.commit cfg art none st).2.1,
        (w.commit cfg art none st).2.2) =
      (ofWriter d w).commit cfg.keepEpochs art ((st d).rev + 1) (ofDestination (st d)) := by
  unfold Writer.commit
  rw [hd]
  by_cases hrev : (st d).rev = w.revs d <;>
    simp [putManifests, call, Contender.commit, Contender.stage, Register.putCAS, ofWriter,
      ofDestination, Destination.putManifest, hrev]

end

structure World (R ι : Type) where
  register : Register R
  writers : ι → Contender R
  published : List Manifest

inductive Label (R ι : Type)
  | load (i : ι)
  | loadFails (i : ι)
  | commit (i : ι) (art : Artifact) (newRev : R)
  | commitFails (i : ι) (art : Artifact)
  | answerLost (i : ι) (art : Artifact) (newRev : R)

def World.store (s : World R ι) (r : Register R × Contender R × Bool) : World R ι :=
  { s with
    register := r.1
    published := if r.2.2 then s.published ++ r.1.manifest.toList else s.published }

section

variable [DecidableEq R] [DecidableEq ι]

/-- One access of one writer to the destination. -/
inductive Step (keepEpochs : Int) (contents : R → Option Manifest) (s : World R ι) :
    Label R ι → World R ι → Prop
  | load {i : ι} :
      Step keepEpochs contents s (.load i)
        { s with writers := Function.update s.writers i ((s.writers i).loadManifest s.register) }
  | loadFails {i : ι} : Step keepEpochs contents s (.loadFails i) s
  | commit {i : ι} {art : Artifact} {newRev : R}
      (hnew : s.register.rev = (s.writers i).rev →
        contents newRev = some ((s.writers i).manifest.add keepEpochs art)) :
      Step keepEpochs contents s (.commit i art newRev)
        { s.store ((s.writers i).commit keepEpochs art newRev s.register) with
          writers := Function.update s.writers i
            ((s.writers i).commit keepEpochs art newRev s.register).2.1 }
  | commitFails {i : ι} {art : Artifact} :
      Step keepEpochs contents s (.commitFails i art)
        { s with writers := Function.update s.writers i ((s.writers i).stage keepEpochs art) }
  | answerLost {i : ι} {art : Artifact} {newRev : R}
      (hnew : s.register.rev = (s.writers i).rev →
        contents newRev = some ((s.writers i).manifest.add keepEpochs art)) :
      Step keepEpochs contents s (.answerLost i art newRev)
        { s.store ((s.writers i).commit keepEpochs art newRev s.register) with
          writers := Function.update s.writers i ((s.writers i).stage keepEpochs art) }

end

def World.init (ι : Type) (absent : R) (register : Register R) : World R ι :=
  ⟨register, fun _ => Contender.new absent, register.manifest.toList⟩

def Extends (m m' : Manifest) : Prop := m.artifacts <+: m'.artifacts

def Ahead (contents : R → Option Manifest) (w : Contender R) : Prop :=
  ∀ m, contents w.rev = some m → Extends m w.manifest

structure Ordered (contents : R → Option Manifest) (s : World R ι) : Prop where
  identified : contents s.register.rev = s.register.manifest
  ahead : ∀ i, Ahead contents (s.writers i)
  last : s.published.getLast? = s.register.manifest
  extends_later : s.published.Pairwise Extends

variable {keepEpochs : Int} {contents : R → Option Manifest} {s s' : World R ι} {a : Label R ι}

lemma Extends.add (hkeep : keepEpochs ≤ 0) (m : Manifest) (art : Artifact) :
    Extends m (m.add keepEpochs art) := by
  unfold Extends Manifest.add Manifest.prune
  rw [if_pos hkeep]
  exact prefix_append _ _

lemma Extends.trans {m m' m'' : Manifest} (h : Extends m m') (h' : Extends m' m'') :
    Extends m m'' := List.IsPrefix.trans h h'

variable {w : Contender R}

lemma Ahead.stage (h : Ahead contents w) (hkeep : keepEpochs ≤ 0)
    (art : Artifact) : Ahead contents (w.stage keepEpochs art) := fun m hm =>
  (h m hm).trans (Extends.add hkeep _ art)

lemma Ordered.load (h : Ordered contents s) : Ahead contents (w.loadManifest s.register) := by
  intro m hm
  have hstd := h.identified.symm.trans hm
  show Extends m (s.register.manifest.getD w.manifest)
  rw [hstd]
  exact prefix_refl _

lemma Ordered.update [DecidableEq ι] (h : Ordered contents s) (i : ι) (hw : Ahead contents w) :
    Ordered contents { s with writers := Function.update s.writers i w } := by
  refine ⟨h.identified, fun j => ?_, h.last, h.extends_later⟩
  show Ahead contents (Function.update s.writers i w j)
  by_cases hj : j = i
  · subst hj
    rw [update_self]
    exact hw
  · rw [update_of_ne hj]
    exact h.ahead j

variable [DecidableEq R]

lemma Ordered.commit (h : Ordered contents s) (hkeep : keepEpochs ≤ 0) {i : ι} {art : Artifact}
    {newRev : R} (hnew : s.register.rev = (s.writers i).rev →
      contents newRev = some ((s.writers i).manifest.add keepEpochs art)) :
    Ordered contents (s.store ((s.writers i).commit keepEpochs art newRev s.register)) ∧
      Ahead contents ((s.writers i).commit keepEpochs art newRev s.register).2.1 := by
  unfold Contender.commit Register.putCAS
  by_cases hrev : s.register.rev = ((s.writers i).stage keepEpochs art).rev
  · have hnew := hnew hrev
    simp only [hrev, if_true]
    refine ⟨⟨hnew, h.ahead, by simp [World.store, Contender.stage], ?_⟩, fun m hm => ?_⟩
    · -- the manifest that was stored last is a prefix, and those before it are prefixes of it
      show (s.published ++ [(s.writers i).manifest.add keepEpochs art]).Pairwise Extends
      rw [pairwise_append]
      refine ⟨h.extends_later, pairwise_singleton _ _, fun m hm m' hm' => ?_⟩
      obtain rfl := mem_singleton.mp hm'
      obtain ⟨before, last, hspl⟩ := eq_nil_or_concat s.published |>.resolve_left
        (ne_nil_of_mem hm)
      have hlast : contents (s.writers i).rev = some last := by
        rw [show (s.writers i).rev = s.register.rev from hrev.symm, h.identified, ← h.last, hspl]
        simp
      have hstd : Extends last ((s.writers i).manifest.add keepEpochs art) :=
        (h.ahead i last hlast).trans (Extends.add hkeep _ art)
      have hall := h.extends_later
      rw [hspl, concat_eq_append] at hm hall
      rcases mem_append.mp hm with hm | hm
      · exact ((pairwise_append.mp hall).2.2 m hm last (by simp)).trans hstd
      · obtain rfl := mem_singleton.mp hm
        exact hstd
    · obtain rfl : m = _ := Option.some.inj (hm.symm.trans hnew)
      exact prefix_refl _
  · simp only [hrev, if_false]
    exact ⟨⟨h.identified, h.ahead, h.last, h.extends_later⟩, (h.ahead i).stage hkeep art⟩

lemma Ordered.step [DecidableEq ι] (h : Ordered contents s) (hkeep : keepEpochs ≤ 0)
    (hs : Step keepEpochs contents s a s') : Ordered contents s' := by
  cases hs with
  | load => exact h.update _ h.load
  | loadFails => exact h
  | commit hnew =>
    obtain ⟨hstd, hahead⟩ := h.commit hkeep hnew
    exact hstd.update _ hahead
  | @commitFails i art => exact h.update i ((h.ahead i).stage hkeep art)
  | @answerLost i art newRev hnew =>
    exact (h.commit hkeep hnew).1.update i ((h.ahead i).stage hkeep art)

omit [DecidableEq R] in
lemma Ordered.init {absent : R} (habs : contents absent = none) {register : Register R}
    (hreg : contents register.rev = register.manifest) :
    Ordered contents (World.init ι absent register) := by
  refine ⟨hreg, fun i m hm => ?_, ?_, ?_⟩
  · rw [show ((World.init ι absent register).writers i).rev = absent from rfl, habs] at hm
    cases hm
  · show register.manifest.toList.getLast? = register.manifest
    cases register.manifest <;> rfl
  · show register.manifest.toList.Pairwise Extends
    cases register.manifest <;> simp

/-- **Competing writers never drop a committed artifact** at a destination whose revisions identify
contents: every manifest ever stored there lists a prefix of the artifacts of every later one. -/
theorem competing_writers_keep_artifacts [DecidableEq ι] (hkeep : keepEpochs ≤ 0) {absent : R}
    (habsent : contents absent = none) {register : Register R}
    (hregister : contents register.rev = register.manifest)
    (hreach : Transition.Run (Step keepEpochs contents)
      (World.init ι absent register) s) :
    s.published.Pairwise (fun m m' => m.artifacts <+: m'.artifacts) ∧
      s.published.getLast? = s.register.manifest := by
  have hordered := hreach.invariant (Ordered contents) (Ordered.init habsent hregister)
    fun h _ hs => h.step hkeep hs
  exact ⟨hordered.extends_later, hordered.last⟩

def snapshotAt (epoch : Nat) (pos : String) : Artifact := ⟨.snapshot, epoch, none, pos, ["plain"]⟩

def exampleContents : Nat → Option Manifest
  | 1 => some ⟨1, 1, "0/10", [snapshotAt 1 "0/10"]⟩
  | 2 => some ⟨1, 2, "0/20", [snapshotAt 1 "0/10", snapshotAt 2 "0/20"]⟩
  | 3 => some ⟨1, 3, "0/30", [snapshotAt 1 "0/10", snapshotAt 2 "0/20", snapshotAt 3 "0/30"]⟩
  | _ => none

theorem competing_writers_keep_artifacts_run : ∃ s : World Nat Bool,
      Transition.Run (Step 0 exampleContents) (World.init Bool 0 ⟨none, 0⟩) s ∧
      s.published.map (·.artifacts.length) = [1, 2, 3] ∧
      (s.writers false).manifest.artifacts.length = 2 ∧
      s.published.Pairwise (fun m m' => m.artifacts <+: m'.artifacts) ∧
      s.published.getLast? = s.register.manifest := by
  have h : Transition.Run (Step 0 exampleContents)
      (World.init Bool 0 ⟨none, 0⟩) _ := .refl _
  have h := h
    |>.snoc (a := .load true) .load
    |>.snoc (a := .load false) .load
    |>.snoc (a := .commit true (snapshotAt 1 "0/10") 1) (.commit (by decide))
    |>.snoc (a := .commit false (snapshotAt 1 "0/11") 9) (.commit (by decide))
    |>.snoc (a := .commit false (snapshotAt 1 "0/12") 9) (.commit (by decide))
    |>.snoc (a := .load false) .load
    |>.snoc (a := .answerLost false (snapshotAt 2 "0/20") 2) (.answerLost (by decide))
    |>.snoc (a := .commitFails true (snapshotAt 2 "0/21")) .commitFails
    |>.snoc (a := .commit true (snapshotAt 2 "0/22") 9) (.commit (by decide))
    |>.snoc (a := .load true) .load
    |>.snoc (a := .commit true (snapshotAt 3 "0/30") 3) (.commit (by decide))
  obtain ⟨hpairs, hlast⟩ := competing_writers_keep_artifacts (Int.le_refl 0) rfl rfl h
  exact ⟨_, h, rfl, rfl, hpairs, hlast⟩

end Laredo.Snapshotter.Contention
