import Laredo.Snapshotter.Recovery

/-!
# Failed commit

`commit` after `commit`, with one destination, some of which fail (`writer_manifest.go`).
-/

namespace Laredo.Snapshotter

open Manifest List

variable {B V : Type}

/-- A writer, its destination and what it has committed. -/
structure Committing (B V : Type) where
  writer : Writer V
  stored : Destinations B
  done : List Artifact
  failed : Bool

inductive CommitAct
  | commit (art : Artifact) (fault : Option Nat)
  | restart

def Writer.Makes (w : Writer V) (art : Artifact) : Prop :=
  art.kind = .snapshot ∧ art.epoch = w.epoch + 1 ∨
  art.kind = .diff ∧ art.epoch = w.epoch ∧ w.epoch ≠ 0 ∧ art.fromPosition = some w.fromPos

namespace Committing

def commit (cfg : Config B V) (art : Artifact) (fault : Option Nat) (s : Committing B V) :
    Committing B V :=
  match s.writer.commit cfg art fault s.stored with
  | (st, w, true) =>
      { s with
        writer := { w with epoch := art.epoch, fromPos := art.toPosition }
        stored := st
        done := s.done ++ [art] }
  | (st, w, false) => { s with writer := w, stored := st, failed := true }

def init : Committing B V := ⟨.new, fun _ => ⟨∅, none, 0⟩, [], false⟩

inductive Step (cfg : Config B V) (s : Committing B V) : CommitAct → Committing B V → Prop
  | commit (art : Artifact) (fault : Option Nat) (hart : s.writer.Makes art) :
      Step cfg s (.commit art fault) (s.commit cfg art fault)
  | restart : Step cfg s .restart
      { s with writer := Writer.new.loadManifest cfg s.stored, failed := false }

end Committing

def Linked : String → List Artifact → String → Prop
  | p, [], q => p = q
  | p, d :: ds, q => d.kind = .diff ∧ d.fromPosition = some p ∧ Linked d.toPosition ds q

lemma Linked.snoc {p q : String} {ds : List Artifact} {d : Artifact} (h : Linked p ds q)
    (hkind : d.kind = .diff) (hst0 : d.fromPosition = some q) :
    Linked p (ds ++ [d]) d.toPosition := by
  induction ds generalizing p with
  | nil =>
    obtain rfl : p = q := h
    exact ⟨hkind, hst0, rfl⟩
  | cons e ds ih => exact ⟨h.1, h.2.1, ih h.2.2⟩

/-- The manifest ends in a snapshot of its epoch and diffs from there to its head. -/
def Manifest.Chained (m : Manifest) : Prop :=
  ∃ pre snap diffs, m.artifacts = pre ++ snap :: diffs ∧ snap.kind = .snapshot ∧
    (∀ a ∈ snap :: diffs, a.epoch = m.epoch) ∧ Linked snap.toPosition diffs m.headPosition

namespace Manifest

variable {m : Manifest} {art : Artifact} (keepEpochs : Int)

lemma chained_add_snapshot (hkind : art.kind = .snapshot) : (m.add keepEpochs art).Chained := by
  obtain ⟨keep, hadd, hep, hkeep⟩ := m.add_cases keepEpochs art
  have hart : m.epochAfter art = art.epoch := by simp [epochAfter, hkind]
  refine ⟨m.artifacts.filter keep, art, [], ?_, hkind, ?_, (add_headPosition ..).symm⟩
  · simp [hadd, hkeep art hart.symm]
  · simp [hep, hart]

lemma Chained.add_diff (h : m.Chained) (hkind : art.kind = .diff) (hep : art.epoch = m.epoch)
    (hst0 : art.fromPosition = some m.headPosition) : (m.add keepEpochs art).Chained := by
  obtain ⟨pre, snap, diffs, hspl, hsnap, hcur, hlnk⟩ := h
  obtain ⟨keep, hadd, haft, hkeep⟩ := m.add_cases keepEpochs art
  have hart : m.epochAfter art = m.epoch := by simp [epochAfter, hkind]
  have htail : ∀ a ∈ snap :: (diffs ++ [art]), a.epoch = m.epoch := by
    intro a ha
    rw [← cons_append, mem_append, mem_singleton] at ha
    rcases ha with ha | rfl
    · exact hcur a ha
    · exact hep
  refine ⟨pre.filter keep, snap, diffs ++ [art], ?_, hsnap, ?_, ?_⟩
  · have hall : (snap :: (diffs ++ [art])).filter keep = snap :: (diffs ++ [art]) :=
      filter_eq_self.mpr fun a ha => hkeep a ((htail a ha).trans hart.symm)
    rw [hadd, hspl, append_assoc, cons_append, filter_append, hall]
  · rwa [haft, hart]
  · rw [add_headPosition]
    exact hlnk.snoc hkind hst0

end Manifest

namespace Committing

variable {cfg : Config B V} {d : String} {s s' : Committing B V}

def manifest (cfg : Config B V) (s : Committing B V) : Manifest :=
  s.done.foldl (fun m art => m.add cfg.keepEpochs art) .empty

/-- What is stored is the manifest of the committed artifacts; so is what the writer goes on
from, unless a commit has failed. -/
structure Honest (cfg : Config B V) (d : String) (s : Committing B V) : Prop where
  stored : (s.stored d).manifest = if s.done = [] then none else some (s.manifest cfg)
  memory : s.failed = false → s.writer.manifest = s.manifest cfg ∧
    s.writer.epoch = (s.manifest cfg).epoch ∧
    (s.writer.epoch ≠ 0 → s.done ≠ [] ∧ s.writer.fromPos = (s.manifest cfg).headPosition)
  chained : s.done ≠ [] → (s.manifest cfg).Chained
  sublist : (s.manifest cfg).artifacts.Sublist s.done

lemma Honest.commit (hone : cfg.destinations = [d]) (h : Honest cfg d s)
    (hclean : s.failed = false) {art : Artifact} {fault : Option Nat} (hart : s.writer.Makes art) :
    Honest cfg d (s.commit cfg art fault) := by
  obtain ⟨hmemory, hep, hst0⟩ := h.memory hclean
  -- the one write of the manifest fails and changes nothing, or it succeeds
  have hcas : (∃ w, s.writer.commit cfg art fault s.stored = (s.stored, w, false)) ∨
      ∃ st w, s.writer.commit cfg art fault s.stored = (st, w, true) ∧
        (st d).manifest = some (s.writer.manifest.add cfg.keepEpochs art) ∧
        w.manifest = s.writer.manifest.add cfg.keepEpochs art := by
    simp only [Writer.commit, hone, putManifests]
    cases call fault with
    | none => exact .inl ⟨_, rfl⟩
    | some fault =>
      by_cases hrev : (s.stored d).rev = s.writer.revs d
      · simp [hrev, Destination.putManifest]
      · simp [hrev]
  unfold Committing.commit
  rcases hcas with ⟨w, hcom⟩ | ⟨st, w, hcom, hst, hw⟩
  · rw [hcom]
    exact ⟨h.stored, by rintro ⟨⟩, h.chained, h.sublist⟩
  · rw [hcom]
    have hnext : (s.done ++ [art]).foldl (fun m art => m.add cfg.keepEpochs art) .empty =
        (s.manifest cfg).add cfg.keepEpochs art := by simp [manifest]
    obtain ⟨keep, hadd, haft, -⟩ := (s.manifest cfg).add_cases cfg.keepEpochs art
    refine ⟨?_, fun _ => ⟨?_, ?_, fun _ => ⟨by simp, ?_⟩⟩, fun _ => ?_, ?_⟩
    · simp [hst, hmemory, manifest]
    · simp [hw, hmemory, manifest]
    · show art.epoch = (epoch (List.foldl _ _ _))
      rw [hnext, haft, epochAfter]
      rcases hart with ⟨hkind, -⟩ | ⟨hkind, hsame, -⟩ <;> simp [hkind]
      exact hsame.trans hep
    · show art.toPosition = (headPosition (List.foldl _ _ _))
      rw [hnext, add_headPosition]
    · show Chained (List.foldl _ _ _)
      rw [hnext]
      rcases hart with ⟨hkind, -⟩ | ⟨hkind, hsame, hnonzero, hfrom⟩
      · exact chained_add_snapshot _ hkind
      · obtain ⟨hdone, hhead⟩ := hst0 hnonzero
        exact (h.chained hdone).add_diff _ hkind (hsame.trans hep) (hhead ▸ hfrom)
    · show List.Sublist (artifacts (List.foldl _ _ _)) _
      rw [hnext, hadd]
      exact filter_sublist.trans (h.sublist.append (.refl _))

lemma Honest.restart (hone : cfg.destinations = [d]) (h : Honest cfg d s) :
    Honest cfg d { s with writer := Writer.new.loadManifest cfg s.stored, failed := false } := by
  refine ⟨h.stored, fun _ => ?_, h.chained, h.sublist⟩
  have hhead : cfg.destinations.head cfg.destinations_ne = d := by simp [hone]
  have hstd := h.stored
  unfold Writer.loadManifest
  rw [hhead]
  by_cases hdone : s.done = []
  · simp [hstd, hdone, manifest, Writer.new, empty]
  · simp [hstd, hdone, manifest]

end Committing

end Laredo.Snapshotter
