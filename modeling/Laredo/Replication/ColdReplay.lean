import Laredo.Replication.Filter
import Laredo.Snapshotter.Replay

/-!
# Cold replay

Replaying an archive to a client whose position predates the journal
(`service/replication/cold_replay.go`).
-/

namespace Laredo.Replication

open Option

open Fanout (Journal Target buildKey)
open Snapshotter (Artifact ArtifactKind Change Destination Manifest Reader ReplayPlan byFrom)

variable {B P V : Type}

structure ColdDiff (V : Type) where
  position : String
  changes : List (Change V)

structure ColdReplay (V : Type) where
  snapshot : Option (String × List (Row V))
  diffs : List (ColdDiff V)
  resumeSeq : Int

structure Archive (B V : Type) where
  reader : Reader B V
  destination : Destination B

/-- The comparison handed to `Plan`: strings that are no positions compare equal. -/
def SourcePositions.compareStrings (src : SourcePositions P) (a b : String) : Int :=
  match src.positionFromString a, src.positionFromString b with
  | some pa, some pb => src.order.comparePositions pa pb
  | _, _ => 0

namespace Archive

def plan (fuel : Nat) (a : Archive B V) (src : SourcePositions P) (fromPos : String) :
    Option (Option ReplayPlan) :=
  match Reader.loadManifest a.destination with
  | .error _ => some none
  | .ok m => m.plan fuel fromPos src.compareStrings

def readDiffs (a : Archive B V) : List Artifact → Option (List (ColdDiff V))
  | [] => some []
  | art :: arts =>
      match a.reader.readDiff a.destination art with
      | .error _ => none
      | .ok changes => (a.readDiffs arts).map (⟨art.toPosition, changes⟩ :: ·)

def materialize (a : Archive B V) (plan : ReplayPlan) (seq : Int) : Option (ColdReplay V) :=
  match plan.snapshot with
  | none => (a.readDiffs plan.diffs).map fun diffs => ⟨none, diffs, seq⟩
  | some art =>
      match a.reader.readSnapshot a.destination art with
      | .error _ => none
      | .ok rows =>
          (a.readDiffs plan.diffs).map fun diffs =>
            ⟨some ("archive-" ++ toString art.epoch, rows), diffs, seq⟩

end Archive

variable {a : Archive B V} {arts : List Artifact} {diffs : List (ColdDiff V)}

lemma Archive.readDiffs_cons {art : Artifact} (h : a.readDiffs (art :: arts) = some diffs) :
    ∃ changes rest, a.reader.readDiff a.destination art = .ok changes ∧
      a.readDiffs arts = some rest ∧ diffs = ⟨art.toPosition, changes⟩ :: rest := by
  unfold Archive.readDiffs at h
  cases hchs : a.reader.readDiff a.destination art with
  | error e => simp [hchs] at h
  | ok changes =>
    simp only [hchs] at h
    obtain ⟨rest, hread, rfl⟩ := map_eq_some_iff.mp h
    exact ⟨changes, rest, rfl, hread, rfl⟩

lemma Archive.readDiffs_split
    {diffs' : List (ColdDiff V)} (h : a.readDiffs arts = some (diffs ++ diffs')) :
    ∃ l l', arts = l ++ l' ∧ a.readDiffs l = some diffs ∧ a.readDiffs l' = some diffs' := by
  induction diffs generalizing arts with
  | nil => exact ⟨[], arts, rfl, rfl, h⟩
  | cons d diffs ih =>
    cases arts with
    | nil => cases h
    | cons art arts =>
      obtain ⟨changes, rest, hchs, hread, hspl⟩ := Archive.readDiffs_cons h
      obtain ⟨rfl, rfl⟩ := List.cons.inj hspl
      obtain ⟨l, l', rfl, hl, hl'⟩ := ih hread
      refine ⟨art :: l, l', rfl, ?_, hl'⟩
      simp only [Archive.readDiffs, hchs, hl, map_some]

lemma Archive.readDiffs_mem
    (h : a.readDiffs arts = some diffs) {d : ColdDiff V} (hd : d ∈ diffs) :
    ∃ art ∈ arts, a.reader.readDiff a.destination art = .ok d.changes := by
  obtain ⟨before, after, rfl⟩ := List.append_of_mem hd
  obtain ⟨l, l', rfl, -, hl'⟩ := Archive.readDiffs_split h
  cases l' with
  | nil => cases hl'
  | cons art l' =>
    obtain ⟨changes, rest, hchs, -, hspl⟩ := Archive.readDiffs_cons hl'
    obtain ⟨rfl, -⟩ := List.cons.inj hspl
    exact ⟨art, by simp, hchs⟩

lemma Archive.readDiffs_singleton {d : ColdDiff V}
    (h : a.readDiffs arts = some [d]) : ∃ art, arts = [art] ∧ art.toPosition = d.position := by
  cases arts with
  | nil => cases h
  | cons art arts =>
    obtain ⟨changes, rest, -, hread, hspl⟩ := Archive.readDiffs_cons h
    obtain ⟨rfl, rfl⟩ := List.cons.inj hspl
    cases arts with
    | nil => exact ⟨art, rfl, rfl⟩
    | cons art' arts =>
      obtain ⟨_, _, _, _, hnil⟩ := Archive.readDiffs_cons hread
      cases hnil

def planColdReplay (fuel : Nat) (archive : Option (Archive B V)) (j : Journal P V)
    (src : SourcePositions P) (fromPos : String) : Option (Option (ColdReplay V)) :=
  match archive with
  | none => some none
  | some a =>
      match a.plan fuel src fromPos with
      | none => none
      | some none => some none
      | some (some plan) =>
          match src.positionFromString plan.headPosition with
          | none => some none
          | some head =>
              match j.resumeSeqForPosition head src.order.comparePositions with
              | (_, false) => some none
              | (seq, true) => some (a.materialize plan seq)

lemma planColdReplay_inv {fuel : Nat} {archive : Option (Archive B V)} {j : Journal P V}
    {src : SourcePositions P} {fromPos : String} {cr : ColdReplay V}
    (h : planColdReplay fuel archive j src fromPos = some (some cr)) :
    ∃ a plan head seq, archive = some a ∧ a.plan fuel src fromPos = some (some plan) ∧
      src.positionFromString plan.headPosition = some head ∧
      j.resumeSeqForPosition head src.order.comparePositions = (seq, true) ∧
      a.materialize plan seq = some cr := by
  unfold planColdReplay at h
  cases archive with
  | none => cases h
  | some a =>
    rcases hplan : a.plan fuel src fromPos with _ | _ | plan
    · simp [hplan] at h
    · simp [hplan] at h
    cases hhead : src.positionFromString plan.headPosition with
    | none => simp [hplan, hhead] at h
    | some head =>
      rcases hseq : j.resumeSeqForPosition head src.order.comparePositions with ⟨seq, _ | _⟩
      · simp [hplan, hhead, hseq] at h
      simp only [hplan, hhead, hseq, some.injEq] at h
      exact ⟨a, plan, head, seq, rfl, hplan, hhead, hseq, h⟩

lemma Archive.materialize_inv {plan : ReplayPlan} {seq : Int}
    {cr : ColdReplay V} (h : a.materialize plan seq = some cr) :
    cr.resumeSeq = seq ∧ a.readDiffs plan.diffs = some cr.diffs ∧
      (plan.snapshot = none ∧ cr.snapshot = none ∨ ∃ art rows, plan.snapshot = some art ∧
          a.reader.readSnapshot a.destination art = .ok rows ∧
          cr.snapshot = some ("archive-" ++ toString art.epoch, rows)) := by
  unfold Archive.materialize at h
  cases hsnap : plan.snapshot with
  | none =>
    simp only [hsnap] at h
    obtain ⟨diffs, hread, rfl⟩ := map_eq_some_iff.mp h
    exact ⟨rfl, hread, .inl ⟨rfl, rfl⟩⟩
  | some art =>
    simp only [hsnap] at h
    cases hrows : a.reader.readSnapshot a.destination art with
    | error e => simp [hrows] at h
    | ok rows =>
      simp only [hrows] at h
      obtain ⟨diffs, hread, rfl⟩ := map_eq_some_iff.mp h
      exact ⟨rfl, hread, .inr ⟨art, rows, rfl, hrows, rfl⟩⟩

section

variable [GoValue V]

def ColdReplay.apply (cols : List ColumnDefinition) (cr : ColdReplay V) (table : Store V) :
    Store V :=
  replayChanges cols (cr.snapshot.elim table fun base => Target.loadRows cols base.2)
    (cr.diffs.flatMap ColdDiff.changes)

structure Archive.Holds (cols : List ColumnDefinition) (tableAt : String → Store V)
    (a : Archive B V) : Prop where
  snapshot : ∀ m, Reader.loadManifest a.destination = .ok m → ∀ art ∈ m.artifacts,
    art.kind = .snapshot → ∀ rows, a.reader.readSnapshot a.destination art = .ok rows →
      Target.loadRows cols rows = tableAt art.toPosition
  diff : ∀ m, Reader.loadManifest a.destination = .ok m → ∀ art ∈ m.artifacts, ∀ start,
    art.DiffFrom start → ∀ changes, a.reader.readDiff a.destination art = .ok changes →
      replayChanges cols (tableAt start) changes = tableAt art.toPosition
  named : ∀ m, Reader.loadManifest a.destination = .ok m → ∀ art ∈ m.artifacts,
    art.kind = .diff → art.toPosition ≠ ""

variable {cols : List ColumnDefinition} {tableAt : String → Store V} {a : Archive B V}

lemma replayChanges_append (store : Store V) (chs changes' : List (Change V)) :
    replayChanges cols store (chs ++ changes') =
      replayChanges cols (replayChanges cols store chs) changes' :=
  Slice.replay_append chs changes'

lemma Archive.Holds.readDiffs (h : a.Holds cols tableAt) {m : Manifest}
    (hm : Reader.loadManifest a.destination = .ok m) {arts : List Artifact} {start stop : String}
    (hpath : Links.Path (fun p => (byFrom m.artifacts)[p]?) Artifact.toPosition start arts stop)
    {diffs : List (ColdDiff V)} (hread : a.readDiffs arts = some diffs) :
    replayChanges cols (tableAt start) (diffs.flatMap ColdDiff.changes) = tableAt stop := by
  induction arts generalizing start diffs with
  | nil =>
    obtain rfl : start = stop := hpath
    obtain rfl := some.inj hread
    rfl
  | cons art arts ih =>
    obtain ⟨hnext, hrest⟩ := hpath
    obtain ⟨before, after, hspl, hfrom, -⟩ := Snapshotter.getElem?_byFrom_eq_some.mp hnext
    obtain ⟨changes, rest, hchs, hreadRest, rfl⟩ := Archive.readDiffs_cons hread
    rw [List.flatMap_cons, replayChanges_append,
      h.diff m hm art (by simp [hspl]) start hfrom changes hchs]
    exact ih hrest hreadRest

lemma Archive.Holds.materialize (h : a.Holds cols tableAt) {fuel : Nat}
    {src : SourcePositions P} {fromPos : String} {plan : ReplayPlan}
    (hplan : a.plan fuel src fromPos = some (some plan)) {seq : Int} {cr : ColdReplay V}
    (hcr : a.materialize plan seq = some cr) :
    cr.apply cols (tableAt fromPos) = tableAt plan.headPosition := by
  unfold Archive.plan at hplan
  cases hm : Reader.loadManifest a.destination with
  | error e => simp [hm] at hplan
  | ok m =>
    simp only [hm] at hplan
    obtain ⟨start, hpath, hshape⟩ := Manifest.plan_inv hplan (h.named m hm)
    obtain ⟨-, hread, hbase⟩ := Archive.materialize_inv hcr
    unfold ColdReplay.apply
    rcases hshape with ⟨hnone, rfl⟩ | ⟨snap, hlat, hsnap, rfl⟩
    · rcases hbase with ⟨-, hbase⟩ | ⟨art, -, hsome, -⟩
      · rw [hbase]
        exact h.readDiffs hm hpath hread
      · rw [hnone] at hsome
        cases hsome
    · rcases hbase with ⟨hnone, -⟩ | ⟨art, rows, hsome, hrows, hbase⟩
      · rw [hsnap] at hnone
        cases hnone
      · obtain rfl : art = snap := some.inj (hsome.symm.trans hsnap)
        have hspec := m.latestSnapshot_isLatest
        rw [hlat] at hspec
        rw [hbase]
        show replayChanges cols (Target.loadRows cols rows) _ = _
        rw [h.snapshot m hm art hspec.1 hspec.2.1 rows hrows]
        exact h.readDiffs hm hpath hread

end

end Laredo.Replication
