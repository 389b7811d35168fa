import Laredo.Snapshotter.Export
import Laredo.Source.ArchiveForeign

/-!
# Archive export

A source that follows an archive (`source/archive/archive.go`) over which an export was written
(`snapshotter/export.go`).
-/

namespace Laredo.Archive

open Snapshotter List Reader
open Snapshotter (Artifact Manifest Reader Destination)

variable {B V : Type} [GoValue V]

/-- The moves of a source on an archive that stays as it is, with what it gives out. -/
inductive Runs (src : Source B V) (arch : Destination B) (c : Cursor V) :
    List (Output V) → Cursor V → Prop
  | start : Runs src arch c [] c
  | move {outs : List (Output V)} {out : Output V} {c' c'' : Cursor V}
      (hrun : Runs src arch c outs c')
      (hmove : Move src arch c' out c'') : Runs src arch c (outs ++ [out]) c''

def Output.told : Output V → Bool
  | .nothing => false
  | .rows _ | .event _ => true

/-- Where a follower that was at `f` is, and what it has given out: nothing before it has gone back
to `Baseline` and reconstructed, and then the rows. -/
def Told (c : Comparator String) (position f : String) (rows : List (Row V))
    (outs : List (Output V)) (cur : Cursor V) : Prop :=
  (outs.filter Output.told = [] ∧ cur.position = f ∧ (cur.pc = .polling ∨
      c.cmp position f > 0 ∧ (cur.pc = .rebaseline ∨ cur.pc = .loaded position) ∨
      ¬c.cmp position f > 0 ∧ cur.pc = .finished)) ∨
    (c.cmp position f > 0 ∧ outs.filter Output.told = [.rows rows] ∧ cur.position = position ∧
      (cur.pc = .polling ∨ cur.pc = .finished))

variable {cfg : Config B V} {src : Source B V} {arch : Destination B} {c : Comparator String}
  {position f : String} {rows : List (Row V)} {outs : List (Output V)} {cur cur' : Cursor V}

omit [GoValue V] in
lemma not_continued_export (cmp : String → String → Int) :
    ¬Continued (exportManifest cfg position) f cmp := by
  rintro ⟨fuel, chain, head, hchain, -⟩
  have hdiffs : (exportManifest cfg position).diffs = [] := rfl
  rw [hdiffs] at hchain
  cases fuel with
  | zero => cases hchain
  | succ fuel => simp [contiguousDiffChain, Links.follow, byFrom] at hchain

lemma reconstructAsOf_export (hkeys : src.keyFields = cfg.keyFields)
    (hexp : Exports cfg src.reader c position rows arch) {fuel : Nat}
    {found : Except ReadError (Option (Reconstruction V))}
    (h : src.reader.reconstructAsOf fuel arch position src.keyFields c.cmp = some found) :
    found = .ok (some ⟨rows, position⟩) := by
  have hle : c.cmp position position ≤ 0 := Comparator.Le.refl c position
  cases fuel with
  | zero =>
    simp [reconstructAsOf, loadManifest_eq hexp.1 rfl, Manifest.planAsOf, Links.follow,
      exportManifest, snapshotArtifact, baseAsOf, hle] at h
  | succ fuel =>
    rw [hkeys, hexp.2, if_pos hle] at h
    exact (Option.some.inj h).symm

lemma Told.move {out : Output V} (hcmp : src.cmp = c.cmp) (hkeys : src.keyFields = cfg.keyFields)
    (hexp : Exports cfg src.reader c position rows arch) (h : Told c position f rows outs cur)
    (hmove : Move src arch cur out cur') : Told c position f rows (outs ++ [out]) cur' := by
  have hload : Reader.loadManifest arch = .ok (exportManifest cfg position) :=
    loadManifest_eq hexp.1 rfl
  have hpos : ¬c.cmp position position > 0 := Int.not_lt.2 (Comparator.Le.refl c position)
  obtain ⟨pc, q⟩ := cur
  rcases h with ⟨hnone, rfl, rfl | ⟨hahead, rfl | rfl⟩ | ⟨-, rfl⟩⟩ | ⟨hahead, hrows, rfl, rfl | rfl⟩
  · obtain ⟨rfl, ⟨hhead, hq, hpc⟩ |
      ⟨hhead, fuel, found, hplan, ⟨plan, rfl, hsnap, -⟩ | ⟨-, rfl⟩⟩⟩ :=
      hmove.polling_inv rfl hload
    · rw [hcmp] at hhead
      exact .inl ⟨by simpa [Output.told] using hnone, hq, hpc.imp_right fun h => .inr ⟨hhead, h⟩⟩
    · exact absurd (continued_of_plan hplan hsnap) (not_continued_export _)
    · rw [hcmp] at hhead
      exact .inl ⟨by simpa [Output.told] using hnone, rfl, .inr (.inl ⟨hhead, .inl rfl⟩)⟩
  · cases hmove with
    | load _ hm =>
      cases hload.symm.trans hm
      exact .inl ⟨by simpa [Output.told] using hnone, rfl, .inr (.inl ⟨hahead, .inr rfl⟩)⟩
    | loadFailed _ hm => cases hload.symm.trans hm
    | _ => simp_all
  · cases hmove with
    | reconstructed hpc hrec =>
      cases hpc
      cases reconstructAsOf_export hkeys hexp (hcmp ▸ hrec)
      exact .inr ⟨hahead, by simp [filter_append, hnone, Output.told], rfl, .inl rfl⟩
    | empty hpc hrec | reconstructFailed hpc hrec =>
      cases hpc
      cases reconstructAsOf_export hkeys hexp (hcmp ▸ hrec)
    | _ => simp_all
  · cases hmove <;> simp_all
  · obtain ⟨rfl, ⟨-, hq, hpc⟩ | ⟨hhead, -⟩⟩ := hmove.polling_inv rfl hload
    · exact .inr ⟨hahead, by simpa [Output.told] using hrows, hq, hpc⟩
    · rw [hcmp] at hhead
      exact absurd hhead hpos
  · cases hmove <;> simp_all

/-- **An export reaches its followers**: a source that was at `f` gives out the exported rows if and
only if the export is ahead of `f`, once and nothing else, and goes on from the exported
position. -/
theorem export_reaches_follower (hap : cfg.FormatsApart) (hr : src.reader.Decodes cfg)
    (hcmp : src.cmp = c.cmp) (hkeys : src.keyFields = cfg.keyFields)
    (hrows : (rows.map fun row => rowKey cfg.keyFields (some row)).Nodup) (position f : String)
    {fault : Option Nat} {st : Destinations B}
    (hok : (writeBaseSnapshot cfg position rows fault st).2 = true) {d : String}
    (hd : d ∈ cfg.destinations) :
    let arch := (writeBaseSnapshot cfg position rows fault st).1 d
    ∃ rows' : List (Row V), rows'.Perm rows ∧
      (∀ outs cur, Runs src arch ⟨.polling, f⟩ outs cur → Told c position f rows' outs cur) ∧
      (c.cmp position f > 0 → ∃ outs, Runs src arch ⟨.polling, f⟩ outs ⟨.polling, position⟩ ∧
        outs.filter Output.told = [.rows rows']) := by
  intro arch
  obtain ⟨rows', hperm, hexp⟩ := (writeBaseSnapshot_spec hap hr hrows hd).resolve_left fun h =>
    Bool.noConfusion (hok.symm.trans h.2)
  refine ⟨rows', hperm, fun outs cur hrun => ?_, fun hahead => ?_⟩
  · induction hrun with
    | start => exact .inl ⟨rfl, rfl, .inl rfl⟩
    | move _ hmove ih => exact ih.move hcmp hkeys hexp hmove
  · have hload := loadManifest_eq hexp.1 rfl
    obtain ⟨found, hplan⟩ : ∃ found, (exportManifest cfg position).plan 1 f src.cmp = some found :=
      ⟨_, rfl⟩
    have hsnap : ∀ plan ∈ found, plan.snapshot ≠ none := by
      rintro plan rfl hnone
      exact not_continued_export _ (continued_of_plan hplan hnone)
    have hrec : src.reader.reconstructAsOf 1 arch position src.keyFields src.cmp =
        some (.ok (some ⟨rows', position⟩)) := by
      have hle : c.cmp position position ≤ 0 := Comparator.Le.refl c position
      rw [hkeys, hcmp, hexp.2, if_pos hle]
    exact ⟨_, ((Runs.start.move (.rebase rfl hload (hcmp ▸ hahead) hplan hsnap)).move
      (.load (.inr rfl) hload)).move (.reconstructed rfl hrec), rfl⟩

/-- A follower at 0/05 of an archive that is exported at 0/10. -/
theorem export_reaches_follower_behind :
    let arch :=
      (writeBaseSnapshot diffsOnly "0/10" [rowWithId "1"] none fun _ => ⟨∅, none, 0⟩).1 "local"
    ∃ rows outs, rows.Perm [rowWithId "1"] ∧ outs.filter Output.told = [.rows rows] ∧
      Runs follower arch ⟨.polling, "0/05"⟩ outs ⟨.polling, "0/10"⟩ := by
  obtain ⟨rows, hperm, -, hreach⟩ := @export_reaches_follower _ _ _ diffsOnly follower
    (.ofOrd String) [rowWithId "1"] plainConfig_formatsApart plainReader_decodes rfl rfl
    (nodup_singleton _) "0/10" "0/05" none (fun _ => ⟨∅, none, 0⟩) rfl "local"
    (mem_singleton.2 rfl)
  obtain ⟨outs, hruns, houts⟩ := hreach (by decide +kernel)
  exact ⟨rows, outs, hperm, houts, hruns⟩

end Laredo.Archive
