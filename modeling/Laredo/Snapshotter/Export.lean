import Laredo.Snapshotter.Faithful

/-!
# Export

`WriteBaseSnapshot` (`snapshotter/export.go`): an archive of one snapshot, written in one go over
whatever is at the destinations.
-/

namespace Laredo.Snapshotter

open Function Reader

variable {B V : Type}

def Destinations.putManifest (m : Manifest) : List String → Option Nat → Destinations B →
    Destinations B × Bool
  | [], _, st => (st, true)
  | d :: ds, fault, st =>
      match call fault with
      | none => (st, false)
      | some fault => putManifest m ds fault (Function.update st d ((st d).putManifest m))

def exportManifest (cfg : Config B V) (position : String) : Manifest :=
  ⟨currentManifestVersion, 1, position, [snapshotArtifact cfg 1 position]⟩

/-- `WriteBaseSnapshot(position, rows)`, and whether it returns nil. -/
def writeBaseSnapshot (cfg : Config B V) (position : String) (rows : List (Row V))
    (fault : Option Nat) (st : Destinations B) : Destinations B × Bool :=
  match putFormats cfg (snapshotArtifact cfg 1 position) (·.writeSnapshot rows) cfg.snapshotFormats
      fault st with
  | (st, none) => (st, false)
  | (st, some fault) => st.putManifest (exportManifest cfg position) cfg.destinations fault

/-- A destination before and after its turn in the last loop. -/
lemma Destinations.putManifest_at (m : Manifest) (ds : List String) (fault : Option Nat)
    (st : Destinations B) (d : String) :
    ((putManifest m ds fault st).1 d = st d ∧ (d ∈ ds → (putManifest m ds fault st).2 = false)) ∨
      ((putManifest m ds fault st).1 d).objects = (st d).objects ∧
        ((putManifest m ds fault st).1 d).manifest = some m := by
  induction ds generalizing fault st with
  | nil => exact .inl ⟨rfl, fun hd => absurd hd List.not_mem_nil⟩
  | cons e ds ih =>
    unfold putManifest
    cases call fault with
    | none => exact .inl ⟨rfl, fun _ => rfl⟩
    | some fault =>
      have ih := ih fault (Function.update st e ((st e).putManifest m))
      by_cases hd : d = e
      · subst hd
        rw [update_self] at ih
        rcases ih with ⟨hsame, -⟩ | hnew
        · rw [hsame]
          exact .inr ⟨rfl, rfl⟩
        · exact .inr hnew
      · simpa [update_of_ne hd, hd] using ih

variable {cfg : Config B V} {position : String} {rows : List (Row V)} {fault : Option Nat}
  {st : Destinations B} {d : String}

/-- However far `WriteBaseSnapshot` gets, a destination keeps its manifest or has the export. -/
lemma writeBaseSnapshot_at (cfg : Config B V) (position : String) (rows : List (Row V))
    (fault : Option Nat) (st : Destinations B) (hd : d ∈ cfg.destinations) :
    let out := writeBaseSnapshot cfg position rows fault st
    let art := snapshotArtifact cfg 1 position
    ((out.1 d).manifest = (st d).manifest ∧ out.2 = false) ∨
      (out.1 d).manifest = some (exportManifest cfg position) ∧
        ∃ st₁ : Destinations B, (out.1 d).objects = (st₁ d).objects ∧
          Complete cfg.destinations (objectKeys cfg art cfg.snapshotFormats)
            (Encodes cfg art (·.writeSnapshot rows) cfg.snapshotFormats) st₁ := by
  obtain ⟨hwritten, hcomplete⟩ := putFormats_spec cfg (snapshotArtifact cfg 1 position)
    (·.writeSnapshot rows) cfg.snapshotFormats cfg.snapshotFormats (fun _ hf => hf) fault st
  unfold writeBaseSnapshot
  generalize putFormats cfg (snapshotArtifact cfg 1 position) (·.writeSnapshot rows)
    cfg.snapshotFormats fault st = out at hwritten hcomplete ⊢
  obtain ⟨st₁, _ | fault⟩ := out
  · exact .inl ⟨hwritten.manifest d, rfl⟩
  · rcases Destinations.putManifest_at (exportManifest cfg position) cfg.destinations fault st₁ d
      with ⟨hsame, hfailed⟩ | ⟨hobjects, hm⟩
    · exact .inl ⟨(congrArg _ hsame).trans (hwritten.manifest d), hfailed hd⟩
    · exact .inr ⟨hm, st₁, hobjects, hcomplete (by rintro ⟨⟩)⟩

variable [GoValue V] {r : Reader B V} {c : Comparator String}

/-- A reader finds `rows`, as of every position from the exported one on. -/
def Exports (cfg : Config B V) (r : Reader B V) (c : Comparator String) (position : String)
    (rows : List (Row V)) (d : Destination B) : Prop :=
  d.manifest = some (exportManifest cfg position) ∧ ∀ fuel p,
    r.reconstructAsOf (fuel + 1) d p cfg.keyFields c.cmp =
      some (.ok (if c.cmp position p ≤ 0 then some ⟨rows, position⟩ else none))

lemma exports_of_sound (hr : r.Decodes cfg) {tableAt : String → Store V}
    (hkd : ∀ q, KeyedMap.Keyed (fun row => rowKey cfg.keyFields (some row)) (tableAt q))
    {d : Destination B} (hm : d.manifest = some (exportManifest cfg position))
    (hsound : (snapshotArtifact cfg 1 position).Sound cfg tableAt d) :
    Exports cfg r c position ((tableAt position).toList.map Prod.snd) d := by
  refine ⟨hm, fun fuel p => ?_⟩
  have hbase : baseAsOf (exportManifest cfg position).artifacts p c.cmp =
      if c.cmp position p ≤ 0 then some (snapshotArtifact cfg 1 position) else none := by
    simp [exportManifest, snapshotArtifact, baseAsOf]
  by_cases hle : c.cmp position p ≤ 0
  · rw [if_pos hle] at hbase ⊢
    exact reconstruct_of_plan hr hm rfl (by simpa [exportManifest] using hsound) hkd
      (by simp [exportManifest]) rfl hbase (show _ = some [] from rfl) rfl
  · rw [if_neg hle] at hbase ⊢
    exact reconstruct_of_no_base hm rfl hbase _ _

lemma writeBaseSnapshot_spec (hap : cfg.FormatsApart) (hr : r.Decodes cfg)
    (hrows : (rows.map fun row => rowKey cfg.keyFields (some row)).Nodup)
    (hd : d ∈ cfg.destinations) :
    let out := writeBaseSnapshot cfg position rows fault st
    ((out.1 d).manifest = (st d).manifest ∧ out.2 = false) ∨
      ∃ rows' : List (Row V), rows'.Perm rows ∧ Exports cfg r c position rows' (out.1 d) := by
  refine (writeBaseSnapshot_at cfg position rows fault st hd).imp_right ?_
  rintro ⟨hm, st₁, hobjects, hcomplete⟩
  have hperm := KeyedMap.perm_load hrows
  have hsound : (snapshotArtifact cfg 1 position).Sound cfg
      (fun _ => KeyedMap.load (fun row => rowKey cfg.keyFields (some row)) ∅ rows) (st₁ d) :=
    .of_complete hd hap rfl (fun f _ data hdata => ⟨rows, hdata, hperm⟩) hcomplete
  exact ⟨_, hperm.symm, exports_of_sound hr (fun _ => KeyedMap.Keyed.empty.load rows) hm
    ⟨rfl, hobjects ▸ hsound.objects⟩⟩

/-- **An export replaces the archive** at every destination it gets to: whatever was there, the
rows are read back as of the exported position and every later one, and nothing as of earlier ones.
A destination it does not get to keeps its manifest, and the call fails. -/
theorem export_replaces_archive (hap : cfg.FormatsApart) (hr : r.Decodes cfg)
    (c : Comparator String)
    (hrows : (rows.map fun row => rowKey cfg.keyFields (some row)).Nodup) (position : String)
    (fault : Option Nat) (st : Destinations B) :
    let out := writeBaseSnapshot cfg position rows fault st
    ∀ d ∈ cfg.destinations, ((out.1 d).manifest = (st d).manifest ∧ out.2 = false) ∨
      ∃ rows' : List (Row V), rows'.Perm rows ∧ Exports cfg r c position rows' (out.1 d) :=
  fun _ hd => writeBaseSnapshot_spec hap hr hrows hd

/-- Two rows are exported at 0/30 over an archive of one row at 0/10. -/
theorem export_replaces_archive_rows :
    let old := (writeBaseSnapshot diffsOnly "0/10" [rowWithId "1"] none fun _ => ⟨∅, none, 0⟩).1
    let st := (writeBaseSnapshot diffsOnly "0/30" [rowWithId "2", rowWithId "3"] none old).1
    ∃ rows : List (Row Text), rows.Perm [rowWithId "2", rowWithId "3"] ∧
      Exports diffsOnly plainReader (.ofOrd String) "0/30" rows (st "local") := by
  intro old st
  refine (@export_replaces_archive _ _ diffsOnly [rowWithId "2", rowWithId "3"] _ plainReader
    plainConfig_formatsApart plainReader_decodes (.ofOrd String) (by decide +kernel) "0/30" none old
    "local" (List.mem_singleton.2 rfl)).resolve_left ?_
  rintro ⟨-, hfailed⟩
  cases hfailed

end Laredo.Snapshotter
