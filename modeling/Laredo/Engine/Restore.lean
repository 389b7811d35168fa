import Laredo.Engine.Baseline
import Laredo.Engine.Reload

/-!
# Restore

What `trySnapshotRestore` (`engine.go`) makes of a snapshot that `doSnapshot` wrote.

The engine that wrote the snapshot need not be configured like the one that restores it.
-/

namespace Laredo.Engine

open Shop List

variable {ι P V : Type} [GoValue V]

/-- A pipeline of the engine that writes a snapshot, with the rows of its target in the order of
the iteration. -/
structure Exporter (P V : Type) [GoValue V] where
  table : TableIdentifier
  member : Member P V
  entries : List (Row V)
  iterates : Fanout.Target.Iterates entries member.target.rows

namespace Exporter

def Exported (x : Exporter P V) : Prop :=
  x.member.state = .paused ∨ x.member.state = .streaming

instance (x : Exporter P V) : Decidable x.Exported := inferInstanceAs (Decidable (_ ∨ _))

lemma mem_entries (x : Exporter P V) {row : Row V} :
    row ∈ x.entries ↔ ∃ k : String, x.member.target.rows[k]? = some row :=
  x.iterates.mem_iff_exists

end Exporter

def allEntries (pipelines : List (Exporter P V)) : TableIdentifier → List (Row V) :=
  pipelines.foldl
    (fun all x =>
      if x.Exported then Function.update all x.table (all x.table ++ x.entries) else all)
    fun _ => []

/-- `doSnapshot`, for a source whose last acknowledged position is `position`. -/
def doSnapshot (pipelines : List (Exporter P V)) (position : Option P) : StoredSnapshot P V where
  position := position
  entries := allEntries pipelines

lemma allEntries_eq (pipelines : List (Exporter P V)) (table : TableIdentifier) :
    allEntries pipelines table =
      (pipelines.filter fun x => decide (x.table = table ∧ x.Exported)).flatMap (·.entries) := by
  have hfold : ∀ all : TableIdentifier → List (Row V), pipelines.foldl (fun all x =>
          if x.Exported then Function.update all x.table (all x.table ++ x.entries) else all)
        all table =
      all table ++
        (pipelines.filter fun x => decide (x.table = table ∧ x.Exported)).flatMap (·.entries) := by
    induction pipelines with
    | nil => simp
    | cons x pipelines ih =>
      intro all
      rw [foldl_cons, ih]
      by_cases hx : x.Exported
      · by_cases htab : x.table = table
        · subst htab
          simp [hx]
        · simp [hx, htab, Function.update_of_ne (Ne.symm htab)]
      · simp [hx]
  rw [allEntries, hfold, nil_append]

variable {pipelines : List (Exporter P V)} {x : Exporter P V}

lemma allEntries_of_mem (htabs : (pipelines.map (·.table)).Nodup) (hx : x ∈ pipelines)
    (hexp : x.Exported) : allEntries pipelines x.table = x.entries := by
  rw [allEntries_eq]
  have hother : ∀ l : List (Exporter P V), x.table ∉ l.map (·.table) →
      l.filter (fun y => decide (y.table = x.table ∧ y.Exported)) = [] := by
    intro l hnot
    refine filter_eq_nil_iff.mpr fun y hy hand => hnot ?_
    exact List.mem_map.mpr ⟨y, hy, (of_decide_eq_true hand).1⟩
  obtain ⟨before, after, rfl⟩ := append_of_mem hx
  rw [map_append, map_cons, nodup_append, nodup_cons] at htabs
  have hbef : x.table ∉ before.map (·.table) :=
    fun hmem => htabs.2.2 _ hmem _ mem_cons_self rfl
  rw [filter_append, filter_cons_of_pos (by simp [hexp]), hother _ hbef, hother _ htabs.2.1.1]
  simp

namespace Fleet

variable [DecidableEq ι] {c : Config ι P V} {snapshot : StoredSnapshot P V} {fails : ι → Bool}
variable {f f' : Fleet ι P V}

def restored (c : Config ι P V) (snapshot : StoredSnapshot P V) (i : ι) (m : Member P V) :
    Member P V :=
  if m.state = .initializing then
    { m with target := m.target.restoreSnapshot (snapshot.entries (c.pipeline i).table) }
  else m

lemma restoreTargets_true {l : List ι} (hnd : l.Nodup)
    (h : restoreTargets c snapshot fails l f = (true, f')) :
    (∀ i, f'.member i = if i ∈ l then restored c snapshot i (f.member i) else f.member i) ∧
      ∀ i ∈ l, (f.member i).state = .initializing → fails i = false := by
  induction l generalizing f with
  | nil =>
    cases h
    exact ⟨fun i => rfl, nofun⟩
  | cons j rest ih =>
    obtain ⟨hj, hrest⟩ := nodup_cons.mp hnd
    unfold restoreTargets at h
    by_cases hstt : (f.member j).state = .initializing
    · cases hfails : fails j with
      | true => simp [hstt, hfails] at h
      | false =>
        simp only [hstt, ne_eq, not_true, if_false, hfails, Bool.false_eq_true] at h
        obtain ⟨hmb, hok⟩ := ih hrest h
        refine ⟨fun i => ?_, fun i hi hinit => ?_⟩
        · rw [hmb]
          by_cases hij : i = j
          · subst hij
            simp [hj, restored, hstt]
          · simp [hij]
        · rcases mem_cons.mp hi with rfl | hi
          · exact hfails
          · have hij : i ≠ j := fun heq => hj (heq ▸ hi)
            exact hok i hi (by simpa [hij] using hinit)
    · simp only [hstt, ne_eq, not_false_eq_true, if_true] at h
      obtain ⟨hmb, hok⟩ := ih hrest h
      refine ⟨fun i => ?_, fun i hi hinit => ?_⟩
      · rw [hmb]
        by_cases hij : i = j
        · subst hij
          simp [hj, restored, hstt]
        · simp [hij]
      · rcases mem_cons.mp hi with rfl | hi
        · exact absurd hinit hstt
        · exact hok i hi hinit

lemma restoreTargets_false {l : List ι} (hnd : l.Nodup)
    (h : restoreTargets c snapshot fails l f = (false, f')) :
    ∃ i ∈ l, (f.member i).state = .initializing ∧ fails i = true := by
  induction l generalizing f with
  | nil => cases h
  | cons j rest ih =>
    obtain ⟨hj, hrest⟩ := nodup_cons.mp hnd
    unfold restoreTargets at h
    by_cases hstt : (f.member j).state = .initializing
    · cases hfails : fails j with
      | true => exact ⟨j, mem_cons_self, hstt, hfails⟩
      | false =>
        simp only [hstt, ne_eq, not_true, if_false, hfails, Bool.false_eq_true] at h
        obtain ⟨i, hi, hinit, hfail⟩ := ih hrest h
        have hij : i ≠ j := fun heq => hj (heq ▸ hi)
        exact ⟨i, mem_cons_of_mem _ hi, by simpa [hij] using hinit, hfail⟩
    · simp only [hstt, ne_eq, not_false_eq_true, if_true] at h
      obtain ⟨i, hi, hinit, hfail⟩ := ih hrest h
      exact ⟨i, mem_cons_of_mem _ hi, hinit, hfail⟩

lemma trySnapshotRestore_some {q : P}
    (h : f.trySnapshotRestore c (some snapshot) fails = (some q, f')) :
    snapshot.position = some q ∧ (∀ i, (f.member i).state = .initializing → fails i = false) ∧
      ∀ i, f'.member i = (restored c snapshot i (f.member i)).stream .initializing := by
  unfold trySnapshotRestore at h
  cases hpos : snapshot.position with
  | none => simp [hpos] at h
  | some pos =>
    simp only [hpos] at h
    rcases hloop : restoreTargets c snapshot fails c.pipelineIdxs f with ⟨_ | _, g⟩
    · simp [hloop] at h
    · simp only [hloop, Prod.mk.injEq, Option.some.injEq] at h
      obtain ⟨rfl, rfl⟩ := h
      obtain ⟨hmb, hok⟩ := restoreTargets_true c.nodup hloop
      refine ⟨rfl, fun i => hok i (c.complete i), fun i => ?_⟩
      show (g.member i).stream .initializing = _
      rw [hmb, if_pos (c.complete i)]

lemma member_restored {q : P} (h : f.trySnapshotRestore c (some snapshot) fails = (some q, f'))
    {i : ι} (hi : (f.member i).state = .initializing) :
    (f'.member i).state = .streaming ∧ (f'.member i).target =
        (f.member i).target.restoreSnapshot (snapshot.entries (c.pipeline i).table) := by
  rw [(trySnapshotRestore_some h).2.2 i]
  simp [restored, Member.stream, hi]

lemma trySnapshotRestore_none (h : f.trySnapshotRestore c (some snapshot) fails = (none, f')) :
    snapshot.position = none ∨ ∃ i, (f.member i).state = .initializing ∧ fails i = true := by
  unfold trySnapshotRestore at h
  cases hpos : snapshot.position with
  | none => exact .inl rfl
  | some pos =>
    simp only [hpos] at h
    rcases hloop : restoreTargets c snapshot fails c.pipelineIdxs f with ⟨_ | _, g⟩
    · obtain ⟨i, -, hi⟩ := restoreTargets_false c.nodup hloop
      exact .inr ⟨i, hi⟩
    · simp [hloop] at h

end Fleet

def HoldsTable (pipelines : List (Exporter P V)) (table : TableIdentifier) (x : Exporter P V) :
    Prop :=
  x ∈ pipelines ∧ x.table = table ∧ x.Exported

def Exporter.SameRows (x : Exporter P V) (rows : Store V) : Prop :=
  ∀ row, (∃ k : String, rows[k]? = some row) ↔ ∃ k : String, x.member.target.rows[k]? = some row

lemma HoldsTable.sameRows_iff (htabs : (pipelines.map (·.table)).Nodup) {table : TableIdentifier}
    (h : HoldsTable pipelines table x) (t : SyncTarget P V) :
    x.SameRows (t.restoreSnapshot (allEntries pipelines table)).rows ↔
      ∀ r ∈ x.entries, ∀ r' ∈ x.entries, t.key r = t.key r' → r = r' := by
  obtain ⟨hmem, rfl, hexp⟩ := h
  unfold Exporter.SameRows
  rw [allEntries_of_mem htabs hmem hexp, (t.rows_restoreSnapshot x.entries).1]
  simp only [← x.mem_entries]
  rw [KeyedMap.load_exact_iff KeyedMap.Keyed.empty]
  simp

variable [DecidableEq ι] {c : Config ι P V}

/-- **When a restored position means restored data**: just when there is no position, a target
refuses its entries, or every pipeline was exported with keys apart. -/
theorem restored_position_iff {l l' : Life ι P V} {pipelines : List (Exporter P V)}
    (htables : (pipelines.map (·.table)).Nodup) {position : Option P} {fails : ι → Bool}
    (hstep : LifeStep c l (.restore (some (doSnapshot pipelines position)) fails) l') :
    ((∀ q, l'.phase = .stream q false → ∀ i, (l'.fleet.member i).state = .streaming →
        ∃ x, HoldsTable pipelines (c.pipeline i).table x ∧
          x.SameRows (l'.fleet.member i).target.rows) ∧
      ((∃ i, (¬ ∃ x, HoldsTable pipelines (c.pipeline i).table x) ∨
        (l.fleet.member i).state ≠ .initializing) → l'.phase = .baseline)) ↔
      (position = none ∨ (∃ i, (l.fleet.member i).state = .initializing ∧ fails i = true) ∨
        ∀ i, (l.fleet.member i).state = .initializing ∧
          ∃ x, HoldsTable pipelines (c.pipeline i).table x ∧ ∀ r ∈ x.entries, ∀ r' ∈ x.entries,
              (l.fleet.member i).target.key r = (l.fleet.member i).target.key r' → r = r') := by
  cases hstep with
  | notRestored snapshot fails hph hrestore =>
    refine iff_of_true ⟨nofun, fun _ => rfl⟩ ?_
    exact (Fleet.trySnapshotRestore_none hrestore).imp_right .inl
  | @restored snapshot fails q f hph hrestore =>
    obtain ⟨hpos, hfails, -⟩ := Fleet.trySnapshotRestore_some hrestore
    have hpos' : position = some q := hpos
    have hinit : ∀ i, (l.fleet.member i).state = .initializing →
        (f.member i).state = .streaming ∧ (f.member i).target =
          (l.fleet.member i).target.restoreSnapshot (allEntries pipelines (c.pipeline i).table) :=
      fun i hi => Fleet.member_restored hrestore hi
    constructor
    · rintro ⟨hrows, hnil⟩
      refine .inr (.inr fun i => ?_)
      have hall : ∀ i, (∃ x, HoldsTable pipelines (c.pipeline i).table x) ∧
          (l.fleet.member i).state = .initializing := by
        intro i
        by_contra hnot
        rw [not_and_or] at hnot
        exact nomatch hnil ⟨i, hnot⟩
      obtain ⟨hstt, htgt⟩ := hinit i (hall i).2
      obtain ⟨x, hx, hsame⟩ := hrows q rfl i hstt
      rw [show (Life.mk f (.stream q false)).fleet.member i = f.member i from rfl, htgt,
        hx.sameRows_iff htables] at hsame
      exact ⟨(hall i).2, x, hx, hsame⟩
    · rintro (hnone | ⟨i, hi, hfail⟩ | hall)
      · simp [hpos'] at hnone
      · simp [hfails i hi] at hfail
      · refine ⟨fun _ _ i _ => ?_, ?_⟩
        · obtain ⟨hi, x, hx, hkeys⟩ := hall i
          refine ⟨x, hx, ?_⟩
          rw [show (Life.mk f (.stream q false)).fleet.member i = f.member i from rfl,
            (hinit i hi).2, hx.sameRows_iff htables]
          exact hkeys
        · rintro ⟨i, hno | hnot⟩
          · exact absurd ⟨_, (hall i).2.choose_spec.1⟩ hno
          · exact absurd (hall i).1 hnot

def Shop.exporter (i : Shop) (state : PipelineState) (ids : List String) :
    Exporter Int Text where
  table := i.table
  member :=
    { state := state
      target := target.restoreSnapshot (ids.map row)
      ready := true
      validation := none }
  entries := ((target.restoreSnapshot (ids.map row)).rows.toList).map Prod.snd
  iterates := List.Perm.refl _

def Shop.atRestore (l : Life Shop Int Text) : Life Shop Int Text :=
  ⟨l.fleet.each fun _ m => m.onInit [⟨"id", true, 1⟩] false, .restore⟩

lemma Shop.reach_atRestore {c : Config Shop Int Text} {l : Life Shop Int Text}
    (hph : l.phase = .init) :
    Transition.Run (LifeStep c) l (atRestore l) := by
  have h : Transition.Run (LifeStep c) l _ := .refl _
  have h := h.snoc (.init (fun _ => [⟨"id", true, 1⟩]) (fun _ => false) hph)
  exact h.snoc (.noResume rfl) trivial

def Shop.restoring : Life Shop Int Text :=
  ⟨life.fleet.each fun _ m => m.onInit [⟨"id", true, 1⟩] false, .restore⟩

lemma Shop.reach_restoring :
    Transition.Run (LifeStep config) life restoring :=
  reach_atRestore rfl

/-- Orders was in ERROR when the snapshot was taken at 12, so its row is not in it. -/
theorem missing_table_restored_empty : ∃ l' : Life Shop Int Text,
    Transition.Run (LifeStep config) life restoring ∧
    LifeStep config restoring (.restore (some (doSnapshot
      [exporter .accounts .streaming ["7"], exporter .orders .error ["8"]] (some 12)))
      fun _ => false) l' ∧
    l'.phase = .stream 12 false ∧ (l'.fleet.member .orders).state = .streaming ∧
    (l'.fleet.member .orders).target.rows.isEmpty = true ∧
    (exporter .orders .error ["8"]).member.target.rows["8"]? = some (row "8") :=
  ⟨_, reach_restoring, .restored _ _ rfl rfl, rfl, rfl, rfl, rfl⟩

theorem restored_position_iff_run : ∃ l' : Life Shop Int Text,
    l'.phase = .stream 12 false ∧ (l'.fleet.member .orders).state = .streaming ∧
    ∃ x ∈ [exporter .accounts .streaming ["7"], exporter .orders .streaming ["8"]],
      x.table = orders.table ∧ x.SameRows (l'.fleet.member .orders).target.rows := by
  have hstep : LifeStep config restoring (.restore (some (doSnapshot
      [exporter .accounts .streaming ["7"], exporter .orders .streaming ["8"]] (some 12)))
      fun _ => false) _ := .restored _ _ rfl rfl
  have hsame := ((restored_position_iff (by decide) hstep).mpr (.inr (.inr fun i => ?_))).1 12 rfl
    .orders rfl
  · obtain ⟨x, hx, hrows⟩ := hsame
    exact ⟨_, rfl, rfl, x, hx.1, hx.2.1, hrows⟩
  · refine ⟨rfl, ?_⟩
    cases i with
    | accounts =>
      refine ⟨exporter .accounts .streaming ["7"], ⟨by simp, rfl, .inr rfl⟩, ?_⟩
      intro r hr r' hr' _
      exact (mem_singleton.mp hr).trans (mem_singleton.mp hr').symm
    | orders =>
      refine ⟨exporter .orders .streaming ["8"], ⟨by simp, rfl, .inr rfl⟩, ?_⟩
      intro r hr r' hr' _
      exact (mem_singleton.mp hr).trans (mem_singleton.mp hr').symm

end Laredo.Engine
