import Mathlib.Data.List.Induction
import Laredo.Engine.Restore

/-!
# Replay

`SnapshotReplay.Run` (`replay.go`) over a snapshot that `doSnapshot` wrote, with no columns
recorded.
-/

namespace Laredo.Engine

open Memory IndexedTarget Shop List Option

variable {P V : Type} [GoValue V]

/-- A `TableSnapshotInfo`, as far as it is read. `doSnapshot` sets no columns. -/
structure TableColumns where
  table : TableIdentifier
  columns : List ColumnDefinition

def tableInfos (pipelines : List (Exporter P V)) : List TableColumns :=
  (pipelines.filter fun x => decide x.Exported).map fun x => ⟨x.table, []⟩

namespace SnapshotReplay

def columnsByTable (infos : List TableColumns) : TableIdentifier → List ColumnDefinition :=
  infos.foldl (fun columns info => Function.update columns info.table info.columns) fun _ => []

/-- `Run`, with the tables in the order of the iteration over `entries`. -/
def run (infos : List TableColumns) (entries : TableIdentifier → List (Row V))
    (tables : List TableIdentifier) (targets : TableIdentifier → List (IndexedTarget V)) :
    Except String (TableIdentifier → List (IndexedTarget V)) :=
  tables.foldlM
    (fun targets table => do
      let started ← (targets table).mapM fun t => t.onInit (columnsByTable infos table)
      return Function.update targets table
        (started.map fun t => (entries table).foldl onInsert t))
    targets

lemma columnsByTable_tableInfos (pipelines : List (Exporter P V)) (table : TableIdentifier) :
    columnsByTable (tableInfos pipelines) table = [] := by
  have hfold : ∀ (xs : List (Exporter P V)) (columns : TableIdentifier → List ColumnDefinition),
      columns table = [] → ((xs.map fun x => (⟨x.table, []⟩ : TableColumns)).foldl
        (fun columns info => Function.update columns info.table info.columns)
          columns) table = [] := by
    intro xs
    induction xs with
    | nil => exact fun _ h => h
    | cons x xs ih =>
      refine fun columns h => ih _ ?_
      by_cases htab : table = x.table <;> simp [htab, h]
  exact hfold _ _ rfl

lemma store_keyless (rows : List (Row V)) {t : IndexedTarget V} (hcols : t.pkCols = [])
    (hstore : t.store = ∅) : (rows.foldl onInsert t).pkCols = [] ∧
      (rows.foldl onInsert t).store =
        rows.getLast?.elim ∅ fun row => (∅ : Store V).insert "" row := by
  induction rows using List.reverseRecOn with
  | nil => exact ⟨hcols, hstore⟩
  | append_singleton rows row ih =>
    rw [foldl_append, getLast?_concat]
    refine ⟨ih.1, ?_⟩
    have hkey : buildKey [] row = "" := rfl
    simp only [foldl_cons, foldl_nil, store_onInsert, ih.1, ih.2, KeyedMap.put, hkey, elim_some]
    cases rows.getLast? with
    | none => rfl
    | some last =>
      refine Std.ExtTreeMap.ext_getElem? fun k => ?_
      simp only [elim_some, Std.ExtTreeMap.getElem?_insert]
      split <;> simp

omit [GoValue V] in
lemma keyless_perm_iff (rows : List (Row V)) : (((rows.getLast?.elim ∅ fun row =>
    (∅ : Store V).insert "" row).toList.map Prod.snd).Perm rows) ↔ rows.length ≤ 1 := by
  cases rows using List.reverseRecOn with
  | nil => simp
  | append_singleton rows row =>
    rw [getLast?_concat]
    have hrow : ((∅ : Store V).insert "" row).toList.map Prod.snd = [row] := rfl
    rw [elim_some, hrow]
    constructor
    · exact fun h => h.length_eq ▸ Nat.le_refl 1
    · intro h
      have hnil : rows = [] := eq_nil_of_length_eq_zero (by simpa using h)
      rw [hnil]
      exact List.Perm.refl _

omit [GoValue V] in
lemma onInit_new : (new [] [] : IndexedTarget V).onInit [] =
    .ok (new [] []) := rfl

variable {infos : List TableColumns} {entries : TableIdentifier → List (Row V)}

lemma run_eq_ok (hinfos : ∀ table, columnsByTable infos table = []) {tables : List TableIdentifier}
    (hnd : tables.Nodup) (targets : TableIdentifier → List (IndexedTarget V))
    (n : TableIdentifier → Nat)
    (hfresh : ∀ table ∈ tables, targets table = List.replicate (n table) (new [] [])) :
    run infos entries tables targets = .ok fun table => if table ∈ tables then
      List.replicate (n table) ((entries table).foldl onInsert (new [] []))
      else targets table := by
  induction tables generalizing targets with
  | nil => simp [run]; rfl
  | cons table tables ih =>
    obtain ⟨hnot, hnd⟩ := nodup_cons.1 hnd
    have hstart : (targets table).mapM (fun t => t.onInit (columnsByTable infos table)) =
        .ok (targets table) := by
      rw [hinfos, hfresh table mem_cons_self]
      generalize n table = k
      induction k with
      | zero => rfl
      | succ k ihk => rw [replicate_succ, mapM_cons, ihk, onInit_new]; rfl
    have hrest := ih hnd (Function.update targets table ((targets table).map fun t =>
      (entries table).foldl onInsert t)) fun other hother => by
        rw [Function.update_of_ne (fun h : other = table => hnot (h ▸ hother))]
        exact hfresh other (mem_cons_of_mem _ hother)
    rw [run, foldlM_cons, hstart]
    refine hrest.trans (congrArg Except.ok (funext fun other => ?_))
    by_cases heq : other = table
    · subst heq
      simp [hnot, hfresh other]
    · simp [heq]

end SnapshotReplay

/-- **Replaying a snapshot** ends without an error, and every target of every table has exactly the
rows exported for it if and only if no table with a target had more than one row. -/
theorem replayed_rows_iff (pipelines : List (Exporter P V)) (n : TableIdentifier → Nat)
    (tables : List TableIdentifier) (hnd : tables.Nodup)
    (hmem : ∀ table, table ∈ tables ↔ ∃ x ∈ pipelines, x.Exported ∧ x.table = table) :
    ∃ targets, SnapshotReplay.run (tableInfos pipelines) (allEntries pipelines) tables
        (fun table => List.replicate (n table) (new [] [])) = .ok targets ∧
      ((∀ table, ∀ t ∈ targets table,
          (t.store.toList.map Prod.snd).Perm (allEntries pipelines table)) ↔
        ∀ table, n table ≠ 0 → (allEntries pipelines table).length ≤ 1) := by
  refine ⟨_, SnapshotReplay.run_eq_ok (SnapshotReplay.columnsByTable_tableInfos pipelines) hnd _ n
    fun _ _ => rfl, forall_congr' fun table => ?_⟩
  by_cases htab : table ∈ tables
  · have hstore := (SnapshotReplay.store_keyless (allEntries pipelines table)
      (t := (new [] [])) rfl rfl).2
    rw [← SnapshotReplay.keyless_perm_iff, ← hstore]
    simp [htab]
  · have hnil : allEntries pipelines table = [] := by
      rw [allEntries_eq, filter_eq_nil_iff.2 fun x hx hand => ?_]
      · rfl
      · exact htab ((hmem table).2 ⟨x, hx, (of_decide_eq_true hand).2, (of_decide_eq_true hand).1⟩)
    rw [hnil]
    simp [htab, new]

theorem replayed_rows_iff_single :
    ∃ targets, SnapshotReplay.run (tableInfos [exporter .accounts .streaming ["1"]])
        (allEntries [exporter .accounts .streaming ["1"]]) [accounts.table]
        (fun _ => List.replicate 2 (new [] [])) = .ok targets ∧
      ∀ table, ∀ t ∈ targets table, (t.store.toList.map Prod.snd).Perm
        (allEntries [exporter .accounts .streaming ["1"]] table) := by
  have hmem : ∀ table, table ∈ [accounts.table] ↔
      ∃ x ∈ [exporter .accounts .streaming ["1"]], x.Exported ∧ x.table = table := by
    intro table
    simp [exporter, Exporter.Exported, eq_comm]
  obtain ⟨targets, hrun, hiff⟩ := replayed_rows_iff [exporter .accounts .streaming ["1"]]
    (fun _ => 2) [accounts.table] (nodup_singleton _) hmem
  refine ⟨targets, hrun, hiff.2 fun table _ => ?_⟩
  by_cases htab : accounts.table = table
  · subst htab
    decide
  · simp [allEntries_eq, exporter, htab]

/-- Two accounts are exported, and the replay leaves one. -/
theorem replay_keeps_one_row : let pipelines := [exporter .accounts .streaming ["1", "2"]]
    (allEntries pipelines accounts.table).length = 2 ∧
      (SnapshotReplay.run (tableInfos pipelines) (allEntries pipelines) [accounts.table]
        (fun _ => [new [] []])).map (fun targets =>
          (targets accounts.table).map (·.count)) = .ok [1] :=
  ⟨by decide, rfl⟩

end Laredo.Engine
