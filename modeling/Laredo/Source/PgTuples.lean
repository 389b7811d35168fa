import Laredo.Engine.FilteredImage
import Laredo.Source.Pg
import Laredo.Target.Upkeep

/-!
# PostgreSQL: tuples

Rows as they come from PostgreSQL (`tupleToRow` in `source/pg/replication.go`). A value that is
stored out of line and that an update has not changed is not sent.
-/

namespace Laredo.Pg

open List Option

open Engine (ResolvedPipeline)
open Memory (IndexedTarget SecondaryIndex buildKey buildKeyFromValues)

variable {V : Type} [GoValue V] (text : String → V)

def TupleColumn.value : TupleColumn → Option V
  | .null => some GoValue.nil
  | .text data => some (text data)
  | .unchanged => none

omit [GoValue V] in
lemma getElem?_foldl_cells {α : Type} (f : String × α → Option V) (cells : List (String × α))
    (hnd : (cells.map Prod.fst).Nodup) (row : Row V) (name : String) :
    (cells.foldl (fun row x => (f x).elim row (row.insert x.1)) row)[name]? =
      ((cells.find? fun x => x.1 == name).bind f).or row[name]? := by
  induction cells generalizing row with
  | nil => simp
  | cons x cells ih =>
    rw [map_cons, nodup_cons] at hnd
    rw [foldl_cons, ih hnd.2]
    by_cases hx : x.1 = name
    · have hnone : cells.find? (fun y => y.1 == name) = none := by
        rw [find?_eq_none]
        intro y hy hname
        exact hnd.1 (List.mem_map.mpr ⟨y, hy, by simpa [hx] using hname⟩)
      cases hf : f x <;> simp [hnone, hx, hf]
    · cases f x <;> simp [hx, Std.ExtTreeMap.getElem?_insert]

lemma nodup_zip_fst {α : Type} {names : List String} (hnd : names.Nodup) (xs : List α) :
    ((names.zip xs).map Prod.fst).Nodup := by
  induction names generalizing xs with
  | nil => simp
  | cons name names ih =>
    rw [nodup_cons] at hnd
    cases xs with
    | nil => simp
    | cons x xs =>
      rw [zip_cons_cons, map_cons, nodup_cons]
      refine ⟨fun hmem => hnd.1 ?_, ih hnd.2 xs⟩
      obtain ⟨⟨y, a⟩, hy, hname⟩ := List.mem_map.mp hmem
      obtain rfl : y = name := hname
      exact (of_mem_zip hy).1

lemma find?_of_mem_cells {α : Type} {cells : List (String × α)}
    (hnd : (cells.map Prod.fst).Nodup) {x : String × α} (hx : x ∈ cells) :
    cells.find? (fun y => y.1 == x.1) = some x := by
  induction cells with
  | nil => simp at hx
  | cons y cells ih =>
    rw [map_cons, nodup_cons] at hnd
    rcases mem_cons.mp hx with rfl | hx
    · simp
    · have hne : y.1 ≠ x.1 := fun hname => hnd.1 (hname ▸ List.mem_map_of_mem hx)
      simpa [hne] using ih hnd.2 hx

variable {text} {rel : RelationMessage}

lemma tupleToRow_eq (columns : List TupleColumn) :
    tupleToRow text rel (some columns) = some ((rel.columns.zip columns).foldl
      (fun row x => (x.2.value text).elim row (row.insert x.1)) ∅) := by
  simp only [tupleToRow]
  congr 2
  funext row x
  obtain ⟨name, column⟩ := x
  cases column <;> rfl

variable (text) in
def sourceRow (old : Row V) (rel : RelationMessage) (columns : List TupleColumn) : Row V :=
  (rel.columns.zip columns).foldl
    (fun row x => row.insert x.1 ((x.2.value text).getD (old.get x.1))) ∅

section

variable {columns : List TupleColumn}

lemma get_tupleToRow (hnd : rel.columns.Nodup) (name : String) :
    (Row.orEmpty (tupleToRow text rel (some columns))).get name =
      (((rel.columns.zip columns).find? fun x => x.1 == name).bind (·.2.value text)).getD
        GoValue.nil := by
  rw [tupleToRow_eq, Row.orEmpty, getD_some, Row.get,
    getElem?_foldl_cells _ _ (nodup_zip_fst hnd columns)]
  simp

lemma get_sourceRow (hnd : rel.columns.Nodup) (old : Row V) (name : String) :
    (sourceRow text old rel columns).get name =
      (((rel.columns.zip columns).find? fun x => x.1 == name).map
        fun x => (x.2.value text).getD (old.get x.1)).getD GoValue.nil := by
  have hcells := getElem?_foldl_cells
    (fun x : String × TupleColumn => some ((x.2.value text).getD (old.get x.1)))
    (rel.columns.zip columns) (nodup_zip_fst hnd columns) (∅ : Row V) name
  simp only [elim_some] at hcells
  rw [Row.get, sourceRow, hcells]
  cases (rel.columns.zip columns).find? fun x => x.1 == name <;> simp

lemma get_tupleToRow_eq_iff (hnd : rel.columns.Nodup) (old : Row V) :
    (∀ name, (Row.orEmpty (tupleToRow text rel (some columns))).get name =
        (sourceRow text old rel columns).get name) ↔
      ∀ name, (name, TupleColumn.unchanged) ∈ rel.columns.zip columns →
        old.get name = GoValue.nil := by
  simp only [get_tupleToRow hnd, get_sourceRow hnd]
  constructor
  · intro h name hmem
    have hname := h name
    rw [find?_of_mem_cells (nodup_zip_fst hnd columns) hmem] at hname
    exact hname.symm
  · intro h name
    cases hfnd : (rel.columns.zip columns).find? fun x => x.1 == name with
    | none => rfl
    | some x =>
      obtain ⟨name', column⟩ := x
      have hmem := mem_of_find?_eq_some hfnd
      cases column with
      | null => rfl
      | text data => rfl
      | unchanged => exact (h name' hmem).symm

end

inductive RowChange (V : Type)
  | insert (tuple : List TupleColumn)
  | update (old : Row V) (newTuple : List TupleColumn) (oldTuple : Option (List TupleColumn))
  | delete (oldTuple : Option (List TupleColumn))
  | truncate

def RowChange.message (relationID : Nat) : RowChange V → LogicalMessage
  | .insert tuple => .insert relationID (some tuple)
  | .update _ newTuple oldTuple => .update relationID (some newTuple) oldTuple
  | .delete oldTuple => .delete relationID oldTuple
  | .truncate => .truncate [relationID]

variable (text) in
def receive (tableSet : List String) (relations : Nat → Option RelationMessage)
    (p : ResolvedPipeline V) (now : Int) (relationID : Nat) (t : IndexedTarget V)
    (ch : RowChange V) : IndexedTarget V :=
  (handleWALData text tableSet relations (ch.message relationID)).2.foldl (p.deliver now) t

/-- The target has `stored` for the row: the same values in every column, under the key of the row,
and every index finds it by the values of the row. -/
structure StoredAs (t : IndexedTarget V) (row stored : Row V) : Prop where
  store : t.store[buildKey t.pkCols row]? = some stored
  columns : ∀ name, stored.get name = row.get name
  lookup : t.lookupIndex.isSome → t.lookup (t.lookupFields.map row.get) = some stored
  lookupAll : ∀ {indexName : String} {idx : SecondaryIndex V}, t.indexes[indexName]? = some idx →
    stored ∈ t.lookupAll indexName (idx.definition.fields.map row.get)

variable (text) in
def Kept (rel : RelationMessage) (t : IndexedTarget V) : RowChange V → Prop
  | .update old newTuple _ => StoredAs t (sourceRow text old rel newTuple)
      (Row.orEmpty (tupleToRow text rel (some newTuple)))
  | _ => True

def Sent (rel : RelationMessage) : RowChange V → Prop
  | .update old newTuple _ => ∀ name, (name, TupleColumn.unchanged) ∈ rel.columns.zip newTuple →
      old.get name = GoValue.nil
  | _ => True

lemma storedAs_onInsert_iff (t : IndexedTarget V) (row stored : Row V) :
    StoredAs (t.onInsert stored) row stored ↔ ∀ name, stored.get name = row.get name := by
  constructor
  · exact fun h => h.columns
  · intro hcols
    have hget : row.get = stored.get := funext fun name => (hcols name).symm
    refine ⟨?_, hcols, fun hlook => ?_, fun {indexName idx} hidx => ?_⟩
    · rw [Memory.buildKey_eq, hget, ← Memory.buildKey_eq, IndexedTarget.store_onInsert]
      simp [KeyedMap.getElem?_put]
    · obtain ⟨m, hm⟩ : ∃ m, t.lookupIndex = some m := by
        simpa [IndexedTarget.onInsert, IndexedTarget.addToIndexes, isSome_iff_exists]
          using hlook
      rw [hget, IndexedTarget.lookup, ← Memory.buildKey_eq]
      simp [IndexedTarget.onInsert, IndexedTarget.addToIndexes, hm]
    · rw [hget, IndexedTarget.lookupAll, hidx]
      have hins : t.onInsert stored = t.exchange ⟨none, some stored⟩ := rfl
      rw [hins, IndexedTarget.getElem?_indexes_exchange] at hidx
      obtain ⟨idx', -, rfl⟩ := map_eq_some_iff.mp hidx
      cases huq : idx'.definition.unique with
      | true =>
        simp only [SecondaryIndex.definition_exchange, huq, if_true, ← Memory.buildKey_eq,
          SecondaryIndex.unique_exchange huq]
        rw [KeyedMap.getElem?_swap_of_brings rfl]
        simp
      | false =>
        simp [SecondaryIndex.definition_exchange, huq, ← Memory.buildKey_eq,
          SecondaryIndex.nonuniq_exchange huq, KeyedMap.swapLists, KeyedMap.push]

variable {relations : Nat → Option RelationMessage}

lemma receive_update {tset : List String}
    {p : ResolvedPipeline V} (hfilters : p.filters = []) (htrf : p.transforms = [])
    (httl : p.ttlFunc = none) {rid : Nat}
    (hrel : replicated tset relations rid = some rel) (now : Int)
    (t : IndexedTarget V) (old : Row V) (newTuple : List TupleColumn)
    (oldTuple : Option (List TupleColumn)) :
    receive text tset relations p now rid t (.update old newTuple oldTuple) =
      t.onUpdate (Row.orEmpty (tupleToRow text rel (some newTuple)))
        (tupleToRow text rel oldTuple) := by
  have hrow : ∀ row : Row V, p.applyFiltersAndTransforms ⟨rel.relNamespace, rel.relationName⟩
      (some row) = some row := by
    intro row
    simp [ResolvedPipeline.applyFiltersAndTransforms, ResolvedPipeline.applyFilters, hfilters,
      htrf, ResolvedPipeline.applyTransforms]
  have hfr : ∀ row, p.isRowExpired now row = false := by simp [ResolvedPipeline.isRowExpired, httl]
  simp only [receive, RowChange.message, handleWALData, hrel, toList_some, map_cons,
    map_nil, foldl_cons, foldl_nil, ResolvedPipeline.deliver,
    ResolvedPipeline.applyChangeToTarget, tupleToRow_eq, hrow, hfr]
  rfl

lemma kept_receive_iff {tset : List String}
    {p : ResolvedPipeline V} (hfilters : p.filters = []) (htrf : p.transforms = [])
    (httl : p.ttlFunc = none) {rid : Nat}
    (hrel : replicated tset relations rid = some rel) (hnd : rel.columns.Nodup)
    (now : Int) (t : IndexedTarget V) (ch : RowChange V) :
    Kept text rel (receive text tset relations p now rid t ch) ch ↔ Sent rel ch := by
  cases ch with
  | update old newTuple oldTuple =>
    rw [receive_update hfilters htrf httl hrel]
    exact (storedAs_onInsert_iff _ _ _).trans (get_tupleToRow_eq_iff hnd old)
  | insert tuple | delete oldTuple | truncate => exact Iff.rfl

/-- **Unchanged columns.** After each update the stored row has the source's value in every column,
and all indexes find it, if and only if no update has a column that is not null and was not sent.
-/
theorem unchanged_columns_iff {tableSet : List String}
    {relations : Nat → Option RelationMessage} {p : ResolvedPipeline V} (hfilters : p.filters = [])
    (htransforms : p.transforms = []) (httl : p.ttlFunc = none) {relationID : Nat}
    (hrel : replicated tableSet relations relationID = some rel) (hnodup : rel.columns.Nodup)
    (now : Int) (t : IndexedTarget V) (history : List (RowChange V)) :
    Stale.Along (receive text tableSet relations p now relationID)
        (fun t ch => Kept text rel (receive text tableSet relations p now relationID t ch) ch)
        t history ↔
      ∀ ch ∈ history, Sent rel ch := by
  induction history generalizing t with
  | nil => simp [Stale.Along]
  | cons ch history ih =>
    rw [forall_mem_cons, ← kept_receive_iff hfilters htransforms httl hrel hnodup now t ch,
      ← ih (receive text tableSet relations p now relationID t ch)]
    rfl

def documents : RelationMessage := ⟨1, "public", "documents", ["id", "title", "body"]⟩

def documentsPipeline : ResolvedPipeline Text := { table := ⟨"public", "documents"⟩ }

def documentsTarget : IndexedTarget Text :=
  { IndexedTarget.new ["body"] [] with pkCols := ["id"], lookupIndex := some ∅ }

def receiveDocument (t : IndexedTarget Text) (ch : RowChange Text) :
    IndexedTarget Text :=
  receive some ["public.documents"] (fun _ => some documents) documentsPipeline 0 1 t ch

/-- The title of document 1 is changed. Its text is long and not sent again; the target forgets it,
whatever old tuple comes with the update. -/
theorem unchanged_column_is_lost :
    let old := Row.orEmpty (tupleToRow some documents (some [.text "1", .text "a", .text "long"]))
    let update (oldTuple : Option (List TupleColumn)) : RowChange Text :=
      .update old [.text "1", .text "b", .unchanged] oldTuple
    let t := receiveDocument documentsTarget (.insert [.text "1", .text "a", .text "long"])
    let key := some [TupleColumn.text "1", .null, .null]
    let full := some [TupleColumn.text "1", .text "a", .text "long"]
    (sourceRow some old documents [.text "1", .text "b", .unchanged]).get "body" = some "long" ∧
      (t.lookup [some "long"]).isSome ∧
      (receiveDocument t (update full)).lookup [some "long"] = none ∧
      ∀ oldTuple ∈ [none, key, full],
        ((receiveDocument t (update oldTuple)).get [some "1"]).map (·.get "body") = some none := by
  intro old update t key full
  exact ⟨by decide +kernel, by decide +kernel, by decide +kernel, by decide +kernel⟩

theorem unchanged_columns_iff_run :
    let old := Row.orEmpty (tupleToRow some documents (some [.text "1", .text "a", .text "long"]))
    let history : List (RowChange Text) := [.insert [.text "1", .text "a", .text "long"],
        .update old [.text "1", .text "b", .text "long"] none,
        .update old [.text "1", .null, .text "longer"] (some [.text "1", .null, .null])]
    Stale.Along receiveDocument (fun t ch => Kept some documents (receiveDocument t ch) ch)
      documentsTarget history := by
  intro old history
  have hsent : ∀ ch ∈ history, Sent documents ch := by simp [history, Sent, documents]
  exact (unchanged_columns_iff (p := documentsPipeline) rfl rfl rfl
    (show replicated ["public.documents"] (fun _ => some documents) 1 = some documents by
      simp [replicated, documents]) (by decide +kernel) 0 documentsTarget history).mpr hsent

end Laredo.Pg
