import Laredo.Target.Memory

/-!
# Indexes

What the indexed in-memory target answers (`Get`, `Lookup`, `LookupAll` in
`target/memory/memory.go`), and when its answers are those of its rows.
-/

namespace Laredo.Memory

open KeyedMap SecondaryIndex Std List Option Function

variable {V : Type} [GoValue V]

def buildKeyFromValues (values : List V) : String :=
  "\x00".intercalate (values.map GoValue.sprint)

lemma buildKey_eq (fs : List String) (row : Row V) :
    buildKey fs row = buildKeyFromValues (fs.map row.get) := by
  simp [buildKey, buildKeyFromValues, comp_def]

namespace IndexedTarget

def get (t : IndexedTarget V) (pkValues : List V) : Option (Row V) :=
  t.store[buildKeyFromValues pkValues]?

def lookup (t : IndexedTarget V) (keyValues : List V) : Option (Row V) :=
  match t.lookupIndex with
  | none => none
  | some lookupIndex => lookupIndex[buildKeyFromValues keyValues]?

def lookupAll (t : IndexedTarget V) (indexName : String) (keyValues : List V) : List (Row V) :=
  match t.indexes[indexName]? with
  | none => []
  | some idx =>
      let key := buildKeyFromValues keyValues
      if idx.definition.unique then idx.unique[key]?.toList else idx.nonuniq.getD key []

structure SameAnswers (t u : IndexedTarget V) : Prop where
  get : ∀ pkValues, t.get pkValues = u.get pkValues
  lookup : ∀ keyValues, t.lookup keyValues = u.lookup keyValues
  lookupAll : ∀ indexName keyValues,
    (t.lookupAll indexName keyValues).Perm (u.lookupAll indexName keyValues)

inductive UniqueIndex (t : IndexedTarget V) : (Row V → String) → Store V → Prop
  | primary : UniqueIndex t (buildKey t.pkCols) t.store
  | lookup {m : Store V} (h : t.lookupIndex = some m) : UniqueIndex t (buildKey t.lookupFields) m
  | secondary {name : String} {idx : SecondaryIndex V} (h : t.indexes[name]? = some idx)
      (hunique : idx.definition.unique = true) :
      UniqueIndex t (buildKey idx.definition.fields) idx.unique

lemma UniqueIndex.fields {t : IndexedTarget V} {key : Row V → String} {m : Store V}
    (h : t.UniqueIndex key m) : ∃ fs, key = buildKey fs := by
  cases h <;> exact ⟨_, rfl⟩

def ListIndex (t : IndexedTarget V) (idx : SecondaryIndex V) : Prop :=
  (∃ name : String, t.indexes[name]? = some idx) ∧ idx.definition.unique = false

def Holds (t : IndexedTarget V) (row : Row V) : Prop := ∃ k : String, t.store[k]? = some row

structure Mirrors (t : IndexedTarget V) : Prop where
  unique : ∀ {key : Row V → String} {m : Store V}, t.UniqueIndex key m →
    Files key t.Holds m
  lists : ∀ {idx : SecondaryIndex V}, t.ListIndex idx → ∀ {rows : List (Row V)},
    Fanout.Target.Iterates rows t.store → ∀ k, (idx.nonuniq.getD k []).Perm
      (rows.filter fun row => decide (buildKey idx.definition.fields row = k))

structure SameSetup (t u : IndexedTarget V) : Prop where
  pkCols : t.pkCols = u.pkCols
  lookupFields : t.lookupFields = u.lookupFields
  lookup : t.lookupIndex.isSome = u.lookupIndex.isSome
  indexes : ∀ name : String,
    t.indexes[name]?.map (·.definition) = u.indexes[name]?.map (·.definition)

end IndexedTarget

def SecondaryIndex.refill (rows : List (Row V)) (idx : SecondaryIndex V) : SecondaryIndex V :=
  rows.foldl add idx.clear

namespace SecondaryIndex

variable {idx : SecondaryIndex V}

@[simp] lemma definition_add (idx : SecondaryIndex V) (row : Row V) :
    (idx.add row).definition = idx.definition := by
  unfold add
  split <;> rfl

@[simp] lemma definition_foldl_add (idx : SecondaryIndex V) (rows : List (Row V)) :
    (rows.foldl add idx).definition = idx.definition := by
  induction rows generalizing idx with
  | nil => rfl
  | cons row rows ih => rw [foldl_cons, ih, definition_add]

lemma unique_foldl_add (h : idx.definition.unique = true) (rows : List (Row V)) :
    (rows.foldl add idx).unique =
      load (buildKey idx.definition.fields) idx.unique rows := by
  induction rows generalizing idx with
  | nil => rfl
  | cons row rows ih =>
    rw [foldl_cons, ih (by simpa using h), definition_add]
    simp [add, h, put]

lemma nonuniq_foldl_add (h : idx.definition.unique = false) (rows : List (Row V)) :
    (rows.foldl add idx).nonuniq =
      rows.foldl (push (buildKey idx.definition.fields)) idx.nonuniq := by
  induction rows generalizing idx with
  | nil => rfl
  | cons row rows ih =>
    rw [foldl_cons, ih (by simpa using h), definition_add]
    simp [add, h, push]

omit [GoValue V] in
@[simp] lemma definition_clear (idx : SecondaryIndex V) :
    idx.clear.definition = idx.definition := by
  unfold clear
  split <;> rfl

@[simp] lemma definition_refill (idx : SecondaryIndex V) (rows : List (Row V)) :
    (idx.refill rows).definition = idx.definition := by
  rw [refill, definition_foldl_add, definition_clear]

lemma unique_refill (h : idx.definition.unique = true) (rows : List (Row V)) :
    (idx.refill rows).unique = load (buildKey idx.definition.fields) ∅ rows := by
  rw [refill, unique_foldl_add (by simpa using h), definition_clear]
  simp [clear, h]

lemma nonuniq_refill (h : idx.definition.unique = false) (rows : List (Row V)) (k : String) :
    (idx.refill rows).nonuniq.getD k [] =
      rows.filter (fun row => decide (buildKey idx.definition.fields row = k)) := by
  rw [refill, nonuniq_foldl_add (by simpa using h), definition_clear, getD_foldl_push]
  simp [clear, h]

end SecondaryIndex

namespace IndexedTarget

lemma restoreSnapshot_eq (t : IndexedTarget V) (rows : List (Row V)) :
    t.restoreSnapshot rows = { t with
      store := load (buildKey t.pkCols) ∅ rows
      lookupIndex := t.lookupIndex.map (fun _ => load (buildKey t.lookupFields) ∅ rows)
      indexes := t.indexes.map (fun _ idx => idx.refill rows) } := by
  have hfold : ∀ t : IndexedTarget V, rows.foldl onInsert t = { t with
      store := load (buildKey t.pkCols) t.store rows
      lookupIndex := t.lookupIndex.map (load (buildKey t.lookupFields) · rows)
      indexes := t.indexes.map (fun _ idx => rows.foldl add idx) } := by
    induction rows with
    | nil => simp [ExtTreeMap.map_id]
    | cons row rows ih =>
      intro t
      rw [foldl_cons, ih]
      simp [onInsert, addToIndexes, ExtTreeMap.map_map, put, comp_def]
  rw [restoreSnapshot, hfold]
  simp [onTruncate, ExtTreeMap.map_map, comp_def, refill]

variable {t u : IndexedTarget V} {rows : List (Row V)}

lemma getElem?_indexes_restoreSnapshot (t : IndexedTarget V) (rows : List (Row V))
    (name : String) :
    (t.restoreSnapshot rows).indexes[name]? = t.indexes[name]?.map (·.refill rows) := by
  rw [restoreSnapshot_eq, ExtTreeMap.getElem?_map]

variable {name : String}

omit [GoValue V] in
lemma SameSetup.index (h : t.SameSetup u) {idx : SecondaryIndex V}
    (hidx : u.indexes[name]? = some idx) :
    ∃ idx' : SecondaryIndex V, t.indexes[name]? = some idx' ∧ idx'.definition = idx.definition := by
  have hname := h.indexes name
  rw [hidx, map_some, map_eq_some_iff] at hname
  exact hname

omit [GoValue V] in
lemma SameSetup.no_index (h : t.SameSetup u) (hidx : u.indexes[name]? = none) :
    t.indexes[name]? = none := by
  have hname := h.indexes name
  rwa [hidx, map_none, map_eq_none_iff] at hname

lemma SameSetup.get_restored (h : t.SameSetup u) (rows : List (Row V)) (pkValues : List V) :
    (t.restoreSnapshot rows).get pkValues =
      (load (buildKey u.pkCols) ∅ rows)[buildKeyFromValues pkValues]? := by
  rw [IndexedTarget.get, restoreSnapshot_eq, h.pkCols]

variable {m : Store V}

lemma SameSetup.lookup_restored (h : t.SameSetup u) (hlook : u.lookupIndex = some m)
    (rows : List (Row V)) (kvs : List V) :
    (t.restoreSnapshot rows).lookup kvs =
      (load (buildKey u.lookupFields) ∅ rows)[buildKeyFromValues kvs]? := by
  have hsome := h.lookup
  rw [hlook, isSome_some, isSome_iff_exists] at hsome
  obtain ⟨m', hm'⟩ := hsome
  rw [IndexedTarget.lookup, restoreSnapshot_eq, hm', h.lookupFields]
  rfl

lemma SameSetup.lookup_restored_none (h : t.SameSetup u) (hlook : u.lookupIndex = none)
    (rows : List (Row V)) (kvs : List V) :
    (t.restoreSnapshot rows).lookup kvs = none := by
  have hnone := h.lookup
  rw [hlook, isSome_none, isSome_eq_false_iff, isNone_iff_eq_none] at hnone
  rw [IndexedTarget.lookup, restoreSnapshot_eq, hnone]
  rfl

lemma SameSetup.lookupAll_restored (h : t.SameSetup u) {idx : SecondaryIndex V}
    (hidx : u.indexes[name]? = some idx) (rows : List (Row V)) (kvs : List V) :
    (t.restoreSnapshot rows).lookupAll name kvs = if idx.definition.unique then
        (load (buildKey idx.definition.fields) ∅ rows)[buildKeyFromValues kvs]?.toList
      else rows.filter fun row =>
        decide (buildKey idx.definition.fields row = buildKeyFromValues kvs) := by
  obtain ⟨idx', hidx', hdef⟩ := h.index hidx
  rw [IndexedTarget.lookupAll, getElem?_indexes_restoreSnapshot, hidx', map_some]
  simp only [definition_refill, ← hdef]
  cases huq : idx'.definition.unique with
  | true => simp [unique_refill huq]
  | false => simp [nonuniq_refill huq]

lemma SameSetup.lookupAll_restored_none (h : t.SameSetup u)
    (hidx : u.indexes[name]? = none) (rows : List (Row V)) (kvs : List V) :
    (t.restoreSnapshot rows).lookupAll name kvs = [] := by
  rw [IndexedTarget.lookupAll, getElem?_indexes_restoreSnapshot, h.no_index hidx]
  rfl

/-- Restored from `rows`, a target with the rows `own` is what it was: under the key of every
entry the last one is a row of its own, and where rows are listed there are no other entries. -/
structure GivesBack (u : IndexedTarget V) (own rows : List (Row V)) : Prop where
  keys : ∀ {key : Row V → String} {m : Store V}, u.UniqueIndex key m →
    EndsIn key u.Holds rows
  lists : (∃ idx, u.ListIndex idx) → rows = own

/-- The answers of a target that was filled from `rows` alone: under every key the last row with
it, and where rows are listed all those with the key. -/
structure AnswersFrom (u : IndexedTarget V) (rows : List (Row V)) : Prop where
  keys : ∀ {key : Row V → String} {m : Store V}, u.UniqueIndex key m → ∀ values : List V,
    m[buildKeyFromValues values]? = lastWith key rows (buildKeyFromValues values)
  lists : ∀ {idx : SecondaryIndex V}, u.ListIndex idx → ∀ values : List V,
    (idx.nonuniq.getD (buildKeyFromValues values) []).Perm (rows.filter fun row =>
      decide (buildKey idx.definition.fields row = buildKeyFromValues values))

omit [GoValue V] in
lemma eq_of_toList_perm {a b : Option (Row V)} (h : a.toList.Perm b.toList) : a = b := by
  cases a <;> cases b <;> simp_all

lemma SameSetup.sameAnswers_iff (h : t.SameSetup u) :
    SameAnswers (t.restoreSnapshot rows) u ↔ u.AnswersFrom rows := by
  constructor
  · refine fun hsame => ⟨fun huq values => ?_, ?_⟩
    · rw [← getElem?_load_empty]
      cases huq with
      | primary => exact (hsame.get values).symm.trans (h.get_restored rows values)
      | lookup hm =>
        have hlook := (hsame.lookup values).symm.trans (h.lookup_restored hm rows values)
        rwa [IndexedTarget.lookup, hm] at hlook
      | @secondary name idx hidx hu =>
        have hall := hsame.lookupAll name values
        rw [h.lookupAll_restored hidx, IndexedTarget.lookupAll, hidx] at hall
        simp only [hu, if_true] at hall
        exact (eq_of_toList_perm hall).symm
    · rintro idx ⟨⟨name, hidx⟩, hu⟩ values
      have hall := hsame.lookupAll name values
      rw [h.lookupAll_restored hidx, IndexedTarget.lookupAll, hidx] at hall
      simpa [hu] using hall.symm
  · rintro ⟨hkeys, hlists⟩
    simp only [← getElem?_load_empty] at hkeys
    refine ⟨fun values => ?_, fun values => ?_, fun name values => ?_⟩
    · exact (h.get_restored rows values).trans (hkeys .primary values).symm
    · cases hm : u.lookupIndex with
      | none => rw [h.lookup_restored_none hm, IndexedTarget.lookup, hm]
      | some m =>
        rw [h.lookup_restored hm, IndexedTarget.lookup, hm]
        exact (hkeys (.lookup hm) values).symm
    · cases hidx : u.indexes[name]? with
      | none => rw [h.lookupAll_restored_none hidx, IndexedTarget.lookupAll, hidx]
      | some idx =>
        rw [h.lookupAll_restored hidx, IndexedTarget.lookupAll, hidx]
        cases hu : idx.definition.unique with
        | true => simp [hu, hkeys (.secondary hidx hu)]
        | false => simpa [hu] using (hlists ⟨⟨name, hidx⟩, hu⟩ values).symm

variable {own before after : List (Row V)}

lemma SameAnswers.only_own (h : SameAnswers (t.restoreSnapshot rows) u) (hsetup : t.SameSetup u)
    (hu : u.Mirrors) (hown : Fanout.Target.Iterates own u.store)
    (hrows : rows = before ++ own ++ after) (hlist : ∃ idx, u.ListIndex idx) : rows = own := by
  obtain ⟨idx, hidx⟩ := hlist
  have hnone : ∀ row, row ∉ before ++ after := by
    intro row hrow
    have hall := (hsetup.sameAnswers_iff.mp h).lists hidx (idx.definition.fields.map row.get)
    rw [← buildKey_eq] at hall
    -- the row is listed once more than it should be
    have hlen := (hall.symm.trans (hu.lists hidx hown _)).length_eq
    have hmem : row ∈ (before ++ after).filter fun r =>
        decide (buildKey idx.definition.fields r = buildKey idx.definition.fields row) :=
      List.mem_filter.mpr ⟨hrow, by simp⟩
    have hpos := length_pos_of_mem hmem
    simp only [hrows, filter_append, length_append] at hlen hpos
    omega
  have hnil := append_eq_nil_iff.mp (eq_nil_iff_forall_not_mem.mpr hnone)
  rw [hrows, hnil.1, hnil.2, nil_append, append_nil]

lemma GivesBack.load_eq (h : u.GivesBack own rows) (hu : u.Mirrors)
    (hown : Fanout.Target.Iterates own u.store) (hrows : rows = before ++ own ++ after)
    {key : Row V → String} (huq : u.UniqueIndex key m) :
    load key ∅ rows = m := by
  refine (hu.unique huq).load_eq ?_ (h.keys huq)
  intro row hrow
  simp [hrows, hown.mem_iff_exists.mpr hrow]

lemma Mirrors.restore_iff (hu : u.Mirrors) (hsetup : t.SameSetup u)
    (hown : Fanout.Target.Iterates own u.store)
    (hrows : rows = before ++ own ++ after) :
    SameAnswers (t.restoreSnapshot rows) u ↔ u.GivesBack own rows := by
  constructor
  · intro h
    refine ⟨fun huq => ?_, fun hlist => h.only_own hsetup hu hown hrows hlist⟩
    refine ((hu.unique huq).endsIn_iff rows).mp fun row _ => ?_
    obtain ⟨fs, rfl⟩ := huq.fields
    rw [buildKey_eq, (hsetup.sameAnswers_iff.mp h).keys huq, getElem?_load_empty]
  · intro h
    refine hsetup.sameAnswers_iff.mpr ⟨fun huq _ => ?_, fun hlist _ => ?_⟩
    · rw [← getElem?_load_empty, h.load_eq hu hown hrows huq]
    · rw [h.lists ⟨_, hlist⟩]
      exact hu.lists hlist hown _

end IndexedTarget

end Laredo.Memory
