import Laredo.Client.Replica
import Laredo.Source.PgKeys

/-!
# Indexes

The secondary indexes of a client against its replica (`client/fanout/client.go`).
-/

namespace Laredo.Client

open GoValue Std List Option KeyedMap

variable {V : Type} [GoValue V]

def SecondaryIndex.at (idx : SecondaryIndex) (key : String) : List String :=
  idx.entries[key]?.getD []

/-- `LookupByIndex(indexName, values...)`; `none` and the empty list are both nil there. -/
def lookupByIndex (c : Client V) (indexName : String) (values : List V) : List (Row V) :=
  match c.indexes[indexName]? with
  | none => []
  | some idx => (idx.at (indexKey values)).filterMap fun rk => c.store[rk]?

section

variable (idx : SecondaryIndex) (rk : String) (row : Row V) (key : String)

lemma SecondaryIndex.at_add : (idx.add rk row).at key =
    if idx.keyOf row = key then idx.at key ++ [rk] else idx.at key := by
  by_cases hkey : idx.keyOf row = key <;>
    simp [SecondaryIndex.at, add, ExtTreeMap.getElem?_insert, hkey]

lemma SecondaryIndex.at_remove : (idx.remove rk row).at key =
    if idx.keyOf row = key then (idx.at key).erase rk else idx.at key := by
  unfold SecondaryIndex.at remove
  by_cases hkey : idx.keyOf row = key
  · subst hkey
    by_cases hleft : (idx.entries[idx.keyOf row]?.getD []).erase rk = [] <;> simp [hleft]
  · by_cases hleft : (idx.entries[idx.keyOf row]?.getD []).erase rk = [] <;>
      simp [hleft, hkey, ExtTreeMap.getElem?_insert, ExtTreeMap.getElem?_erase]

end

/-- The index has the row keys of the store, each once and under the key of its row. -/
def SecondaryIndex.Mirrors (idx : SecondaryIndex) (store : Store V) : Prop :=
  ∀ key, (idx.at key).Nodup ∧
    ∀ rk, rk ∈ idx.at key ↔ ∃ row, store[rk]? = some row ∧ idx.keyOf row = key

namespace SecondaryIndex.Mirrors

variable {idx : SecondaryIndex} {store : Store V} {rk : String} {row old : Row V}

lemma add (h : idx.Mirrors store) (hnew : store[rk]? = none) :
    (idx.add rk row).Mirrors (store.insert rk row) := by
  intro key
  obtain ⟨hnd, hmem⟩ := h key
  have hout : rk ∉ idx.at key := by simp [hmem, hnew]
  have hkeyOf : (idx.add rk row).keyOf (V := V) = idx.keyOf := rfl
  have hsnoc : (idx.at key ++ [rk]).Nodup := by
    rw [nodup_append]
    simp only [hnd, nodup_singleton, mem_singleton, true_and]
    rintro a ha _ rfl rfl
    exact hout ha
  rw [at_add, hkeyOf]
  refine ⟨by split <;> assumption, fun a => ?_⟩
  by_cases ha : rk = a
  · subst ha
    by_cases hkey : idx.keyOf row = key <;> simp [hkey, hout]
  · by_cases hkey : idx.keyOf row = key <;>
      simp [hkey, hmem, ha, Ne.symm ha, ExtTreeMap.getElem?_insert]

lemma remove (h : idx.Mirrors store) (hold : store[rk]? = some old) :
    (idx.remove rk old).Mirrors (store.erase rk) := by
  intro key
  obtain ⟨hnd, hmem⟩ := h key
  have hkeyOf : (idx.remove rk old).keyOf (V := V) = idx.keyOf := rfl
  rw [at_remove, hkeyOf]
  refine ⟨by split <;> simp [hnd, hnd.erase], fun a => ?_⟩
  by_cases ha : rk = a
  · subst ha
    by_cases hkey : idx.keyOf old = key <;> simp [hkey, hnd.mem_erase_iff, hmem, hold]
  · by_cases hkey : idx.keyOf old = key <;>
      simp [hkey, hnd.mem_erase_iff, hmem, ha, Ne.symm ha, ExtTreeMap.getElem?_erase]

lemma clear : idx.clear.Mirrors (∅ : Store V) := by
  simp [Mirrors, SecondaryIndex.clear, SecondaryIndex.at]

end SecondaryIndex.Mirrors

def Indexed (indexes : Indexes) (store : Store V) : Prop :=
  ∀ (name : String) (idx : SecondaryIndex), indexes[name]? = some idx → idx.Mirrors store

def Fresh (c : Client V) : SyncResponse V → Prop
  | .snapshotRow (some row) => c.store[rowKey row]? = none
  | .journalEntry entry => entry.action = .insert → ∀ row ∈ entry.newValues,
      c.store[rowKey row]? = none
  | _ => True

def receive (c : Client V) (msg : SyncResponse V) : Client V := (c.applyMessage msg).1

def Receives (c : Client V) (msg : SyncResponse V) (c' : Client V) : Prop := c' = c.receive msg

variable {c : Client V} {indexes : Indexes} {store : Store V}

lemma Indexed.of_map {f : SecondaryIndex → SecondaryIndex} {store' : Store V}
    (h : Indexed indexes store)
    (hf : ∀ idx : SecondaryIndex, idx.Mirrors store → (f idx).Mirrors store') :
    Indexed (indexes.map fun _ idx => f idx) store' := by
  intro name idx hidx
  rw [ExtTreeMap.getElem?_map, map_eq_some_iff] at hidx
  obtain ⟨idx', hidx', rfl⟩ := hidx
  exact hf idx' (h name idx' hidx')

lemma Indexed.clear (h : Indexed c.indexes c.store) : Indexed c.clear.indexes c.clear.store :=
  h.of_map fun _ _ => .clear

lemma Indexed.unindex (h : Indexed c.indexes c.store) (key : String) :
    Indexed (c.unindex key).indexes (c.store.erase key) := by
  unfold Client.unindex
  cases hold : c.store[key]? with
  | none => rwa [erase_eq_of_none hold]
  | some old => exact h.of_map fun _ hidx => hidx.remove hold

lemma Indexed.put {row : Row V} (h : Indexed c.indexes (c.store.erase (rowKey row))) :
    Indexed (c.put row).indexes (c.put row).store := by
  have hst : (c.put row).store = (c.store.erase (rowKey row)).insert (rowKey row) row := by
    refine ExtTreeMap.ext_getElem? fun k => ?_
    by_cases hk : rowKey row = k <;>
      simp [getElem?_put, ExtTreeMap.getElem?_insert, ExtTreeMap.getElem?_erase, hk]
  rw [hst]
  exact h.of_map fun _ hidx => hidx.add (by simp)

lemma Indexed.applyChange {entry : ReplicationJournalEntry V} (h : Indexed c.indexes c.store)
    (hfr : entry.action = .insert → ∀ row ∈ entry.newValues, c.store[rowKey row]? = none) :
    Indexed (c.applyChange entry).1.indexes (c.applyChange entry).1.store := by
  unfold Client.applyChange
  cases hact : entry.action with
  | insert =>
    cases hnew : entry.newValues with
    | none => exact h
    | some row =>
      refine Indexed.put (c := c) ?_
      rwa [erase_eq_of_none (hfr hact row hnew)]
  | update =>
    cases entry.newValues with
    | none => exact h
    | some row =>
      refine Indexed.put (c := c.unindex (rowKey row)) ?_
      rw [store_unindex]
      exact h.unindex (rowKey row)
  | delete =>
    cases entry.oldValues with
    | none => exact h
    | some row =>
      show Indexed (c.unindex (rowKey row)).indexes ((c.unindex (rowKey row)).store.erase _)
      rw [store_unindex]
      exact h.unindex (rowKey row)
  | truncate => exact h.clear

lemma Indexed.receive {msg : SyncResponse V} (h : Indexed c.indexes c.store)
    (hfr : c.Fresh msg) : Indexed (c.receive msg).indexes (c.receive msg).store := by
  cases msg with
  | snapshotBegin => exact h.clear
  | snapshotRow row =>
    cases row with
    | none => exact h
    | some row =>
      refine Indexed.put (c := c) ?_
      rwa [erase_eq_of_none hfr]
  | journalEntry entry => exact Indexed.applyChange (c := c.advance entry) h hfr
  | _ => exact h

lemma entries_new (conf : List (String × List String)) {name : String} {idx : SecondaryIndex}
    (hidx : (new conf : Client V).indexes[name]? = some idx) : idx.entries = ∅ := by
  have hemp : ∀ (conf : List (String × List String)) (m : Indexes),
      (∀ (n : String) idx, m[n]? = some idx → idx.entries = ∅) →
      ∀ (n : String) idx, (conf.foldl (fun m ic => m.insert ic.1 ⟨ic.2, ∅⟩) m)[n]? = some idx →
        idx.entries = ∅ := by
    intro conf
    induction conf with
    | nil => exact fun m hm => hm
    | cons ic conf ih =>
      refine fun m hm => ih _ fun n idx hidx => ?_
      rw [ExtTreeMap.getElem?_insert] at hidx
      split at hidx
      · cases hidx
        rfl
      · exact hm n idx hidx
  exact hemp conf ∅ (by simp) name idx hidx

lemma Indexed.new (conf : List (String × List String)) :
    Indexed (new conf : Client V).indexes (new conf : Client V).store := by
  intro name idx hidx key
  simp [SecondaryIndex.at, entries_new conf hidx, Client.new]

def rowsWith (c : Client V) (fields : List String) (values : List V) : List (Row V) :=
  (c.store.toList.map Prod.snd).filter fun row =>
    fields.map (fun f => sprint (row.get f)) = values.map sprint

lemma indexKey_eq (vals : List V) :
    indexKey vals = "\x00".intercalate (vals.map sprint) := by
  match vals with
  | [] | [_] | _ :: _ :: _ => simp [indexKey]

/-- **The indexes mirror the replica**, when inserts and snapshot rows bring new keys: a lookup
gives the rows whose fields print like the values, each once. -/
theorem lookup_mirrors_replica (config : List (String × List String))
    (hrun : Transition.Reach Receives Fresh (new config) c) {name : String}
    {idx : SecondaryIndex} (hidx : c.indexes[name]? = some idx) (values : List V)
    (hlength : values.length = idx.fields.length)
    (hvalues : ∀ v ∈ values, Pg.NoNul (sprint v))
    (hrows : ∀ (rk : String) (row : Row V), c.store[rk]? = some row →
      ∀ f ∈ idx.fields, Pg.NoNul (sprint (row.get f))) :
    (c.lookupByIndex name values).Perm (c.rowsWith idx.fields values) := by
  have hindexed : Indexed c.indexes c.store :=
    hrun.invariant (fun c => Indexed c.indexes c.store) (.new config) fun h hfr hstep =>
      hstep ▸ h.receive hfr
  obtain ⟨hnd, hmem⟩ := hindexed name idx hidx (indexKey values)
  have hstd := nodup_keys_of_values c.keyed (.refl _)
  simp only [lookupByIndex, hidx]
  refine (perm_ext_iff_of_nodup ?_ (hstd.of_map.filter _)).mpr fun row => ?_
  · refine hnd.filterMap fun rk rk' row hrow hrow' => ?_
    exact (c.keyed rk row hrow).symm.trans (c.keyed rk' row hrow')
  · rw [List.mem_filterMap, List.mem_filter, mem_values c.keyed (.refl _), decide_eq_true_eq]
    have hkey : c.store[rowKey row]? = some row → (idx.keyOf row = indexKey values ↔
        idx.fields.map (fun f => sprint (row.get f)) = values.map sprint) := by
      intro hrow
      rw [SecondaryIndex.keyOf, indexKey_eq, indexKey_eq, List.map_map]
      refine ⟨Pg.intercalate_nul_inj (by simp [hlength]) ?_ (by simpa using hvalues), ?_⟩
      · simpa using hrows _ row hrow
      · exact congrArg _
    constructor
    · rintro ⟨rk, hrk, hrow⟩
      obtain rfl := c.keyed rk row hrow
      obtain ⟨row', hrow', hkeyOf⟩ := (hmem _).mp hrk
      obtain rfl : row = row' := some.inj (hrow.symm.trans hrow')
      exact ⟨hrow, (hkey hrow).mp hkeyOf⟩
    · rintro ⟨hrow, hfields⟩
      exact ⟨rowKey row, (hmem _).mpr ⟨row, hrow, (hkey hrow).mpr hfields⟩, hrow⟩

def named (id name : String) : Row Text :=
  .ofList [("id", some id), ("name", some name)]

def inserted (sequence : Int) (row : Row Text) : SyncResponse Text :=
  .journalEntry ⟨sequence, .insert, "", some row, none⟩

theorem lookup_mirrors_replica_updated : ∃ c : Client Text,
    Transition.Reach Receives Fresh (new [("by_name", ["name"])]) c ∧
    c.rowsWith ["name"] [some "b"] = [named "1" "b"] ∧
    (c.lookupByIndex "by_name" [some "b"]).Perm [named "1" "b"] := by
  have h : Transition.Reach Receives Fresh (new [("by_name", ["name"])] : Client Text) _ :=
    .refl _
  have h := h.snoc (a := inserted 1 (named "1" "a")) rfl (fun _ row _ => by simp [Client.new])
    |>.snoc (a := .journalEntry ⟨2, .update, "", some (named "1" "b"), none⟩) rfl
      (by rintro ⟨⟩)
  refine ⟨_, h, rfl, ?_⟩
  refine @lookup_mirrors_replica _ _ _ _ h "by_name" ⟨["name"], _⟩ rfl [some "b"] rfl ?_ ?_
  · simp [Pg.NoNul, sprint]
  · intro rk row hrow
    have hrk : rk = "1" := by
      by_contra hne
      have hput : (KeyedMap.put rowKey (KeyedMap.put rowKey ∅ (named "1" "a"))
        (named "1" "b"))[rk]? =
        some row := hrow
      have hkey : ∀ name, rowKey (named "1" name) = "1" := fun _ => rfl
      simp [getElem?_put, hkey, Ne.symm hne] at hput
    subst hrk
    cases hrow
    have hname : (named "1" "b").get "name" = some "b" := rfl
    simp [Pg.NoNul, sprint, hname]

/-- The row of an insert that is delivered twice is found twice. -/
theorem reinserted_row_is_found_twice :
    let c := ((new [("by_name", ["name"])]).receive (inserted 1 (named "1" "a"))).receive
      (inserted 1 (named "1" "a"))
    c.rowsWith ["name"] [some "a"] = [named "1" "a"] ∧
    c.lookupByIndex "by_name" [some "a"] = [named "1" "a", named "1" "a"] :=
  ⟨rfl, rfl⟩

end Laredo.Client
