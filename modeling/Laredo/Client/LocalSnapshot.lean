import Laredo.Client.Indexes

/-!
# Local snapshot

The snapshot a client leaves on disk when it stops, and what a new client is after loading it
(`client/fanout/client.go`).
-/

namespace Laredo.Client

open Std List Option KeyedMap ExtTreeMap SecondaryIndex

variable {V Data : Type} [GoValue V]

structure LocalSnapshot (V : Type) [GoValue V] where
  lastSeq : Int
  snapshotID : String
  lastSourcePosition : String
  rows : Store V
  keyed : KeyedMap.Keyed rowKey rows

structure SnapshotCodec (V Data : Type) [GoValue V] where
  marshal : LocalSnapshot V → Option Data
  unmarshal : Data → Option (LocalSnapshot V)
  unmarshal_marshal : ∀ snap, (marshal snap).bind unmarshal = some snap

def saveSnapshot (c : Client V) (codec : SnapshotCodec V Data) (file : Option Data) : Option Data :=
  match codec.marshal ⟨c.lastSeq, c.lastSnapshotID, c.lastSourcePosition, c.store, c.keyed⟩ with
  | none => file
  | some data => some data

def loadSnapshot (c : Client V) (codec : SnapshotCodec V Data) (file : Option Data) : Client V :=
  match file.bind codec.unmarshal with
  | none => c
  | some snap =>
      { c with
        store := snap.rows
        keyed := snap.keyed
        lastSeq := snap.lastSeq
        lastSnapshotID := snap.snapshotID
        lastSourcePosition := snap.lastSourcePosition }

/-- A new client with the configuration of the saved one, after loading its snapshot. -/
def reloaded (c : Client V) (config : List (String × List String)) (codec : SnapshotCodec V Data)
    (file : Option Data) : Client V :=
  (new config).loadSnapshot codec (c.saveSnapshot codec file)

def afterEntries (c : Client V) (entries : List (ReplicationJournalEntry V)) : Client V :=
  entries.foldl (fun c entry => (c.applyJournalEntry entry).1) c

def SameAnswers (c c' : Client V) : Prop :=
  c.store = c'.store ∧ ∀ name values, c.lookupByIndex name values = c'.lookupByIndex name values

def SameCoordinates (c c' : Client V) : Prop :=
  c.lastSeq = c'.lastSeq ∧ c.lastSnapshotID = c'.lastSnapshotID ∧
    c.lastSourcePosition = c'.lastSourcePosition

section

variable {c c' : Client V} {config : List (String × List String)}

lemma reloaded_spec (c : Client V) (config : List (String × List String))
    (codec : SnapshotCodec V Data) (file : Option Data) :
    (c.reloaded config codec file).store = c.store ∧
    (c.reloaded config codec file).indexes = (new config : Client V).indexes ∧
    SameCoordinates c (c.reloaded config codec file) := by
  have hcodec := codec.unmarshal_marshal
    ⟨c.lastSeq, c.lastSnapshotID, c.lastSourcePosition, c.store, c.keyed⟩
  obtain ⟨data, hdata, hsnap⟩ := bind_eq_some_iff.mp hcodec
  simp [reloaded, loadSnapshot, saveSnapshot, hdata, hsnap, SameCoordinates]

/-- The entries of an index: a list under a key is not empty, and it has keys of rows with that
key. -/
def SecondaryIndex.Filed (V : Type) [GoValue V] (idx : SecondaryIndex) : Prop :=
  ∀ (key : String) (rks : List String), idx.entries[key]? = some rks → rks ≠ [] ∧
    ∀ rk ∈ rks, ∃ row : Row V, rowKey row = rk ∧ idx.keyOf row = key

lemma SecondaryIndex.Filed.add {idx : SecondaryIndex} (h : idx.Filed V) (row : Row V) :
    (idx.add (rowKey row) row).Filed V := by
  intro key rks hrks
  rw [SecondaryIndex.add, ExtTreeMap.getElem?_insert] at hrks
  split at hrks
  next hkey =>
    have hkey := Std.LawfulEqOrd.eq_of_compare hkey
    cases hrks
    refine ⟨by simp, fun rk hrk => ?_⟩
    rcases mem_append.mp hrk with hold | hnew
    · cases hent : idx.entries[idx.keyOf row]? with
      | none => simp [hent] at hold
      | some rks =>
        rw [hent] at hold
        exact hkey ▸ (h _ rks hent).2 rk hold
    · exact ⟨row, (mem_singleton.mp hnew).symm, hkey⟩
  next => exact h key rks hrks

lemma SecondaryIndex.Filed.remove {idx : SecondaryIndex} (h : idx.Filed V) (rk : String)
    (row : Row V) : (idx.remove rk row).Filed V := by
  intro key rks hrks
  unfold SecondaryIndex.remove at hrks
  dsimp only at hrks
  split at hrks
  next =>
    rw [ExtTreeMap.getElem?_erase] at hrks
    split at hrks
    · cases hrks
    · exact h key rks hrks
  next hleft =>
    rw [ExtTreeMap.getElem?_insert] at hrks
    split at hrks
    next hkey =>
      have hkey := Std.LawfulEqOrd.eq_of_compare hkey
      cases hrks
      refine ⟨by simpa using hleft, fun rk' hrk' => ?_⟩
      cases hent : idx.entries[idx.keyOf row]? with
      | none => simp [hent] at hrk'
      | some rks =>
        rw [hent] at hrk'
        exact hkey ▸ (h _ rks hent).2 rk' (List.mem_of_mem_erase hrk')
    next => exact h key rks hrks

def Configured (config : List (String × List String)) (c : Client V) : Prop :=
  (∀ name : String, c.indexes[name]?.map fields =
    (new config : Client V).indexes[name]?.map fields) ∧
  ∀ (name : String) (idx : SecondaryIndex), c.indexes[name]? = some idx → idx.Filed V

section

variable (h : Configured config c)
include h

lemma Configured.of_map {f : SecondaryIndex → SecondaryIndex}
    (hidxs : c'.indexes = c.indexes.map fun _ idx => f idx)
    (hfields : ∀ idx, (f idx).fields = idx.fields)
    (hf : ∀ idx : SecondaryIndex, idx.Filed V → (f idx).Filed V) : Configured config c' := by
  refine ⟨fun name => ?_, fun name idx hidx => ?_⟩
  · rw [hidxs, ExtTreeMap.getElem?_map, Option.map_map, ← h.1]
    simp [Function.comp_def, hfields]
  · rw [hidxs, ExtTreeMap.getElem?_map, map_eq_some_iff] at hidx
    obtain ⟨idx', hidx', rfl⟩ := hidx
    exact hf idx' (h.2 name idx' hidx')

lemma Configured.put (row : Row V) : Configured config (c.put row) :=
  h.of_map rfl (fun _ => rfl) fun _ hidx => hidx.add row

lemma Configured.unindex (key : String) : Configured config (c.unindex key) := by
  unfold Client.unindex
  split
  · exact h.of_map rfl (fun _ => rfl) fun _ hidx => hidx.remove key _
  · exact h

lemma Configured.clear : Configured config c.clear :=
  h.of_map rfl (fun _ => rfl) fun _ _ => by simp [SecondaryIndex.Filed, SecondaryIndex.clear]

lemma Configured.receive (msg : SyncResponse V) : Configured config (c.receive msg) := by
  cases msg with
  | snapshotBegin => exact h.clear
  | snapshotRow row =>
    cases row with
    | none => exact h
    | some row => exact h.put row
  | journalEntry entry =>
    have hadvance : Configured config (c.advance entry) := h
    show Configured config ((c.advance entry).applyChange entry).1
    unfold Client.applyChange
    cases entry.action with
    | insert =>
      cases entry.newValues with
      | none => exact h
      | some row => exact hadvance.put row
    | update =>
      cases entry.newValues with
      | none => exact h
      | some row => exact (hadvance.unindex _).put row
    | delete =>
      cases entry.oldValues with
      | none => exact h
      | some row => exact hadvance.unindex (rowKey row)
    | truncate => exact hadvance.clear
  | _ => exact h

end

lemma Configured.new (config : List (String × List String)) :
    Configured config (new config : Client V) := by
  refine ⟨fun _ => rfl, fun name idx hidx key rks hrks => ?_⟩
  simp [entries_new config hidx] at hrks

lemma indexes_unindex_congr (hst : c.store = c'.store) (hidxs : c.indexes = c'.indexes)
    (key : String) : (c.unindex key).indexes = (c'.unindex key).indexes := by
  have hrow : c.store[key]? = c'.store[key]? := by rw [hst]
  cases hold : c'.store[key]? <;> simp [Client.unindex, hrow, hold, hidxs]

lemma indexes_applyChange_congr (hst : c.store = c'.store) (hidxs : c.indexes = c'.indexes)
    (entry : ReplicationJournalEntry V) :
    (c.applyChange entry).1.indexes = (c'.applyChange entry).1.indexes := by
  unfold Client.applyChange
  cases entry.action with
  | insert => cases entry.newValues <;> simp [Client.put, hidxs]
  | update =>
    cases entry.newValues with
    | none => exact hidxs
    | some row => simp [Client.put, indexes_unindex_congr hst hidxs]
  | delete =>
    cases entry.oldValues with
    | none => exact hidxs
    | some row => simp [Client.erase, indexes_unindex_congr hst hidxs]
  | truncate => simp [Client.clear, hidxs]

lemma sameAnswers_afterEntries (hst : c.store = c'.store) (hidxs : c.indexes = c'.indexes)
    (es : List (ReplicationJournalEntry V)) :
    SameAnswers (c.afterEntries es) (c'.afterEntries es) := by
  induction es generalizing c c' with
  | nil => exact ⟨hst, fun name values => by simp [afterEntries, lookupByIndex, hst, hidxs]⟩
  | cons entry es ih =>
    refine ih ?_ ?_
    · simp [store_applyJournalEntry, hst]
    · have hadv : (c.advance entry).store = (c'.advance entry).store := hst
      exact indexes_applyChange_congr hadv hidxs _

lemma lookupByIndex_insert {name : String} {idx : SecondaryIndex}
    (hidx : c.indexes[name]? = some idx) (row : Row V) :
    ((c.afterEntries [⟨0, .insert, "", some row, none⟩]).lookupByIndex name
      (idx.fields.map row.get)).length =
    ((idx.at (idx.keyOf row)).filterMap
      fun rk => (KeyedMap.put rowKey c.store row)[rk]?).length + 1 := by
  have hadded : (c.afterEntries [⟨0, .insert, "", some row, none⟩]).indexes[name]? =
      some (idx.add (rowKey row) row) := by
    show (addToIndexes c.indexes (rowKey row) row)[name]? = _
    simp [addToIndexes, hidx]
  have hst : (c.afterEntries [⟨0, .insert, "", some row, none⟩]).store =
      KeyedMap.put rowKey c.store row := rfl
  have hat : (idx.add (rowKey row) row).at (indexKey (idx.fields.map row.get)) =
      idx.at (idx.keyOf row) ++ [rowKey row] := by
    rw [at_add]
    exact if_pos rfl
  simp [lookupByIndex, hadded, hst, hat, getElem?_put]

/-- **A reloaded client answers like the saved one**, now and after any entries, just when the
indexes of the saved one are empty. -/
theorem reloaded_answers_iff (config : List (String × List String)) (codec : SnapshotCodec V Data)
    (file : Option Data)
    (hrun : Transition.Run Receives (new config) c) :
    (SameCoordinates c (c.reloaded config codec file) ∧
      SameAnswers c (c.reloaded config codec file) ∧
      ∀ entries, SameAnswers (c.afterEntries entries)
        ((c.reloaded config codec file).afterEntries entries)) ↔
    ∀ (name : String) (idx : SecondaryIndex), c.indexes[name]? = some idx → idx.entries = ∅ := by
  have hcfg : Configured config c :=
    hrun.invariant (Configured config) (.new config) fun h _ hstep => hstep ▸ h.receive _
  obtain ⟨hst, hnew, hcoor⟩ := reloaded_spec c config codec file
  constructor
  · rintro ⟨-, -, hsame⟩ name idx hidx
    by_contra hne
    obtain ⟨key, hkey⟩ : ∃ key, key ∈ idx.entries := by
      simpa [eq_empty_iff_forall_not_mem] using hne
    obtain ⟨rks, hrks⟩ := isSome_iff_exists.mp (mem_iff_isSome_getElem?.mp hkey)
    obtain ⟨hcons, hfrom⟩ := hcfg.2 name idx hidx key rks hrks
    obtain ⟨rk, hrk⟩ := exists_mem_of_ne_nil rks hcons
    obtain ⟨row, rfl, rfl⟩ := hfrom rk hrk
    -- the row of the entry, inserted again, is found twice in one client and once in the other
    obtain ⟨idx', hidx', hfields⟩ := map_eq_some_iff.mp
      ((hcfg.1 name).symm.trans (congrArg _ hidx))
    have hlen := congrArg List.length
      ((hsame [⟨0, .insert, "", some row, none⟩]).2 name (idx.fields.map row.get))
    have hnil : idx'.at (idx'.keyOf row) = [] := by
      simp [SecondaryIndex.at, entries_new config hidx']
    have hfnd : 0 < ((idx.at (idx.keyOf row)).filterMap
        fun rk => (KeyedMap.put rowKey c.store row)[rk]?).length := by
      refine length_pos_of_mem (a := row) (List.mem_filterMap.mpr ⟨rowKey row, ?_, ?_⟩)
      · rwa [SecondaryIndex.at, hrks]
      · rw [getElem?_put, if_pos rfl]
    rw [lookupByIndex_insert hidx, ← hfields, lookupByIndex_insert (hnew ▸ hidx'), hnil] at hlen
    simp only [filterMap_nil, length_nil] at hlen
    omega
  · intro hemp
    have hidxs : c.indexes = (new config : Client V).indexes := by
      refine ExtTreeMap.ext_getElem? fun name => ?_
      have hfields := hcfg.1 name
      cases hidx : c.indexes[name]? with
      | none => simpa [hidx] using hfields
      | some idx =>
        rw [hidx, eq_comm, map_some, map_eq_some_iff] at hfields
        obtain ⟨idx', hidx', hfields⟩ := hfields
        rw [hidx']
        have hes := (hemp name idx hidx).trans (entries_new config hidx').symm
        cases idx
        cases idx'
        simp_all
    have hsame := sameAnswers_afterEntries hst.symm (hidxs.trans hnew.symm)
    exact ⟨hcoor, hsame [], hsame⟩

end

def plainCodec : SnapshotCodec Text (LocalSnapshot Text) :=
  ⟨some, some, fun _ => rfl⟩

theorem reloaded_answers_iff_unindexed : ∃ c : Client Text, Transition.Run Receives (new []) c ∧
    c.store = KeyedMap.put rowKey ∅ (named "1" "a") ∧
    SameAnswers (c.afterEntries [⟨2, .delete, "", none, some (named "1" "a")⟩])
      ((c.reloaded [] plainCodec none).afterEntries
        [⟨2, .delete, "", none, some (named "1" "a")⟩]) := by
  have h : Transition.Run Receives (new [] : Client Text) _ := .refl _
  have h := h.snoc (a := inserted 1 (named "1" "a")) rfl
  refine ⟨_, h, rfl, ((reloaded_answers_iff [] plainCodec none h).mpr ?_).2.2 _⟩
  intro name idx hidx
  have hnone : (∅ : Indexes)[name]? = some idx := hidx
  simp at hnone

/-- The row that a lookup finds before the restart is not found after it. -/
theorem reloaded_lookup_is_empty :
    let c := (new [("by_name", ["name"])]).receive (inserted 1 (named "1" "a"))
    let c' := c.reloaded [("by_name", ["name"])] plainCodec none
    c.lookupByIndex "by_name" [some "a"] = [named "1" "a"] ∧
    c'.store = c.store ∧ c'.lookupByIndex "by_name" [some "a"] = [] :=
  ⟨rfl, rfl, rfl⟩

end Laredo.Client
