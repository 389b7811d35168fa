import Laredo.Client.Listener
import Laredo.Client.Reconnect
import Laredo.Snapshotter.SourceSub

/-!
# Agreement

The copies of one table: the indexed and the fan-out target, the client, the subscription of the
snapshot writer, and the archive.
-/

namespace Laredo

open TableChange Engine Snapshotter List
open Fanout (Op AppendEnv Target JournalEntry Journal)
open Snapshotter (Adapter Edit Change WrittenSafely foldChanges)

variable {P V : Type} [GoValue V]

def idKey (row : Row V) : String := GoValue.sprint (row.get "id")

lemma memory_buildKey_id : Memory.buildKey ["id"] = (idKey : Row V → String) := by
  funext row
  simp [Memory.buildKey, idKey]

lemma fanout_buildKey_id {cols : List ColumnDefinition}
    (h : (cols.filter (·.primaryKey)).map (·.name) = ["id"]) :
    Fanout.buildKey cols = (idKey : Row V → String) := by
  funext row
  have hparts : Fanout.keyParts cols row = [idKey row] := by
    have hmap : Fanout.keyParts cols row = ((cols.filter (·.primaryKey)).map (·.name)).map
        fun name => GoValue.sprint (row.get name) := by simp [Fanout.keyParts]
    rw [hmap, h]
    rfl
  simp [Fanout.buildKey, hparts]

lemma rowKey_id : (fun row : Row V => rowKey ["id"] (some row)) = idKey := rfl

def TableChange.callbacks (x : P × TableChange V) : List (Op P V) :=
  [.setChangePosition (some x.1), x.2.op]

lemma rows_indexed {t : Memory.IndexedTarget V} (hkey : t.pkCols = ["id"])
    {history : List (P × TableChange V)} {bef : Store V}
    (hwf : WellFormed idKey bef history) {ops : List (Op P V × AppendEnv)}
    (hops : ops.map Prod.fst = history.flatMap callbacks) :
    ((SyncTarget.indexed t : SyncTarget P V).run ops).rows =
      replay idKey t.store history := by
  rw [SyncTarget.rows_run, hops]
  show _ = replay idKey (SyncTarget.indexed t : SyncTarget P V).rows _
  generalize (SyncTarget.indexed t : SyncTarget P V).rows = rows
  clear hops
  induction history generalizing bef rows with
  | nil => rfl
  | cons x history ih =>
    obtain ⟨hfits, hrest⟩ := hwf
    have hfol : (SyncTarget.indexed t : SyncTarget P V).CanFollow x.2 := by
      intro row hrow
      rw [hrow] at hfits
      exact hfits
    have hkeys : (SyncTarget.indexed t : SyncTarget P V).key = idKey := by
      rw [← memory_buildKey_id, ← hkey]
      rfl
    have heff := hfol.effect_eq rows
    rw [hkeys] at heff
    show (history.flatMap callbacks).foldl _
      ((SyncTarget.indexed t).effect rows x.2.op) = _
    rw [heff]
    exact ih hrest _

lemma store_fanout {t : Target P V} (hkey : (t.cols.filter (·.primaryKey)).map (·.name) = ["id"])
    {history : List (P × TableChange V)} {ops : List (Op P V × AppendEnv)}
    (hops : ops.map Prod.fst = history.flatMap callbacks) :
    (t.run ops).store = replayBlind idKey t.store history := by
  have hrun : ∀ (ops : List (Op P V × AppendEnv)) (t : Target P V),
      (SyncTarget.fanout t).run ops = .fanout (t.run ops) := by
    intro ops
    induction ops with
    | nil => exact fun _ => rfl
    | cons op ops ih => exact fun t => ih (op.1.apply t op.2)
  have hrows := SyncTarget.rows_run (.fanout t) ops
  rw [hrun, hops] at hrows
  refine Eq.trans hrows ?_
  show (history.flatMap callbacks).foldl (SyncTarget.fanout t).effect t.store = _
  generalize t.store = rows
  have hkeys : (SyncTarget.fanout t : SyncTarget P V).key = idKey :=
    fanout_buildKey_id hkey
  clear hops hrows
  induction history generalizing rows with
  | nil => rfl
  | cons x history ih =>
    have heff : (SyncTarget.fanout t).effect rows (x.2.op : Op P V) =
        x.2.applyBlind idKey rows := by
      rw [← hkeys]
      cases x.2 <;> rfl
    show (history.flatMap callbacks).foldl _
      ((SyncTarget.fanout t).effect rows x.2.op) = _
    rw [heff]
    exact ih _

def TableChange.newRows : TableChange V → List (Row V)
  | .insert row | .update row _ => [row]
  | _ => []

/-- The rows of the target, and those of its entries past the cursor, survive the wire. -/
structure Carried (w : Wire P V) (t : Target P V) (cursor : Int) : Prop where
  rows : ∀ (k : String) (row : Row V), t.store[k]? = some row → w.Carries row
  new : ∀ e ∈ t.j.entriesSince cursor, ∀ row, e.newValues = some row → w.Carries row
  old : ∀ e ∈ t.j.entriesSince cursor, ∀ row, e.oldValues = some row → w.Carries row

variable {w : Wire P V} {t : Target P V} {cursor : Int}

omit [GoValue V] in
lemma Carried.record (h : Carried w t cursor) {env : AppendEnv} {act : ChangeAction}
    {old new : Option (Row V)} {pos : Option P} {store : Store V}
    (hst : ∀ (k : String) (row : Row V), store[k]? = some row → w.Carries row)
    (hold : ∀ row, old = some row → w.Carries row)
    (hnew : ∀ row, new = some row → w.Carries row) :
    Carried w { t with store := store, j := t.j.append env act old new pos } cursor := by
  have hent : ∀ e ∈ (t.j.append env act old new pos).entriesSince cursor,
      e ∈ t.j.entriesSince cursor ∨ e.oldValues = old ∧ e.newValues = new := by
    intro e he
    obtain ⟨hmem, hlt⟩ := Journal.mem_entriesSince.mp he
    rcases Journal.mem_entries_append hmem with hmem | rfl
    · exact .inl (Journal.mem_entriesSince.mpr ⟨hmem, hlt⟩)
    · exact .inr ⟨rfl, rfl⟩
  refine ⟨hst, fun e he row hrow => ?_, fun e he row hrow => ?_⟩
  · rcases hent e he with he | ⟨-, hvals⟩
    · exact h.new e he row hrow
    · exact hnew row (hvals ▸ hrow)
  · rcases hent e he with he | ⟨hvals, -⟩
    · exact h.old e he row hrow
    · exact hold row (hvals ▸ hrow)

lemma Carried.change (h : Carried w t cursor) {x : P × TableChange V}
    (hrows : ∀ row ∈ x.2.newRows, w.Carries row) (env env' : AppendEnv) :
    Carried w (x.2.op.apply (Op.apply t env (.setChangePosition (some x.1))) env') cursor := by
  have h : Carried w (t.setChangePosition (some x.1)) cursor := ⟨h.rows, h.new, h.old⟩
  show Carried w (x.2.op.apply (t.setChangePosition (some x.1)) env') cursor
  generalize t.setChangePosition (some x.1) = t at h
  have hins : ∀ (key : String) (row : Row V), w.Carries row → ∀ (k : String) (r : Row V),
      (t.store.insert key row)[k]? = some r → w.Carries r := by
    intro key row hrow k r hr
    rw [Std.ExtTreeMap.getElem?_insert] at hr
    split at hr
    · rw [← Option.some.inj hr]
      exact hrow
    · exact h.rows k r hr
  cases hch : x.2 with
  | insert row =>
    have hrow : w.Carries row := hrows row (by simp [hch, newRows])
    exact h.record (hins _ row hrow) nofun (by rintro r ⟨⟩; exact hrow)
  | update row identity =>
    have hrow : w.Carries row := hrows row (by simp [hch, newRows])
    exact h.record (hins _ row hrow) (fun r hr => h.rows _ r hr) (by rintro r ⟨⟩; exact hrow)
  | delete identity =>
    refine h.record (fun k r hr => ?_) (fun r hr => h.rows _ r hr) nofun
    rw [KeyedMap.getElem?_erase] at hr
    split at hr
    · cases hr
    · exact h.rows k r hr
  | truncate =>
    refine h.record (fun k r hr => ?_) nofun nofun
    simp at hr

lemma Carried.run (h : Carried w t cursor) {hist : List (P × TableChange V)}
    (hrows : ∀ x ∈ hist, ∀ row ∈ x.2.newRows, w.Carries row) {ops : List (Op P V × AppendEnv)}
    (hops : ops.map Prod.fst = hist.flatMap callbacks) :
    Carried w (t.run ops) cursor := by
  induction hist generalizing t ops with
  | nil =>
    obtain rfl : ops = [] := map_eq_nil_iff.mp hops
    exact h
  | cons x hist ih =>
    -- a change takes two callbacks
    match ops, hops with
    | (op, env) :: (op', env') :: ops, hops =>
      have hspl : op = .setChangePosition (some x.1) ∧ op' = x.2.op ∧
          ops.map Prod.fst = hist.flatMap callbacks := by
        simpa [callbacks] using hops
      obtain ⟨rfl, rfl, hrest⟩ := hspl
      exact ih (h.change (hrows x mem_cons_self) env env')
        (fun y hy => hrows y (mem_cons_of_mem _ hy)) hrest

lemma Client.store_applyEntries (c : Client V) (es : List (ReplicationJournalEntry V)) :
    (c.applyEntries es).1.store = es.foldl Client.applyRows c.store := by
  induction es generalizing c with
  | nil => rfl
  | cons entry es ih =>
    show ((c.applyJournalEntry entry).1.applyEntries es).1.store = _
    rw [ih, Client.store_applyJournalEntry]
    rfl

lemma store_client (hkey : KeyedById t.cols) (hkd : t.Keyed) {c : Client V}
    (hst0 : c.store = t.store) {ops : List (Op P V × AppendEnv)}
    (hcarried : Carried w (t.run ops) t.j.currentSequence)
    (hkept : (t.run ops).j.KeptSince t.j.currentSequence) :
    (c.applyEntries (((t.run ops).j.entriesSince t.j.currentSequence).map w.entry)).1.store =
      (t.run ops).store := by
  have hnow : t.Mirrors t.store t.j.currentSequence :=
    congrArg (Fanout.replayEntries t.cols t.store)
      (Journal.entriesSince_eq_nil (Int.le_refl t.j.currentSequence))
  have hmir := hnow.run ops hkd (Int.sub_lt_self _ (by decide))
    (Journal.keptSince_iff_retains.mp hkept)
  unfold Target.Mirrors at hmir
  rw [(Target.run_frame ops hkd).1] at hmir
  rw [Client.store_applyEntries, hst0, ← hmir, foldl_map]
  refine foldl_ext _ _ _ fun store e he => ?_
  exact Wire.applyRows_carried hkey (hcarried.new e he) (hcarried.old e he) store

structure Copies (w : Wire P V) (table : Store V) where
  indexed : Memory.IndexedTarget V
  fanout : Target P V
  client : Client V
  adapter : Adapter V
  keyed : KeyedMap.Keyed idKey table
  carried : ∀ (k : String) (row : Row V), table[k]? = some row → w.Carries row
  indexed_key : indexed.pkCols = ["id"]
  fanout_key : (fanout.cols.filter (·.primaryKey)).map (·.name) = ["id"]
  adapter_key : adapter.keyFields = ["id"]
  registered : adapter.registered = true
  indexed_rows : indexed.store = table
  fanout_rows : fanout.store = table
  client_rows : client.store = table
  adapter_rows : adapter.state = table

variable {table : Store V}

lemma Copies.carried_fanout (copies : Copies w table) :
    Carried w copies.fanout copies.fanout.j.currentSequence := by
  have hnone := Journal.entriesSince_eq_nil (Int.le_refl copies.fanout.j.currentSequence)
  refine ⟨?_, by simp [hnone], by simp [hnone]⟩
  rw [copies.fanout_rows]
  exact copies.carried

/-- After the history every copy holds the rows of the table. -/
structure Copies.Agree (copies : Copies w table) (history : List (P × TableChange V))
    (ops : List (Op P V × AppendEnv)) (events : List (ChangeEvent P V))
    (positionToString : Option P → String) (written : List (Change V)) : Prop where
  indexed : ((SyncTarget.indexed copies.indexed : SyncTarget P V).run ops).rows =
    replay idKey table history
  fanout : (copies.fanout.run ops).store = replay idKey table history
  client : (copies.client.applyEntries (((copies.fanout.run ops).j.entriesSince
    copies.fanout.j.currentSequence).map w.entry)).1.store = replay idKey table history
  adapter : (copies.adapter.run positionToString events).1.state =
    replay idKey table history
  archive : foldChanges table written = replay idKey table history

/-- **When all copies of a table agree**: if and only if every key that an update has moved a row
away from is hit by a later change, and the diff is `WrittenSafely`. -/
theorem copies_agree_iff (copies : Copies w table) {history : List (P × TableChange V)}
    (hwf : WellFormed idKey table history)
    (hrows : ∀ x ∈ history, ∀ row ∈ x.2.newRows, w.Carries row)
    {ops : List (Op P V × AppendEnv)}
    (hops : ops.map Prod.fst = history.flatMap callbacks)
    (hkept : (copies.fanout.run ops).j.KeptSince copies.fanout.j.currentSequence)
    (name : TableIdentifier) (positionToString : Option P → String) {written : List (Change V)}
    (hwritten : written.Perm ((Edit.collect ["id"] ∅ (copies.adapter.run positionToString
      (history.map (event name))).2).toList.map Prod.snd)) :
    copies.Agree history ops (history.map (event name)) positionToString written ↔
      (∀ k, ¬ Stale.Left (Moves idKey k) (Hits idKey k)
        (history.map Prod.snd)) ∧
      WrittenSafely ["id"] table (history.map fun x => Edit.ofChange x.2) written := by
  obtain ⟨hstt, hedits⟩ := Adapter.run_events positionToString hwf copies.registered name
  rw [copies.adapter_key, copies.adapter_rows, rowKey_id] at hstt
  rw [hedits] at hwritten
  have hdiff := diff_replays_blind_iff ["id"] table _ written hwritten
  rw [Edit.replayBlind_ofChange hwf, rowKey_id] at hdiff
  have hfanout := store_fanout copies.fanout_key hops
  rw [copies.fanout_rows] at hfanout
  have hclient := store_client (c := copies.client) (w := w) (.inl copies.fanout_key) (by
      unfold Target.Keyed
      rw [fanout_buildKey_id copies.fanout_key, copies.fanout_rows]
      exact copies.keyed)
    (copies.client_rows.trans copies.fanout_rows.symm)
    (copies.carried_fanout.run hrows hops) hkept
  rw [← replayBlind_eq_iff hwf, ← hdiff]
  constructor
  · intro h
    have hsame := hfanout.symm.trans h.fanout
    exact ⟨hsame, h.archive.trans hsame.symm⟩
  · rintro ⟨hsame, harchive⟩
    refine ⟨?_, hfanout.trans hsame, ?_, hstt.trans hsame, harchive.trans hsame⟩
    · rw [rows_indexed copies.indexed_key hwf hops, copies.indexed_rows]
    · rw [hclient, hfanout, hsame]

def emptyCopies : Copies Link.plainWire (∅ : Store Text) where
  indexed := { Memory.IndexedTarget.new [] [] with pkCols := ["id"] }
  fanout := (Target.new { maxJournalEntries := 0, maxJournalAge := 0 }).onInit [⟨"id", true, 1⟩]
  client := Client.new []
  adapter := ⟨["id"], ∅, "", true⟩
  keyed := KeyedMap.Keyed.empty
  carried k row h := by simp at h
  indexed_key := rfl
  fanout_key := rfl
  adapter_key := rfl
  registered := rfl
  indexed_rows := rfl
  fanout_rows := rfl
  client_rows := rfl
  adapter_rows := rfl

def plainOps (history : List (Int × TableChange Text)) :
    List (Op Int Text × AppendEnv) :=
  (history.flatMap callbacks).map fun op => (op, ⟨0, 0, []⟩)

/-- Row 1 becomes row 2. The indexed target has row 2; all other copies have both. -/
theorem moved_row_stays_behind : let history : List (Int × TableChange Text) :=
      [(1, .insert (rowWithId "1")), (2, .update (rowWithId "2") (some (rowWithId "1")))]
    let events := history.map (event ⟨"public", "events"⟩)
    let fanout := emptyCopies.fanout.run (plainOps history)
    let subscribed := emptyCopies.adapter.run (fun _ => "") events
    let written := (Edit.collect ["id"] ∅ subscribed.2).toList.map Prod.snd
    WellFormed idKey ∅ history ∧ (replay idKey ∅ history).keys = ["2"] ∧
      ((SyncTarget.indexed emptyCopies.indexed).run (plainOps history)).rows.keys = ["2"] ∧
      fanout.store.keys = ["1", "2"] ∧
      (emptyCopies.client.applyEntries ((fanout.j.entriesSince 0).map
        Link.plainWire.entry)).1.store.keys = ["1", "2"] ∧
      subscribed.1.state.keys = ["1", "2"] ∧ (foldChanges ∅ written).keys = ["1", "2"] ∧
      ¬ emptyCopies.Agree history (plainOps history) events (fun _ => "") written := by
  intro history events fanout subscribed written
  have hst : fanout.store.keys = ["1", "2"] := by decide +kernel
  have htab : (replay idKey ∅ history).keys = ["2"] := by decide +kernel
  refine ⟨by decide +kernel, htab, by decide +kernel, hst, by decide +kernel,
    by decide +kernel, by decide +kernel, fun h => ?_⟩
  have hkeys := congrArg Std.ExtTreeMap.keys h.fanout
  rw [htab] at hkeys
  rw [show (emptyCopies.fanout.run (plainOps history)).store.keys = _ from hst] at hkeys
  exact absurd hkeys (by decide)

theorem copies_agree_iff_run : let history : List (Int × TableChange Text) :=
      [(1, .insert (rowWithId "1")), (2, .update (rowWithId "2") (some (rowWithId "1"))),
        (3, .insert (rowWithId "1"))]
    let events := history.map (event ⟨"public", "events"⟩)
    let written := (Edit.collect ["id"] ∅
      (emptyCopies.adapter.run (fun _ => "") events).2).toList.map Prod.snd
    (replay idKey ∅ history).keys = ["1", "2"] ∧
      emptyCopies.Agree history (plainOps history) events (fun _ => "") written := by
  intro history events written
  have hrows : ∀ x ∈ history, ∀ row ∈ x.2.newRows, Link.plainWire.Carries row := by
    have hid : ∀ x ∈ history, ∀ row ∈ x.2.newRows, row["id"]?.isSome := by decide +kernel
    exact fun x hx row hrow => ⟨hid x hx row hrow, rfl⟩
  refine ⟨by decide +kernel, (copies_agree_iff emptyCopies (by decide +kernel) hrows
    (by simp [plainOps, Function.comp_def]) ?_ ⟨"public", "events"⟩ (fun _ => "")
    (.refl _)).mpr ⟨fun k => ?_, trivial⟩⟩
  · refine Journal.keptSince_iff_retains.mpr ?_
    decide +kernel
  · have hone : idKey (rowWithId "1") = "1" := by decide +kernel
    simpa [history, Stale.left_cons, Stale.not_left_nil, Moves, Hits, hone]
      using fun (hk : "1" = k) _ => hk

end Laredo
