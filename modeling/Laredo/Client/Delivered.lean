import Laredo.Client.Link

/-!
# Delivered

The two ends of a replication stream, each with the invariant that makes it trustworthy. Between
them are the messages in flight.
-/

namespace Laredo

open Replication Fanout Client KeyedMap List Option Journal Target

variable {P V : Type} [GoValue V]

/-- The primary key is the column `id`, or there is none and the target falls back to
that column. -/
def KeyedById (columns : List ColumnDefinition) : Prop :=
  (columns.filter (·.primaryKey)).map (·.name) = ["id"] ∨ columns.filter (·.primaryKey) = []

instance (columns : List ColumnDefinition) : Decidable (KeyedById columns) :=
  inferInstanceAs (Decidable (_ ∨ _))

lemma buildKey_eq_rowKey {columns : List ColumnDefinition} (h : KeyedById columns)
    {row : Row V} (hid : row["id"]?.isSome) : buildKey columns row = rowKey row := by
  obtain ⟨id, hid⟩ := isSome_iff_exists.mp hid
  have hparts : keyParts columns row = ((columns.filter (·.primaryKey)).map (·.name)).map
      fun name => GoValue.sprint (row.get name) := by
    simp [keyParts]
  unfold buildKey rowKey
  rw [hparts, hid]
  rcases h with h | h
  · simp [h, Row.get, hid]
  · simp [h]

structure Wire.Carries (w : Wire P V) (row : Row V) : Prop where
  id : row["id"]?.isSome
  encode : w.encode row = some row

/-- An entry of the journal is what led from the rows at the sequence number before it to
those at its own, and its rows survive the wire. -/
structure Recorded (w : Wire P V) (columns : List ColumnDefinition) (history : Int → Store V)
    (current : Int) (e : JournalEntry P V) : Prop where
  pos : 1 ≤ e.sequence
  le : e.sequence ≤ current
  step : history e.sequence = applyEntry columns (history (e.sequence - 1)) e
  new : ∀ row, e.newValues = some row → w.Carries row
  old : ∀ row, e.oldValues = some row → w.Carries row

section Recorded

variable {w : Wire P V} {columns : List ColumnDefinition} {history history' : Int → Store V}
variable {current current' : Int} {e : JournalEntry P V}

lemma Recorded.mono (h : Recorded w columns history current e) (hle : current ≤ current')
    (hag : ∀ n ≤ current, history' n = history n) :
    Recorded w columns history' current' e := by
  have hbd := h.le
  refine ⟨h.pos, Int.le_trans hbd hle, ?_, h.new, h.old⟩
  rw [hag _ hbd, hag _ (by omega)]
  exact h.step

lemma Recorded.backfill (h : Recorded w columns history current e) (position : P) :
    Recorded w columns history current (e.backfill position) := by
  unfold JournalEntry.backfill
  split
  · exact ⟨h.pos, h.le, h.step, h.new, h.old⟩
  · exact h

lemma Wire.applyRows_carried (hid : KeyedById columns)
    (hnew : ∀ row, e.newValues = some row → w.Carries row)
    (hold : ∀ row, e.oldValues = some row → w.Carries row) (store : Store V) :
    applyRows store (w.entry e) = applyEntry columns store e := by
  have hbind : ∀ row : Option (Row V), (∀ r, row = some r → w.Carries r) →
      row.bind w.encode = row := by
    intro row hrow
    cases row with
    | none => rfl
    | some r => exact (hrow r rfl).encode
  unfold applyRows applyEntry
  simp only [Wire.entry, hbind _ hnew, hbind _ hold]
  cases e.action with
  | insert | update =>
    cases hvals : e.newValues with
    | none => rfl
    | some row =>
      show store.insert (rowKey row) row = store.insert (buildKey columns row) row
      rw [buildKey_eq_rowKey hid (hnew row hvals).id]
  | delete =>
    cases hvals : e.oldValues with
    | none => rfl
    | some row =>
      show store.erase (rowKey row) = store.erase (buildKey columns row)
      rw [buildKey_eq_rowKey hid (hold row hvals).id]
  | truncate => rfl

lemma Recorded.applyRows (h : Recorded w columns history current e) (hid : KeyedById columns)
    (store : Store V) : applyRows store (w.entry e) = applyEntry columns store e :=
  Wire.applyRows_carried hid h.new h.old store

end Recorded

/-- The replica is right whenever it is not inside of a snapshot, and its coordinates
are those of the rows it holds. -/
structure Fine (w : Wire P V) (history : Int → Store V) (current : Int) (r : Replica V) :
    Prop where
  nonneg : 0 ≤ r.client.lastSeq
  le : r.client.lastSeq ≤ current
  rows : r.loading = false → r.client.store = history r.client.lastSeq
  loading : r.loading = true → r.client.lastSeq = 0 ∧ r.client.lastSourcePosition = ""
  position : r.client.lastSourcePosition ≠ "" →
    1 ≤ r.client.lastSeq ∧ ∃ src p, w.src = some src ∧
      r.client.lastSourcePosition = w.positionToString p
  snapshot : r.loading = false → r.client.lastSeq = 0 → r.client.lastSnapshotID ≠ "" →
    ∃ ms, r.client.lastSnapshotID = snapshotID 0 ms

def Delivers (w : Wire P V) (history : Int → Store V) (current : Int) :
    Replica V → List (SyncResponse V) → Prop
  | r, [] => Fine w history current r
  | r, msg :: msgs => Fine w history current r ∧ Delivers w history current (r.apply msg) msgs

section Deliver

variable {w : Wire P V} {columns : List ColumnDefinition} {history history' : Int → Store V}
variable {current current' : Int} {r : Replica V} {msgs : List (SyncResponse V)}

lemma Fine.mono (h : Fine w history current r) (hle : current ≤ current')
    (hag : ∀ n ≤ current, history' n = history n) : Fine w history' current' r where
  nonneg := h.nonneg
  le := Int.le_trans h.le hle
  rows := fun hl => by rw [hag _ h.le, h.rows hl]
  loading := h.loading
  position := h.position
  snapshot := h.snapshot

lemma Fine.congr (h : Fine w history current r) {r' : Replica V}
    (hld : r'.loading = r.loading) (hst : r'.client.store = r.client.store)
    (hseq : r'.client.lastSeq = r.client.lastSeq)
    (hid : r'.client.lastSnapshotID = r.client.lastSnapshotID)
    (hpos : r'.client.lastSourcePosition = r.client.lastSourcePosition) :
    Fine w history current r' := by
  constructor
  · rw [hseq]; exact h.nonneg
  · rw [hseq]; exact h.le
  · rw [hld, hseq, hst]; exact h.rows
  · rw [hld, hseq, hpos]; exact h.loading
  · rw [hseq, hpos]; exact h.position
  · rw [hld, hseq, hid]; exact h.snapshot

section

variable (h : Delivers w history current r msgs)
include h

lemma Delivers.head : Fine w history current r := by
  cases msgs with
  | nil => exact h
  | cons msg msgs => exact h.1

lemma Delivers.append {msgs' : List (SyncResponse V)}
    (h' : Delivers w history current (r.run msgs) msgs') :
    Delivers w history current r (msgs ++ msgs') := by
  induction msgs generalizing r with
  | nil => exact h'
  | cons msg msgs ih => exact ⟨h.1, ih h.2 h'⟩

lemma Delivers.fine_run : Fine w history current (r.run msgs) := by
  induction msgs generalizing r with
  | nil => exact h
  | cons msg msgs ih => exact ih h.2

lemma Delivers.mono (hle : current ≤ current') (hag : ∀ n ≤ current, history' n = history n) :
    Delivers w history' current' r msgs := by
  induction msgs generalizing r with
  | nil => exact Fine.mono h hle hag
  | cons msg msgs ih => exact ⟨h.1.mono hle hag, ih h.2⟩

end

lemma Fine.entry (h : Fine w history current r) (hid : KeyedById columns)
    {e : JournalEntry P V} (he : Recorded w columns history current e)
    (hld : r.loading = false) (hnext : e.sequence = r.client.lastSeq + 1) :
    Fine w history current (r.apply (.journalEntry (w.entry e))) where
  nonneg := by
    show 0 ≤ (r.client.applyJournalEntry (w.entry e)).1.lastSeq
    rw [lastSeq_applyJournalEntry]
    exact Int.le_trans (by decide) he.pos
  le := by
    show (r.client.applyJournalEntry (w.entry e)).1.lastSeq ≤ current
    rw [lastSeq_applyJournalEntry]
    exact he.le
  rows := by
    intro _
    show (r.client.applyJournalEntry (w.entry e)).1.store =
      history (r.client.applyJournalEntry (w.entry e)).1.lastSeq
    rw [lastSeq_applyJournalEntry, store_applyJournalEntry, he.applyRows hid, h.rows hld]
    show applyEntry columns (history r.client.lastSeq) e = history e.sequence
    rw [he.step, show e.sequence - 1 = r.client.lastSeq by omega]
  loading := fun hl => absurd (show r.loading = true from hl) (by simp [hld])
  position := by
    show (r.client.applyJournalEntry (w.entry e)).1.lastSourcePosition ≠ "" →
      1 ≤ (r.client.applyJournalEntry (w.entry e)).1.lastSeq ∧ ∃ src p, w.src = some src ∧
        (r.client.applyJournalEntry (w.entry e)).1.lastSourcePosition = w.positionToString p
    rw [lastSeq_applyJournalEntry, lastSourcePosition_applyJournalEntry]
    intro hne
    refine ⟨he.pos, ?_⟩
    by_cases hpos : (w.entry e).sourcePosition ≠ ""
    · rw [if_pos hpos]
      -- something was printed, so there are a source and a position
      have hprinted : w.posToStr e.position ≠ "" := hpos
      show ∃ src p, w.src = some src ∧ w.posToStr e.position = w.positionToString p
      unfold Wire.posToStr at hprinted ⊢
      cases hsrc : w.src with
      | none => simp [hsrc] at hprinted
      | some src =>
        cases hp : e.position with
        | none => simp [hp] at hprinted
        | some p => exact ⟨src, p, rfl, rfl⟩
    · rw [if_neg hpos] at hne ⊢
      exact (h.position hne).2
  snapshot := by
    intro _ hzero
    have hseq : (r.client.applyJournalEntry (w.entry e)).1.lastSeq = 0 := hzero
    rw [lastSeq_applyJournalEntry] at hseq
    have hpos : 1 ≤ (w.entry e).sequence := he.pos
    omega

lemma delivers_rows (hr : Fine w history current r) (hld : r.loading = true)
    {rows : List (Row V)} (hrows : ∀ row ∈ rows, w.Carries row) :
    Delivers w history current r (rows.map fun row => .snapshotRow (w.encode row)) ∧
      (r.run (rows.map fun row => .snapshotRow (w.encode row))).loading = true ∧
      (r.run (rows.map fun row => .snapshotRow (w.encode row))).client.store =
        load rowKey r.client.store rows ∧
      (r.run (rows.map fun row => .snapshotRow (w.encode row))).client.lastSnapshotID =
        r.client.lastSnapshotID := by
  induction rows generalizing r with
  | nil => exact ⟨hr, hld, rfl, rfl⟩
  | cons row rows ih =>
    have hrow : w.encode row = some row := (hrows row mem_cons_self).encode
    have hfine : Fine w history current (r.apply (.snapshotRow (some row))) :=
      ⟨hr.nonneg, hr.le, fun hl => absurd (hl.symm.trans hld) (by decide), hr.loading,
        hr.position, fun hl => absurd (hl.symm.trans hld) (by decide)⟩
    have hrest := ih (r := r.apply (.snapshotRow (some row))) hfine hld
      fun row' hrow' => hrows row' (mem_cons_of_mem _ hrow')
    simp only [map_cons, hrow]
    exact ⟨⟨hr, hrest.1⟩, hrest.2⟩

structure Captured (w : Wire P V) (history : Int → Store V) (current : Int)
    (snap : Snapshot V) : Prop where
  nonneg : 0 ≤ snap.sequence
  le : snap.sequence ≤ current
  id : ∃ ms, snap.id = snapshotID snap.sequence ms
  carries : ∀ row ∈ snap.rows, w.Carries row
  rows : load rowKey ∅ snap.rows = history snap.sequence

lemma Captured.mono {snap : Snapshot V} (h : Captured w history current snap)
    (hle : current ≤ current') (hag : ∀ n ≤ current, history' n = history n) :
    Captured w history' current' snap :=
  ⟨h.nonneg, Int.le_trans h.le hle, h.id, h.carries, by rw [hag _ h.le, h.rows]⟩

lemma delivers_snapshot (hr : Fine w history current r) (hzero : r.client.lastSeq = 0)
    {call : Call P V} (hflt : call.filter = none) {snap : Snapshot V}
    (hsnap : Captured w history current snap) :
    Delivers w history current r (w.snapshotMessages call snap) ∧
      (r.run (w.snapshotMessages call snap)).loading = false ∧
      (r.run (w.snapshotMessages call snap)).client.lastSeq = snap.sequence := by
  have hmsgs : w.snapshotMessages call snap =
      .snapshotBegin snap.id snap.sequence snap.rows.length ::
        ((snap.rows.map fun row => .snapshotRow (w.encode row)) ++
          [.snapshotEnd snap.sequence snap.rows.length]) := by
    simp [Wire.snapshotMessages, Wire.snapshotRows, hflt]
  rw [hmsgs, Replica.run_cons, Replica.run_append]
  generalize hbegun : r.apply (.snapshotBegin snap.id snap.sequence snap.rows.length) = begun
  have hid : begun.client.lastSnapshotID = snap.id := by rw [← hbegun]; rfl
  have hseq : begun.client.lastSeq = 0 := by rw [← hbegun]; exact hzero
  have hpos : begun.client.lastSourcePosition = "" := by rw [← hbegun]; rfl
  have hst : begun.client.store = ∅ := by rw [← hbegun]; rfl
  have hld : begun.loading = true := by rw [← hbegun]; rfl
  have hfine : Fine w history current begun := by
    refine ⟨by omega, ?_, fun hl => ?_, fun _ => ⟨hseq, hpos⟩,
      fun hne => absurd hpos hne, fun hl => ?_⟩
    · rw [hseq, ← hzero]; exact hr.le
    · rw [hld] at hl; cases hl
    · rw [hld] at hl; cases hl
  obtain ⟨hdel, hstill, hrows, hsame⟩ := delivers_rows hfine hld hsnap.carries
  refine ⟨⟨hr, hbegun ▸ hdel.append ⟨hdel.fine_run, ?_⟩⟩, rfl, rfl⟩
  have hbef := hdel.fine_run
  generalize begun.run (snap.rows.map fun row => .snapshotRow (w.encode row)) = loaded at *
  have hloaded := hbef.loading hstill
  refine ⟨hsnap.nonneg, hsnap.le, fun _ => ?_, fun hl => ?_, fun hne => ?_, fun _ hz hne => ?_⟩
  · show loaded.client.store = history snap.sequence
    rw [hrows, hst, hsnap.rows]
  · cases hl
  · exact absurd hloaded.2 hne
  · have hzero' : snap.sequence = 0 := hz
    obtain ⟨ms, hms⟩ := hsnap.id
    refine ⟨ms, ?_⟩
    show loaded.client.lastSnapshotID = snapshotID 0 ms
    rw [hsame, hid, hms, hzero']

end Deliver

def Fanout.Op.rows : Op P V → List (Row V)
  | .onBaselineRow row | .onInsert row | .onUpdate row _ => [row]
  | _ => []

/-- The target keeps everything, its journal tells how its rows came about, and its
snapshots carry the ids of their sequence numbers. -/
structure Serves (w : Wire P V) (columns : List ColumnDefinition) (history : Int → Store V)
    (t : Target P V) : Prop where
  unpruned : t.j.Unpruned
  cols : t.cols = columns
  keyed : t.Keyed
  rows : ∀ (k : String) (row : Row V), t.store[k]? = some row → w.Carries row
  head : history t.j.currentSequence = t.store
  entries : ∀ e ∈ t.j.entries, Recorded w columns history t.j.currentSequence e
  snapshots : ∀ snap ∈ t.snapshots, 0 ≤ snap.sequence ∧
    ∃ ms, snap.id = snapshotID snap.sequence ms

structure Grows (w : Wire P V) (columns : List ColumnDefinition) (history : Int → Store V)
    (t t' : Target P V) : Prop where
  serves : Serves w columns (Link.note history t') t'
  le : t.j.currentSequence ≤ t'.j.currentSequence
  agree : ∀ n ≤ t.j.currentSequence, Link.note history t' n = history n

namespace Serves

variable {w : Wire P V} {columns : List ColumnDefinition} {history : Int → Store V} {t : Target P V}

variable {t' : Target P V}

section

variable (h : Serves w columns history t)
include h

lemma grows (h' : Serves w columns history t') (hseq : t'.j.currentSequence = t.j.currentSequence)
    (hst : t'.store = t.store) : Grows w columns history t t' := by
  have hnote : Link.note history t' = history := by
    funext n
    unfold Link.note
    by_cases hn : n = t'.j.currentSequence
    · rw [if_pos hn, hn, hseq, h.head, hst]
    · rw [if_neg hn]
  exact ⟨by rw [hnote]; exact h', Int.le_of_eq hseq.symm, fun n _ => by rw [hnote]⟩

lemma of_same (hu : t'.j.Unpruned) (hcols : t'.cols = t.cols) (hst : t'.store = t.store)
    (hes : t'.j.entries = t.j.entries) (hseq : t'.j.nextSeq = t.j.nextSeq)
    (hsnap : ∀ snap ∈ t'.snapshots, 0 ≤ snap.sequence ∧
      ∃ ms, snap.id = snapshotID snap.sequence ms) :
    Serves w columns history t' := by
  have hcur : t'.j.currentSequence = t.j.currentSequence := by
    unfold currentSequence
    rw [hseq]
  refine ⟨hu, hcols.trans h.cols, ?_, ?_, ?_, ?_, hsnap⟩
  · unfold Target.Keyed
    rw [hcols, hst]
    exact h.keyed
  · rw [hst]
    exact h.rows
  · rw [hcur, hst]
    exact h.head
  · rw [hes, hcur]
    exact h.entries

lemma pin (cid : String) (seq : Int) : Serves w columns history (t.pinJournal cid seq) :=
  h.of_same ⟨h.unpruned.size, h.unpruned.age, h.unpruned.first⟩ rfl rfl rfl rfl h.snapshots

lemma unpin (cid : String) : Serves w columns history (t.unpinJournal cid) :=
  h.of_same ⟨h.unpruned.size, h.unpruned.age, h.unpruned.first⟩ rfl rfl rfl rfl h.snapshots

lemma takeSnapshot (env : SnapshotEnv V) : Serves w columns history (t.takeSnapshot env).2 := by
  refine h.of_same h.unpruned rfl rfl rfl rfl ?_
  intro snap hsnap
  have hmem := (pruneSnapshots_sublist _ _ _).mem hsnap
  rcases mem_cons.mp hmem with rfl | hold
  · exact ⟨t.j.currentSequence_nonneg, _, t.id_capture env⟩
  · exact h.snapshots snap hold

lemma keyed_rowKey (hid : KeyedById columns) : Keyed rowKey t.store := by
  intro k row hrow
  rw [← buildKey_eq_rowKey hid (h.rows k row hrow).id, ← h.cols]
  exact h.keyed k row hrow

lemma captured (hid : KeyedById columns)
    {env : SnapshotEnv V} (hrows : Target.Iterates env.rows t.store) :
    Captured w history t.j.currentSequence (t.takeSnapshot env).1 where
  nonneg := t.j.currentSequence_nonneg
  le := Int.le_refl _
  id := ⟨_, t.id_capture env⟩
  carries := by
    intro row hrow
    have hmem := hrows.mem_iff.mp hrow
    obtain ⟨⟨k, row'⟩, hkv, rfl⟩ := List.mem_map.mp hmem
    exact h.rows k row' (Std.ExtTreeMap.mem_toList_iff_getElem?_eq_some.mp hkv)
  rows := (load_values (h.keyed_rowKey hid) hrows).trans h.head.symm

lemma record {env : AppendEnv} {act : ChangeAction} {old new : Option (Row V)} {pos : Option P}
    (hj : t'.j = t.j.append env act old new pos) (hcols : t'.cols = t.cols)
    (hsnap : t'.snapshots = t.snapshots)
    (hst : t'.store = applyEntry t.cols t.store ⟨t.j.nextSeq, env.stamp, act, old, new, pos⟩)
    (hold : ∀ row, old = some row → w.Carries row)
    (hnew : ∀ row, new = some row → w.Carries row) : Grows w columns history t t' := by
  have hnext : t'.j.currentSequence = t.j.nextSeq := by
    rw [hj, currentSequence, nextSeq_append]
    omega
  have hcur : t.j.currentSequence = t.j.nextSeq - 1 := rfl
  have hag : ∀ n ≤ t.j.currentSequence, Link.note history t' n = history n := by
    intro n hn
    exact if_neg (by omega)
  have hat : Link.note history t' t.j.nextSeq = t'.store := if_pos hnext.symm
  refine ⟨⟨?_, hcols.trans h.cols, ?_, ?_, ?_, ?_, ?_⟩, by omega, hag⟩
  · rw [hj]
    exact h.unpruned.append _ _ _ _ _
  · unfold Target.Keyed
    rw [hcols, hst]
    exact Keyed.applyEntry h.keyed _
  · -- a row of the new store is the new row or one from before
    intro k row hrow
    rw [hst] at hrow
    unfold applyEntry at hrow
    cases act with
    | insert | update =>
      cases new with
      | none => exact h.rows k row hrow
      | some x =>
        have hget : (put (buildKey t.cols) t.store x)[k]? = some row := hrow
        rw [getElem?_put] at hget
        by_cases hk : buildKey t.cols x = k
        · rw [if_pos hk] at hget
          exact some.inj hget ▸ hnew x rfl
        · rw [if_neg hk] at hget
          exact h.rows k row hget
    | delete =>
      cases old with
      | none => exact h.rows k row hrow
      | some x =>
        have hget : (t.store.erase (buildKey t.cols x))[k]? = some row := hrow
        rw [getElem?_erase] at hget
        by_cases hk : buildKey t.cols x = k
        · rw [if_pos hk] at hget
          cases hget
        · rw [if_neg hk] at hget
          exact h.rows k row hget
    | truncate => simp at hrow
  · rw [hnext]
    exact hat
  · intro e he
    rw [hj] at he
    rcases mem_entries_append he with hbef | rfl
    · exact (h.entries e hbef).mono (by omega) hag
    · refine ⟨?_, Int.le_of_eq hnext.symm, ?_, hnew, hold⟩
      · have hnn := t.j.currentSequence_nonneg
        show 1 ≤ t.j.nextSeq
        omega
      · show Link.note history t' t.j.nextSeq =
          applyEntry columns (Link.note history t' (t.j.nextSeq - 1)) _
        rw [hat, hag _ (by omega), ← hcur, h.head, hst, h.cols]
  · rw [hsnap]
    exact h.snapshots

lemma engine (env : AppendEnv) {op : Op P V}
    (hop : ∀ row ∈ op.rows, w.Carries row) : Grows w columns history t (op.apply t env) := by
  have hstd := h.rows
  have hgiven : ∀ row : Row V, row ∈ op.rows → ∀ x, some row = some x → w.Carries x := by
    intro row hrow x hx
    exact some.inj hx ▸ hop row hrow
  cases op with
  | onBaselineRow row | onInsert row =>
    exact h.record rfl rfl rfl rfl nofun (hgiven row mem_cons_self)
  | onUpdate row identity => exact h.record rfl rfl rfl rfl (hstd _) (hgiven row mem_cons_self)
  | onDelete identity =>
    refine h.record rfl rfl rfl ?_ (hstd _) nofun
    exact (applyEntry_delete h.keyed _ _ _ _).symm
  | onTruncate => exact h.record rfl rfl rfl rfl nofun nofun
  | setChangePosition position =>
    exact h.grows (h.of_same h.unpruned rfl rfl rfl rfl h.snapshots) rfl rfl
  | onBaselineComplete =>
    have hcur : (t.j.backfillNilPositions t.curPos).currentSequence = t.j.currentSequence :=
      congrArg (· - 1) (nextSeq_backfillNilPositions _ _)
    refine h.grows ⟨h.unpruned.backfillNilPositions _, h.cols, h.keyed, h.rows, ?_, ?_,
      h.snapshots⟩ hcur rfl
    · show history (t.j.backfillNilPositions t.curPos).currentSequence = t.store
      rw [hcur]
      exact h.head
    · show ∀ e ∈ (t.j.backfillNilPositions t.curPos).entries, Recorded w columns history
        (t.j.backfillNilPositions t.curPos).currentSequence e
      rw [hcur]
      intro e he
      cases hpos : t.curPos with
      | none =>
        rw [hpos] at he
        exact h.entries e he
      | some p =>
        rw [hpos] at he
        obtain ⟨e₀, he₀, rfl⟩ := List.mem_map.mp he
        exact (h.entries e₀ he₀).backfill p

end

end Serves

end Laredo
