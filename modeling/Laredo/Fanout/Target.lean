import Laredo.Lib.KeyedMap
import Laredo.Fanout.Journal

/-!
# Target

The fan-out target (`target/fanout/fanout.go`): an in-memory copy of a table with a journal of the
changes that produced it.
-/

namespace Laredo.Fanout

open Journal Std List KeyedMap ExtTreeMap

/-- The options of a fan-out target, with the defaults of `New`; times are in
nanoseconds. -/
structure Config where
  maxJournalEntries : Int := 100000
  maxJournalAge : Int := 24 * 60 * 60 * 1000000000
  snapshotKeepCount : Int := 0
  snapshotMaxAge : Int := 0

structure Snapshot (V : Type) where
  id : String
  sequence : Int
  rowCount : Int
  rows : List (Row V)
  createdAt : Int

/-- The state of a fan-out target. The client registry and the drain state do not
touch these fields and are left out. -/
structure Target (P V : Type) where
  cfg : Config
  store : Store V
  j : Journal P V
  ready : Bool
  cols : List ColumnDefinition
  snapshots : List (Snapshot V)
  curPos : Option P

/-- What `TakeSnapshot` reads from outside: the clock three times, and the rows in the
order the map iteration yields them. -/
structure SnapshotEnv (V : Type) where
  idTime : Int
  createdAt : Int
  now : Int
  rows : List (Row V)

section

variable {P V : Type} [GoValue V]

def keyParts (cols : List ColumnDefinition) (row : Row V) : List String :=
  (cols.filter (·.primaryKey)).map (fun col => GoValue.sprint (row.get col.name))

/-- `buildKey(row)`: the primary key columns joined by NUL, or the column `id` when
there are none. -/
def buildKey (cols : List ColumnDefinition) (row : Row V) : String :=
  let parts := keyParts cols row
  if parts.isEmpty then
    match row["id"]? with
    | some id => GoValue.sprint id
    | none => "\x00".intercalate parts
  else "\x00".intercalate parts

namespace Target

def new (cfg : Config) : Target P V where
  cfg := cfg
  store := ∅
  j := newJournal cfg.maxJournalEntries cfg.maxJournalAge
  ready := false
  cols := []
  snapshots := []
  curPos := none

def setChangePosition (t : Target P V) (position : Option P) : Target P V :=
  { t with curPos := position }

def onInit (t : Target P V) (columns : List ColumnDefinition) : Target P V :=
  { t with cols := columns }

def onBaselineRow (t : Target P V) (env : AppendEnv) (row : Row V) : Target P V :=
  { t with
    store := t.store.insert (buildKey t.cols row) row
    j := t.j.append env .insert none (some row) none }

/-- `OnBaselineComplete()`: the baseline end position goes onto the baseline rows. -/
def onBaselineComplete (t : Target P V) : Target P V :=
  { t with
    ready := true
    j := t.j.backfillNilPositions t.curPos }

def onInsert (t : Target P V) (env : AppendEnv) (row : Row V) : Target P V :=
  { t with
    store := t.store.insert (buildKey t.cols row) row
    j := t.j.append env .insert none (some row) t.curPos }

def onUpdate (t : Target P V) (env : AppendEnv) (row : Row V) (_identity : Option (Row V)) :
    Target P V :=
  let key := buildKey t.cols row
  { t with
    store := t.store.insert key row
    j := t.j.append env .update t.store[key]? (some row) t.curPos }

def onDelete (t : Target P V) (env : AppendEnv) (identity : Option (Row V)) : Target P V :=
  let key := buildKey t.cols (Row.orEmpty identity)
  { t with
    store := t.store.erase key
    j := t.j.append env .delete t.store[key]? none t.curPos }

def onTruncate (t : Target P V) (env : AppendEnv) : Target P V :=
  { t with
    store := ∅
    j := t.j.append env .truncate none none t.curPos }

/-- `OnSchemaChange(newColumns)`: the journal gets a truncate entry as a marker, the
store stays as it is. -/
def onSchemaChange (t : Target P V) (env : AppendEnv) (newColumns : List ColumnDefinition) :
    Target P V :=
  { t with
    cols := newColumns
    j := t.j.append env .truncate none none t.curPos }

def pinJournal (t : Target P V) (clientID : String) (seq : Int) : Target P V :=
  { t with j := t.j.pin clientID seq }

def unpinJournal (t : Target P V) (clientID : String) : Target P V :=
  { t with j := t.j.unpin clientID }

def loadRows (cols : List ColumnDefinition) (rows : List (Row V)) : Store V :=
  KeyedMap.load (buildKey cols) ∅ rows

/-- `RestoreSnapshot(entries)`: replaces the store and leaves the journal as it is. -/
def restoreSnapshot (t : Target P V) (rows : List (Row V)) : Target P V :=
  { t with
    store := loadRows t.cols rows
    ready := true }

def pruneSnapshots (cfg : Config) (now : Int) (snapshots : List (Snapshot V)) :
    List (Snapshot V) :=
  let kept :=
    if 0 < cfg.snapshotKeepCount ∧ cfg.snapshotKeepCount < snapshots.length then
      snapshots.take cfg.snapshotKeepCount.toNat
    else snapshots
  if 0 < cfg.snapshotMaxAge then
    kept.takeWhile (fun s => !decide (s.createdAt < now - cfg.snapshotMaxAge))
  else kept

omit [GoValue V] in
lemma pruneSnapshots_sublist (cfg : Config) (now : Int) (snapshots : List (Snapshot V)) :
    (pruneSnapshots cfg now snapshots).Sublist snapshots := by
  have hkept : (if 0 < cfg.snapshotKeepCount ∧ cfg.snapshotKeepCount < snapshots.length then
      snapshots.take cfg.snapshotKeepCount.toNat else snapshots).Sublist snapshots := by
    split
    · exact take_sublist _ _
    · exact List.Sublist.refl _
  unfold pruneSnapshots
  dsimp only
  split
  · exact (takeWhile_sublist _).trans hkept
  · exact hkept

def capture (t : Target P V) (env : SnapshotEnv V) : Snapshot V where
  id := "fanout-" ++ toString t.j.currentSequence ++ "-" ++ toString (env.idTime / 1000000)
  sequence := t.j.currentSequence
  rowCount := env.rows.length
  rows := env.rows
  createdAt := env.createdAt

def snapshotID (seq ms : Int) : String := "fanout-" ++ toString seq ++ "-" ++ toString ms

omit [GoValue V] in
lemma id_capture (t : Target P V) (env : SnapshotEnv V) :
    (t.capture env).id = snapshotID t.j.currentSequence (env.idTime / 1000000) := rfl

lemma toList_toString_ofNat (k : Nat) : (toString (k : Int)).toList = Nat.toDigits 10 k := by
  simp [Int.toString_eq_repr, Int.repr, Nat.repr_eq_ofList_toDigits]

lemma takeWhile_toString_ofNat (k : Nat) (rest : List Char) :
    ((toString (k : Int)).toList ++ '-' :: rest).takeWhile (· != '-') = Nat.toDigits 10 k := by
  rw [toList_toString_ofNat, takeWhile_append_of_pos, takeWhile_cons_of_neg (by simp), append_nil]
  intro c hc
  have hdigit := Nat.isDigit_of_mem_toDigits (by decide) (by decide) hc
  simp only [bne_iff_ne]
  rintro rfl
  exact absurd hdigit (by decide)

lemma snapshotID_inj {seq seq' ms ms' : Int} (h : snapshotID seq ms = snapshotID seq' ms')
    (hseq : 0 ≤ seq) (hseq' : 0 ≤ seq') : seq = seq' := by
  obtain ⟨k, rfl⟩ := Int.eq_ofNat_of_zero_le hseq
  obtain ⟨k', rfl⟩ := Int.eq_ofNat_of_zero_le hseq'
  have hlist := congrArg String.toList h
  simp only [snapshotID, String.toList_append, append_assoc] at hlist
  have htail : (toString (k : Int)).toList ++ '-' :: (toString ms).toList =
      (toString (k' : Int)).toList ++ '-' :: (toString ms').toList :=
    append_cancel_left hlist
  have hdigits := congrArg (List.takeWhile (· != '-')) htail
  rw [takeWhile_toString_ofNat, takeWhile_toString_ofNat] at hdigits
  have hvalue := congrArg (fun digits => Nat.ofDigitChars 10 digits 0) hdigits
  simp only [Nat.ofDigitChars_ten_toDigits] at hvalue
  rw [hvalue]

def takeSnapshot (t : Target P V) (env : SnapshotEnv V) : Snapshot V × Target P V :=
  (t.capture env,
    { t with snapshots := pruneSnapshots t.cfg env.now (t.capture env :: t.snapshots) })

def Iterates (rows : List (Row V)) (store : Store V) : Prop :=
  rows.Perm (store.toList.map Prod.snd)

instance [DecidableEq V] (rows : List (Row V)) (store : Store V) :
    Decidable (Iterates rows store) :=
  inferInstanceAs (Decidable (List.Perm _ _))

omit [GoValue V] in
lemma Iterates.mem_iff_exists {rows : List (Row V)} {store : Store V} (h : Iterates rows store)
    {row : Row V} : row ∈ rows ↔ ∃ k : String, store[k]? = some row := by
  rw [List.Perm.mem_iff h, List.mem_map]
  constructor
  · rintro ⟨⟨k, r⟩, hmem, rfl⟩
    exact ⟨k, mem_toList_iff_getElem?_eq_some.mp hmem⟩
  · rintro ⟨k, hk⟩
    exact ⟨(k, row), mem_toList_iff_getElem?_eq_some.mpr hk, rfl⟩

end Target

inductive Op (P V : Type)
  | onBaselineRow (row : Row V)
  | onBaselineComplete
  | setChangePosition (position : Option P)
  | onInsert (row : Row V)
  | onUpdate (row : Row V) (identity : Option (Row V))
  | onDelete (identity : Option (Row V))
  | onTruncate

def Op.apply (t : Target P V) (env : AppendEnv) : Op P V → Target P V
  | .onBaselineRow row => t.onBaselineRow env row
  | .onBaselineComplete => t.onBaselineComplete
  | .setChangePosition position => t.setChangePosition position
  | .onInsert row => t.onInsert env row
  | .onUpdate row identity => t.onUpdate env row identity
  | .onDelete identity => t.onDelete env identity
  | .onTruncate => t.onTruncate env

def Target.run (t : Target P V) (ops : List (Op P V × AppendEnv)) : Target P V :=
  ops.foldl (fun t op => op.1.apply t op.2) t

def applyEntry (cols : List ColumnDefinition) (store : Store V) (e : JournalEntry P V) :
    Store V :=
  match e.action with
  | .insert | .update =>
      match e.newValues with
      | some row => store.insert (buildKey cols row) row
      | none => store
  | .delete =>
      match e.oldValues with
      | some row => store.erase (buildKey cols row)
      | none => store
  | .truncate => ∅

def replayEntries (cols : List ColumnDefinition) (store : Store V)
    (entries : List (JournalEntry P V)) : Store V :=
  entries.foldl (applyEntry cols) store

variable (cols : List ColumnDefinition)

@[simp] lemma replayEntries_append (store : Store V)
    (es₁ es₂ : List (JournalEntry P V)) :
    replayEntries cols store (es₁ ++ es₂) =
      replayEntries cols (replayEntries cols store es₁) es₂ := by
  simp [replayEntries, foldl_append]

lemma applyEntry_backfill (store : Store V) (pos : P)
    (e : JournalEntry P V) :
    applyEntry cols store (e.backfill pos) = applyEntry cols store e := by
  unfold JournalEntry.backfill
  split <;> rfl

lemma replayEntries_backfill (store : Store V)
    (j : Journal P V) (pos : Option P) (seq : Int) :
    replayEntries cols store ((j.backfillNilPositions pos).entriesSince seq) =
      replayEntries cols store (j.entriesSince seq) := by
  cases pos with
  | none => rfl
  | some p =>
    rw [entriesSince_backfill, replayEntries, replayEntries, foldl_map]
    simp only [applyEntry_backfill]

lemma Keyed.applyEntry {cols : List ColumnDefinition} {store : Store V}
    (h : KeyedMap.Keyed (buildKey cols) store) (e : JournalEntry P V) :
    KeyedMap.Keyed (buildKey cols) (applyEntry cols store e) := by
  have hset : ∀ row : Option (Row V), KeyedMap.Keyed (buildKey cols) (match row with
        | some row => store.insert (buildKey cols row) row
        | none => store) := by
    intro row
    cases row with
    | none => exact h
    | some row => exact h.put row
  unfold Fanout.applyEntry
  cases e.action with
  | insert | update => exact hset e.newValues
  | delete =>
    cases e.oldValues with
    | none => exact h
    | some row => exact h.erase _
  | truncate => exact KeyedMap.Keyed.empty

def Target.Keyed (t : Target P V) : Prop := KeyedMap.Keyed (buildKey t.cols) t.store

inductive Effect (t : Target P V) (env : AppendEnv) (t' : Target P V) : Prop
  | record (action : ChangeAction) (oldValues newValues : Option (Row V))
      (position : Option P)
      (hj : t'.j = t.j.append env action oldValues newValues position)
      (hcols : t'.cols = t.cols)
      (hstore : ∀ seq stamp, t'.store =
        applyEntry t.cols t.store ⟨seq, stamp, action, oldValues, newValues, position⟩)
  | stamp (position : Option P)
      (hj : t'.j = t.j.backfillNilPositions position)
      (hcols : t'.cols = t.cols)
      (hstore : t'.store = t.store)

variable {t : Target P V}

lemma applyEntry_delete (hkd : t.Keyed) (key : String) (seq stamp : Int) (pos : Option P) :
    applyEntry t.cols t.store ⟨seq, stamp, .delete, t.store[key]?, none, pos⟩ =
      t.store.erase key := by
  cases hold : t.store[key]? with
  | some row => exact congrArg t.store.erase (hkd key row hold)
  | none => exact (erase_eq_of_none hold).symm

lemma Op.effect (hkd : t.Keyed) (env : AppendEnv) (op : Op P V) :
    Effect t env (op.apply t env) := by
  cases op with
  | onBaselineRow row => exact .record .insert none (some row) none rfl rfl fun _ _ => rfl
  | onBaselineComplete => exact .stamp t.curPos rfl rfl rfl
  | setChangePosition position => exact .stamp none rfl rfl rfl
  | onInsert row => exact .record .insert none (some row) t.curPos rfl rfl fun _ _ => rfl
  | onUpdate row identity =>
    exact .record .update t.store[buildKey t.cols row]? (some row) t.curPos rfl rfl fun _ _ => rfl
  | onDelete identity =>
    exact .record .delete t.store[buildKey t.cols (Row.orEmpty identity)]? none t.curPos
      rfl rfl fun _ _ => (applyEntry_delete hkd _ _ _ _).symm
  | onTruncate => exact .record .truncate none none t.curPos rfl rfl fun _ _ => rfl

namespace Effect

variable {t t' : Target P V} {env : AppendEnv}

lemma cols_eq (h : Effect t env t') : t'.cols = t.cols := by
  cases h with
  | record _ _ _ _ _ hcols _ => exact hcols
  | stamp _ _ hcols _ => exact hcols

lemma keyed (h : Effect t env t') (hkd : t.Keyed) : t'.Keyed := by
  unfold Target.Keyed
  cases h with
  | record action old new position _ hcols hst =>
    rw [hcols, hst 0 0]
    exact Keyed.applyEntry hkd _
  | stamp position _ hcols hst =>
    rw [hcols, hst]
    exact hkd

lemma nextSeq_le (h : Effect t env t') : t.j.nextSeq ≤ t'.j.nextSeq := by
  cases h with
  | record action old new position hj _ _ =>
    rw [hj, nextSeq_append]
    omega
  | stamp position hj _ _ => simp only [hj, nextSeq_backfillNilPositions, Int.le_refl]

lemma retains (h : Effect t env t') {afterSeq : Int} (hret : t'.j.Retains afterSeq) :
    t.j.Retains afterSeq := by
  cases h with
  | record action old new position hj _ _ =>
    rw [hj] at hret
    exact hret.of_append
  | stamp position hj _ _ =>
    rw [hj] at hret
    cases position with
    | none => exact hret
    | some p => simpa [Retains, firstSeq, backfillNilPositions] using hret

end Effect

def Target.Mirrors (t : Target P V) (base : Store V) (afterSeq : Int) : Prop :=
  replayEntries t.cols base (t.j.entriesSince afterSeq) = t.store

lemma Target.Mirrors.step {t' : Target P V} {env : AppendEnv} {base : Store V}
    {afterSeq : Int} (h : t.Mirrors base afterSeq) (heff : Effect t env t')
    (hcrs : afterSeq < t.j.nextSeq) (hret : t'.j.Retains afterSeq) :
    t'.Mirrors base afterSeq := by
  unfold Target.Mirrors at h ⊢
  rw [heff.cols_eq]
  cases heff with
  | record action old new position hj _ hst =>
    rw [hj] at hret ⊢
    rw [entriesSince_append hret hcrs, replayEntries_append, h]
    exact (hst _ _).symm
  | stamp position hj _ hst => rw [hj, replayEntries_backfill, h, hst]

lemma Target.run_frame (ops : List (Op P V × AppendEnv)) (hkd : t.Keyed) :
    (t.run ops).cols = t.cols ∧ (t.run ops).Keyed ∧
      ∀ {afterSeq : Int}, (t.run ops).j.Retains afterSeq → t.j.Retains afterSeq := by
  induction ops generalizing t with
  | nil => exact ⟨rfl, hkd, id⟩
  | cons op ops ih =>
    have heff := Op.effect hkd op.2 op.1
    obtain ⟨hcols, hkd', hret⟩ := ih (heff.keyed hkd)
    exact ⟨hcols.trans heff.cols_eq, hkd', fun h => heff.retains (hret h)⟩

lemma Target.Mirrors.run {base : Store V} {afterSeq : Int}
    (ops : List (Op P V × AppendEnv)) (h : t.Mirrors base afterSeq)
    (hkd : t.Keyed) (hcrs : afterSeq < t.j.nextSeq)
    (hret : (t.run ops).j.Retains afterSeq) : (t.run ops).Mirrors base afterSeq := by
  induction ops generalizing t with
  | nil => exact h
  | cons op ops ih =>
    have heff := Op.effect hkd op.2 op.1
    have hkd' := heff.keyed hkd
    have hret' := (Target.run_frame ops hkd').2.2 hret
    exact ih (h.step heff hcrs hret') hkd' (Int.lt_of_lt_of_le hcrs heff.nextSeq_le) hret

lemma Target.Keyed.rebuild {cut : Target P V} (hkd : cut.Keyed) (env : SnapshotEnv V)
    (hrows : Target.Iterates env.rows cut.store) (after : List (Op P V × AppendEnv))
    (hret : ((cut.takeSnapshot env).2.run after).j.Retains cut.j.currentSequence) :
    replayEntries cut.cols (Target.loadRows cut.cols env.rows)
        (((cut.takeSnapshot env).2.run after).j.entriesSince cut.j.currentSequence) =
      ((cut.takeSnapshot env).2.run after).store := by
  have hcrs : cut.j.currentSequence < cut.j.nextSeq := Int.sub_lt_self _ (by decide)
  have hbase : Target.loadRows cut.cols env.rows = cut.store := load_values hkd hrows
  -- right at the cut there are no entries past the snapshot, and its rows are the store
  have hst0 : (cut.takeSnapshot env).2.Mirrors cut.store cut.j.currentSequence :=
    congrArg (replayEntries cut.cols cut.store)
      (entriesSince_eq_nil (Int.le_refl cut.j.currentSequence))
  have hcols : ((cut.takeSnapshot env).2.run after).cols = cut.cols :=
    (Target.run_frame after (t := (cut.takeSnapshot env).2) hkd).1
  have hmir := hst0.run after hkd hcrs hret
  unfold Target.Mirrors at hmir
  rwa [hcols, ← hbase] at hmir

/-- **Snapshot plus journal is the state.** Take a snapshot of a target after any
callbacks and go on with any others: folding the journal entries past the snapshot's
sequence over the snapshot's rows gives the current store, provided none of those
entries was pruned. -/
theorem snapshot_and_journal_rebuild_store (cfg : Config) (columns : List ColumnDefinition)
    (before after : List (Op P V × AppendEnv)) (env : SnapshotEnv V)
    {cut t final : Target P V} {snap : Snapshot V}
    (hcut : cut = ((Target.new cfg).onInit columns).run before)
    (hrows : Target.Iterates env.rows cut.store)
    (hsnap : cut.takeSnapshot env = (snap, t))
    (hfinal : final = t.run after)
    (hkept : final.j.KeptSince snap.sequence) :
    replayEntries columns (Target.loadRows columns snap.rows)
      (final.j.entriesSince snap.sequence) = final.store := by
  have hnew : ((Target.new cfg : Target P V).onInit columns).Keyed := KeyedMap.Keyed.empty
  obtain ⟨hcols, hkd, -⟩ := Target.run_frame before hnew
  rw [← hcut] at hkd hcols
  obtain rfl : t = (cut.takeSnapshot env).2 := by rw [hsnap]
  obtain rfl : snap = cut.capture env := (congrArg Prod.fst hsnap).symm
  subst hfinal
  have hrebuild := hkd.rebuild env hrows after (keptSince_iff_retains.mp hkept)
  rw [hcols] at hrebuild
  exact hrebuild

theorem snapshot_and_journal_rebuild_store_run :
    let row (id v : String) : Row Text := .ofList [("id", some id), ("v", some v)]
    let env : AppendEnv := ⟨0, 0, []⟩
    let before : List (Op Int Text × AppendEnv) :=
      [(.onBaselineRow (row "1" "a"), env), (.onBaselineRow (row "2" "b"), env),
        (.onBaselineComplete, env)]
    let after : List (Op Int Text × AppendEnv) :=
      [(.onInsert (row "1" "c"), env), (.onDelete (some (row "2" "")), env),
        (.onDelete (some (row "7" "")), env), (.onUpdate (row "3" "d") none, env)]
    let cut := ((Target.new {}).onInit [⟨"id", true, 1⟩]).run before
    let final := (cut.takeSnapshot ⟨0, 0, 0, [row "2" "b", row "1" "a"]⟩).2.run after
    replayEntries [⟨"id", true, 1⟩] (Target.loadRows [⟨"id", true, 1⟩] [row "2" "b", row "1" "a"])
      (final.j.entriesSince 2) = final.store :=
  snapshot_and_journal_rebuild_store {} [⟨"id", true, 1⟩] _ _ ⟨0, 0, 0, _⟩ rfl (by decide) rfl
    rfl (keptSince_iff_retains.mpr (by decide))

end

end Laredo.Fanout
