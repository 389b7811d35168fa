import Laredo.Lib.Slice
import Laredo.Replication.Sync
import Laredo.Snapshotter.Buffer

/-!
# Filter

Subscription filters (`service/replication/subscription_filter.go`, `cold_replay.go`): a client is
sent only what concerns the rows that satisfy its predicates.
-/

namespace Laredo.Replication

open Slice Fanout KeyedMap Journal Target
open Fanout (JournalEntry AppendEnv Op SnapshotEnv Target applyEntry buildKey replayEntries)
open Snapshotter (Change)
open Slice (Edit)

/-- What predicates use of a column value, besides what keys use. -/
class FilterValue (V : Type) extends GoValue V where
  isNil : V → Bool
  isNil_iff : ∀ v, isNil v = true ↔ v = nil
  normalize : V → V
  eq : V → V → Bool
  asString : V → Option String

instance : FilterValue Text where
  isNil := Option.isNone
  isNil_iff v := by cases v <;> simp [GoValue.nil]
  normalize := id
  eq v w := decide (v = w)
  asString := id

inductive Condition (V : Type)
  | equals (value : V)
  | startsWith (start : String)
  | oneOf (values : List V)

structure FieldPredicate (V : Type) where
  field : String
  cond : Option (Condition V)

structure CompiledPredicate (V : Type) where
  field : String
  cond : Condition V

structure SubscriptionFilter (V : Type) where
  preds : List (CompiledPredicate V)

section

variable {P V : Type} [FilterValue V]

def Condition.normalize : Condition V → Condition V
  | .equals value => .equals (FilterValue.normalize value)
  | .startsWith start => .startsWith start
  | .oneOf values => .oneOf (values.map FilterValue.normalize)

/-- The loop of `compileSubscriptionFilter`, from the predicate with index `i` on. -/
def compilePredicates (i : Nat) :
    List (FieldPredicate V) → Except String (List (CompiledPredicate V))
  | [] => .ok []
  | p :: preds =>
      if p.field = "" then .error ("filter[" ++ toString i ++ "]: field is required")
      else
        match p.cond with
        | none =>
            .error ("filter[" ++ toString i ++ "] (field " ++ p.field.quote ++
              "): a match condition (equals, prefix, or in) is required")
        | some cond =>
            match compilePredicates (i + 1) preds with
            | .error e => .error e
            | .ok compiled => .ok (⟨p.field, cond.normalize⟩ :: compiled)

def compileSubscriptionFilter (preds : List (FieldPredicate V)) :
    Except String (Option (SubscriptionFilter V)) :=
  if preds.isEmpty then .ok none
  else
    match compilePredicates 0 preds with
    | .error e => .error e
    | .ok compiled => .ok (some ⟨compiled⟩)

/-- `match(row)` of a predicate: an absent or nil column matches nothing. -/
def CompiledPredicate.matchRow (p : CompiledPredicate V) (row : Option (Row V)) : Bool :=
  match (Row.orEmpty row)[p.field]? with
  | none => false
  | some v =>
      if FilterValue.isNil v then false
      else
        match p.cond with
        | .equals want => FilterValue.eq (FilterValue.normalize v) want
        | .startsWith start =>
            match FilterValue.asString v with
            | some s => start.toList.isPrefixOf s.toList
            | none => false
        | .oneOf wants => wants.any fun want => FilterValue.eq (FilterValue.normalize v) want

def matchRow (filter : Option (SubscriptionFilter V)) (row : Option (Row V)) : Bool :=
  match filter with
  | none => true
  | some f => f.preds.all fun p => p.matchRow row

def matchEntry (filter : Option (SubscriptionFilter V)) (e : JournalEntry P V) : Bool :=
  match filter with
  | none => true
  | some _ =>
      match e.action with
      | .delete => matchRow filter e.oldValues
      | .truncate => true
      | .insert | .update => matchRow filter e.newValues

def filterRows (rows : List (Row V)) (filter : Option (SubscriptionFilter V)) : List (Row V) :=
  rows.filter fun row => matchRow filter (some row)

def changeMatchesFilter (ch : Change V) (filter : Option (SubscriptionFilter V)) : Bool :=
  match filter with
  | none => true
  | some _ =>
      match ch.action with
      | .delete => matchRow filter ch.old
      | .truncate => true
      | .insert | .update => matchRow filter ch.new

end

section

variable {P V : Type}

/-- What a change of a table does to a replica: it puts the new row, or removes the key of
the old row when there is one. -/
def editOf (action : ChangeAction) (old new : Option (Row V)) : Edit (Row V) :=
  match action with
  | .insert | .update => new.elim .skip .put
  | .delete => old.elim .skip .remove
  | .truncate => .clear

def entryEdit (e : JournalEntry P V) : Edit (Row V) := editOf e.action e.oldValues e.newValues

def changeEdit (ch : Change V) : Edit (Row V) := editOf ch.action ch.old ch.new

variable {action : ChangeAction} {old new : Option (Row V)}

lemma editOf_eq_put {row : Row V} (h : editOf action old new = .put row) :
    (action = .insert ∨ action = .update) ∧ new = some row := by
  cases action <;> cases old <;> cases new <;> simp_all [editOf]

lemma editOf_eq_remove {row : Row V}
    (h : editOf action old new = .remove row) : action = .delete ∧ old = some row := by
  cases action <;> cases old <;> cases new <;> simp_all [editOf]

lemma editOf_eq_clear (h : editOf action old new = .clear) : action = .truncate := by
  cases action <;> cases old <;> cases new <;> simp_all [editOf]

lemma entryEdit_backfill (pos : P) (e : JournalEntry P V) :
    entryEdit (e.backfill pos) = entryEdit e := by
  unfold JournalEntry.backfill
  split <;> rfl

section

variable [GoValue V]

lemma applyEntry_eq (cols : List ColumnDefinition) (store : Store V) (e : JournalEntry P V) :
    applyEntry cols store e = (entryEdit e).apply (buildKey cols) store := by
  unfold applyEntry entryEdit editOf
  cases e.action with
  | insert | update => cases e.newValues <;> rfl
  | delete => cases e.oldValues <;> rfl
  | truncate => rfl

lemma replayEntries_eq (cols : List ColumnDefinition) (store : Store V)
    (entries : List (JournalEntry P V)) :
    replayEntries cols store entries = replay (buildKey cols) entryEdit store entries := by
  unfold replayEntries replay
  congr
  funext store e
  exact applyEntry_eq cols store e

def replayChanges (cols : List ColumnDefinition) (store : Store V) (changes : List (Change V)) :
    Store V :=
  replay (buildKey cols) changeEdit store changes

end

variable [FilterValue V]

def verdict (filter : Option (SubscriptionFilter V)) (row : Row V) : Bool :=
  matchRow filter (some row)

lemma judges_matchEntry (filter : Option (SubscriptionFilter V)) :
    Judges (verdict filter) (entryEdit (P := P)) (matchEntry filter) := by
  cases filter with
  | none => exact ⟨fun _ _ _ => rfl, fun _ _ _ => rfl, fun _ _ => rfl⟩
  | some f =>
    refine ⟨fun e row h => ?_, fun e row h => ?_, fun e h => ?_⟩
    · obtain ⟨hact | hact, hnew⟩ := editOf_eq_put h <;> simp [matchEntry, verdict, hact, hnew]
    · obtain ⟨hact, hold⟩ := editOf_eq_remove h
      simp [matchEntry, verdict, hact, hold]
    · simp [matchEntry, editOf_eq_clear h]

lemma judges_changeMatchesFilter (filter : Option (SubscriptionFilter V)) :
    Judges (verdict filter) changeEdit (changeMatchesFilter · filter) := by
  cases filter with
  | none => exact ⟨fun _ _ _ => rfl, fun _ _ _ => rfl, fun _ _ => rfl⟩
  | some f =>
    refine ⟨fun ch row h => ?_, fun ch row h => ?_, fun ch h => ?_⟩
    · obtain ⟨hact | hact, hnew⟩ := editOf_eq_put h <;>
        simp [changeMatchesFilter, verdict, hact, hnew]
    · obtain ⟨hact, hold⟩ := editOf_eq_remove h
      simp [changeMatchesFilter, verdict, hact, hold]
    · simp [changeMatchesFilter, editOf_eq_clear h]

/-- Along the entries past `afterSeq`, replayed over `base`, deletes are truthful. -/
def Recounts (filter : Option (SubscriptionFilter V)) (t : Target P V) (base : Store V)
    (afterSeq : Int) : Prop :=
  Along (buildKey t.cols) entryEdit (Edit.Truthful (buildKey t.cols) (verdict filter)) base
    (t.j.entriesSince afterSeq)

section

variable {filter : Option (SubscriptionFilter V)} {t t' : Target P V} {env : AppendEnv}
variable {base : Store V} {afterSeq : Int}

lemma Recounts.append (h : Recounts filter t base afterSeq) (hmir : t.Mirrors base afterSeq)
    {action : ChangeAction} {old new : Option (Row V)} {pos : Option P}
    (hj : t'.j = t.j.append env action old new pos) (hcols : t'.cols = t.cols)
    (hcrs : afterSeq < t.j.nextSeq) (hret : t'.j.Retains afterSeq)
    (htruth : (editOf action old new).Truthful (buildKey t.cols) (verdict filter) t.store) :
    Recounts filter t' base afterSeq := by
  unfold Recounts at h ⊢
  rw [hj] at hret ⊢
  rw [hcols, entriesSince_append hret hcrs, Along.append]
  refine ⟨h, ?_, trivial⟩
  rw [← replayEntries_eq, show replayEntries t.cols base _ = t.store from hmir]
  exact htruth

lemma Recounts.backfill (h : Recounts filter t base afterSeq) {pos : Option P}
    (hj : t'.j = t.j.backfillNilPositions pos) (hcols : t'.cols = t.cols) :
    Recounts filter t' base afterSeq := by
  unfold Recounts at h ⊢
  rw [hj, hcols]
  cases pos with
  | none => exact h
  | some p =>
    rw [entriesSince_backfill, Along.map_iff (entryEdit_backfill p)]
    exact h

lemma truthful_delete (hkd : t.Keyed) (k : String) :
    (editOf .delete t.store[k]? none).Truthful (buildKey t.cols) (verdict filter) t.store := by
  cases hold : t.store[k]? with
  | none => trivial
  | some row =>
    intro row' hrow' hok
    rw [hkd k row hold, hold] at hrow'
    rwa [Option.some.inj hrow']

lemma Op.recounts (op : Op P V) (h : Recounts filter t base afterSeq)
    (hmir : t.Mirrors base afterSeq) (hkd : t.Keyed) (hcrs : afterSeq < t.j.nextSeq)
    (hret : (op.apply t env).j.Retains afterSeq) :
    Recounts filter (op.apply t env) base afterSeq := by
  cases op with
  | onBaselineRow row | onInsert row | onUpdate row identity | onTruncate =>
    exact h.append hmir rfl rfl hcrs hret trivial
  | onBaselineComplete => exact h.backfill rfl rfl
  | setChangePosition position => exact h
  | onDelete identity => exact h.append hmir rfl rfl hcrs hret (truthful_delete hkd _)

lemma Recounts.run (ops : List (Op P V × AppendEnv)) (h : Recounts filter t base afterSeq)
    (hmir : t.Mirrors base afterSeq) (hkd : t.Keyed) (hcrs : afterSeq < t.j.nextSeq)
    (hret : (t.run ops).j.Retains afterSeq) : Recounts filter (t.run ops) base afterSeq := by
  induction ops generalizing t with
  | nil => exact h
  | cons op ops ih =>
    have heff := Op.effect hkd op.2 op.1
    have hkd' := heff.keyed hkd
    have hret' := (run_frame ops hkd').2.2 hret
    exact ih (Op.recounts op.1 h hmir hkd hcrs hret') (hmir.step heff hcrs hret') hkd'
      (Int.lt_of_lt_of_le hcrs heff.nextSeq_le) hret

lemma entriesSince_snapshot {cut : Target P V} (hkd : cut.Keyed) (env : SnapshotEnv V)
    (ops : List (Op P V × AppendEnv)) {final : Target P V}
    (hfinal : final = (cut.takeSnapshot env).2.run ops)
    (hret : final.j.Retains cut.j.currentSequence) :
    Along (buildKey cut.cols) entryEdit (Edit.Truthful (buildKey cut.cols) (verdict filter))
        cut.store (final.j.entriesSince cut.j.currentSequence) ∧
      replayEntries cut.cols cut.store (final.j.entriesSince cut.j.currentSequence) =
        final.store := by
  subst hfinal
  have hcrs : cut.j.currentSequence < cut.j.nextSeq := Int.sub_lt_self _ (by decide)
  -- right at the cut there are no entries past the snapshot
  have hnil : (cut.takeSnapshot env).2.j.entriesSince cut.j.currentSequence = [] :=
    entriesSince_eq_nil (Int.le_refl _)
  have hmir : (cut.takeSnapshot env).2.Mirrors cut.store cut.j.currentSequence :=
    congrArg (replayEntries cut.cols cut.store) hnil
  have hreco : Recounts filter (cut.takeSnapshot env).2 cut.store cut.j.currentSequence := by
    unfold Recounts
    rw [hnil]
    trivial
  have hcols : ((cut.takeSnapshot env).2.run ops).cols = cut.cols :=
    (run_frame ops (t := (cut.takeSnapshot env).2) hkd).1
  have htruth := hreco.run ops hmir hkd hcrs hret
  have hst := hmir.run ops hkd hcrs hret
  unfold Recounts at htruth
  unfold Target.Mirrors at hst
  rw [hcols] at htruth hst
  exact ⟨htruth, hst⟩

lemma load_admitted (hkd : t.Keyed) {rows : List (Row V)} (hrows : Target.Iterates rows t.store) :
    loadRows t.cols (rows.filter fun row => matchRow filter (some row)) =
      slice (verdict filter) t.store :=
  (load_filter (nodup_keys_of_values hkd hrows)).trans
    (congrArg _ (load_values hkd hrows))

end

/-- **Filtering commutes with replication**, if no put replaces a row of the other verdict: for a
fan-out target always, for an archive chain just when a delete of an admitted row has an old row
that is admitted. -/
theorem filtering_commutes (filter : Option (SubscriptionFilter V))
    (columns : List ColumnDefinition) :
    (∀ (cfg : Config) (before after : List (Op P V × AppendEnv)) (env : SnapshotEnv V)
        (cut t final : Target P V) (snap : Snapshot V),
      cut = ((Target.new cfg).onInit columns).run before →
      Target.Iterates env.rows cut.store → cut.takeSnapshot env = (snap, t) →
      final = t.run after → final.j.KeptSince snap.sequence →
      Along (buildKey columns) entryEdit (Edit.Stable (buildKey columns) (verdict filter))
        cut.store (final.j.entriesSince snap.sequence) →
      replayEntries columns
          (loadRows columns (snap.rows.filter fun row => matchRow filter (some row)))
          ((final.j.entriesSince snap.sequence).filter (matchEntry filter)) =
        slice (verdict filter) final.store) ∧
    ∀ (rows : List (Row V)) (changes : List (Change V)), (rows.map (buildKey columns)).Nodup →
      Along (buildKey columns) changeEdit (Edit.Stable (buildKey columns) (verdict filter))
        (loadRows columns rows) changes →
      ((∀ n, replayChanges columns (loadRows columns (filterRows rows filter))
            ((changes.take n).filter (changeMatchesFilter · filter)) =
          slice (verdict filter)
            (replayChanges columns (loadRows columns rows) (changes.take n))) ↔
        Along (buildKey columns) changeEdit
          (Edit.Truthful (buildKey columns) (verdict filter)) (loadRows columns rows)
          changes) := by
  refine ⟨?_, ?_⟩
  · intro cfg before after env cut t final snap hcut hrows hsnap hfinal hkept hstb
    have hnew : ((Target.new cfg : Target P V).onInit columns).Keyed := KeyedMap.Keyed.empty
    obtain ⟨hcols, hkd, -⟩ := run_frame before hnew
    rw [← hcut] at hkd hcols
    obtain rfl : columns = cut.cols := hcols.symm
    obtain rfl : t = (cut.takeSnapshot env).2 := by rw [hsnap]
    obtain rfl : snap = cut.capture env := (congrArg Prod.fst hsnap).symm
    have hret := Journal.keptSince_iff_retains.mp hkept
    obtain ⟨htruth, hst⟩ := entriesSince_snapshot hkd env after hfinal hret
    rw [replayEntries_eq] at hst ⊢
    rw [show (cut.capture env).rows = env.rows from rfl, load_admitted hkd hrows, ← hst]
    exact replay_slice (judges_matchEntry filter) hstb htruth
  · intro rows changes hnd hstb
    rw [show loadRows columns (filterRows rows filter) = _ from load_filter hnd]
    exact replay_slice_iff (judges_changeMatchesFilter filter) hstb

end

def regionRow (id region : String) : Row Text :=
  .ofList [("id", some id), ("region", some region)]

/-- A row of the slice is deleted, its key is used again outside the slice, and that row is deleted
too. -/
theorem reused_key_keeps_row : let columns : List ColumnDefinition := [⟨"id", true, 1⟩]
    let filter : Option (SubscriptionFilter Text) :=
      some ⟨[⟨"region", .equals (some "eu")⟩]⟩
    let rows := [regionRow "1" "eu"]
    let buffer : Snapshotter.Buffer Text :=
      (((∅ : Snapshotter.Buffer Text).onChange ["id"] (some (regionRow "1" "eu"))
        none).onChange ["id"] none (some (regionRow "1" "us"))).onChange ["id"]
        (some (regionRow "1" "us")) none
    let changes := buffer.toList.map Prod.snd
    compileSubscriptionFilter [⟨"region", some (.equals (some "eu"))⟩] = .ok filter ∧
      (rows.map (buildKey columns)).Nodup ∧
      Along (buildKey columns) changeEdit (Edit.Stable (buildKey columns) (verdict filter))
        (loadRows columns rows) changes ∧
      (replayChanges columns (loadRows columns (filterRows rows filter))
        (changes.filter (changeMatchesFilter · filter)))["1"]? = some (regionRow "1" "eu") ∧
      (slice (verdict filter)
        (replayChanges columns (loadRows columns rows) changes))["1"]? = none := by
  refine ⟨rfl, by decide, ⟨trivial, trivial⟩, rfl, rfl⟩

theorem filtering_commutes_reinserted : let columns : List ColumnDefinition := [⟨"id", true, 1⟩]
    let filter : Option (SubscriptionFilter Text) :=
      some ⟨[⟨"region", .equals (some "eu")⟩]⟩
    let env : AppendEnv := ⟨0, 0, []⟩
    let before : List (Op Int Text × AppendEnv) :=
      [(.onInsert (regionRow "1" "eu"), env), (.onInsert (regionRow "2" "us"), env)]
    let after : List (Op Int Text × AppendEnv) :=
      [(.onDelete (some (regionRow "1" "")), env), (.onInsert (regionRow "1" "us"), env),
        (.onUpdate (regionRow "2" "us") none, env), (.onInsert (regionRow "3" "eu"), env)]
    let cut := ((Target.new {}).onInit columns).run before
    let shot := cut.takeSnapshot ⟨0, 0, 0, [regionRow "2" "us", regionRow "1" "eu"]⟩
    let final := shot.2.run after
    let rows := [regionRow "1" "eu", regionRow "2" "us"]
    let changes : List (Change Text) := [⟨.delete, "1", some (regionRow "1" "eu"), none⟩,
        ⟨.insert, "1", none, some (regionRow "1" "us")⟩]
    replayEntries columns
        (loadRows columns (shot.1.rows.filter fun row => matchRow filter (some row)))
        ((final.j.entriesSince shot.1.sequence).filter (matchEntry filter)) =
      slice (verdict filter) final.store ∧
    ∀ n, replayChanges columns (loadRows columns (filterRows rows filter))
        ((changes.take n).filter (changeMatchesFilter · filter)) =
      slice (verdict filter)
        (replayChanges columns (loadRows columns rows) (changes.take n)) := by
  intro columns filter env before after cut shot final rows changes
  obtain ⟨htgt, harchive⟩ := filtering_commutes (P := Int) filter columns
  refine ⟨?_, (harchive rows changes (by decide) (by decide +kernel)).mpr (by decide +kernel)⟩
  exact htgt {} before after ⟨0, 0, 0, [regionRow "2" "us", regionRow "1" "eu"]⟩ cut shot.2
    final shot.1 rfl (by decide) rfl rfl (Journal.keptSince_iff_retains.mpr (by decide))
    (by decide +kernel)

end Laredo.Replication
