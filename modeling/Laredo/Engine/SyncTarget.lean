import Laredo.Target.Memory
import Laredo.Engine.Pipeline

/-!
# Sync target

The targets a pipeline can have (`laredo.SyncTarget`): the indexed in-memory target and the fan-out
target.
-/

namespace Laredo

open Memory List
open Fanout (Op AppendEnv)

variable {P V : Type}

def TableChange.op : TableChange V → Op P V
  | insert row => .onInsert row
  | update row identity => .onUpdate row identity
  | delete identity => .onDelete identity
  | truncate => .onTruncate

namespace Engine

def LogEntry.ops : LogEntry P V → List (Op P V)
  | change e call => .setChangePosition e.position :: (call.map TableChange.op).toList
  | truncated => [.onTruncate]
  | baselineRow row => [.onBaselineRow row]
  | baselineComplete position => [.setChangePosition (some position), .onBaselineComplete]

inductive SyncTarget (P V : Type)
  | indexed (t : IndexedTarget V)
  | fanout (t : Fanout.Target P V)

section

variable [GoValue V]

namespace SyncTarget

def rows : SyncTarget P V → Store V
  | indexed t => t.store
  | fanout t => t.store

def key : SyncTarget P V → Row V → String
  | indexed t => buildKey t.pkCols
  | fanout t => Fanout.buildKey t.cols

def apply (env : AppendEnv) (op : Op P V) : SyncTarget P V → SyncTarget P V
  | indexed t => indexed (t.apply op)
  | fanout t => fanout (op.apply t env)

def onInit (columns : List ColumnDefinition) : SyncTarget P V → Except String (SyncTarget P V)
  | indexed t => indexed <$> t.onInit columns
  | fanout t => .ok (fanout (t.onInit columns))

def restoreSnapshot (rows : List (Row V)) : SyncTarget P V → SyncTarget P V
  | indexed t => indexed (t.restoreSnapshot rows)
  | fanout t => fanout (t.restoreSnapshot rows)

/-- `SetChangePosition(position)`; only the fan-out target is a `PositionedTarget`. -/
def setChangePosition (position : Option P) : SyncTarget P V → SyncTarget P V
  | indexed t => indexed t
  | fanout t => fanout (t.setChangePosition position)

def onBaselineComplete : SyncTarget P V → SyncTarget P V
  | indexed t => indexed t
  | fanout t => fanout t.onBaselineComplete

def count : SyncTarget P V → Nat
  | indexed t => t.count
  | fanout t => t.store.size

def run (t : SyncTarget P V) (ops : List (Op P V × AppendEnv)) : SyncTarget P V :=
  ops.foldl (fun t op => t.apply op.2 op.1) t

/-- What a callback does to the rows. The two kinds differ in updates: the indexed target
removes the row it finds by the identity, the fan-out target does not look at it. -/
def effect (t : SyncTarget P V) (store : Store V) : Op P V → Store V
  | .onBaselineRow row | .onInsert row => KeyedMap.put t.key store row
  | .onBaselineComplete | .setChangePosition _ => store
  | .onUpdate row identity =>
      match t with
      | indexed _ => KeyedMap.put t.key (store.erase (t.key (Row.orEmpty identity))) row
      | fanout _ => KeyedMap.put t.key store row
  | .onDelete identity => store.erase (t.key (Row.orEmpty identity))
  | .onTruncate => ∅

lemma rows_apply (t : SyncTarget P V) (env : AppendEnv) (op : Op P V) :
    (t.apply env op).rows = t.effect t.rows op ∧
      (t.apply env op).key = t.key ∧ (t.apply env op).effect = t.effect := by
  cases t with
  | fanout t => cases op <;> exact ⟨rfl, rfl, rfl⟩
  | indexed t =>
    have heff : ∀ t' : IndexedTarget V, t'.pkCols = t.pkCols →
        (indexed t' : SyncTarget P V).key = (indexed t : SyncTarget P V).key ∧
          (indexed t' : SyncTarget P V).effect = (indexed t : SyncTarget P V).effect := by
      intro t' hcols
      have hkey : (indexed t' : SyncTarget P V).key = (indexed t : SyncTarget P V).key := by
        simp [key, hcols]
      refine ⟨hkey, ?_⟩
      funext store op
      cases op <;> simp [effect, hkey]
    cases op with
    | onUpdate row identity =>
      obtain ⟨hst, hcols⟩ := t.store_onUpdate row identity
      exact ⟨hst, heff _ hcols⟩
    | onDelete identity =>
      obtain ⟨hst, hcols⟩ := t.store_onDelete identity
      exact ⟨hst, heff _ hcols⟩
    | _ => exact ⟨rfl, heff _ rfl⟩

lemma rows_run (t : SyncTarget P V) (ops : List (Op P V × AppendEnv)) :
    (t.run ops).rows = (ops.map Prod.fst).foldl t.effect t.rows := by
  unfold run
  induction ops generalizing t with
  | nil => rfl
  | cons op ops ih =>
    obtain ⟨hrows, -, heff⟩ := t.rows_apply op.2 op.1
    rw [foldl_cons, ih, hrows, heff, map_cons, foldl_cons]

def Keyed (t : SyncTarget P V) : Prop := KeyedMap.Keyed t.key t.rows

variable {t : SyncTarget P V}

lemma Keyed.apply (h : t.Keyed) (env : AppendEnv) (op : Op P V) : (t.apply env op).Keyed := by
  obtain ⟨hrows, hkey, -⟩ := t.rows_apply env op
  unfold Keyed
  rw [hrows, hkey]
  cases op with
  | onBaselineRow row | onInsert row => exact KeyedMap.Keyed.put h row
  | onBaselineComplete => exact h
  | setChangePosition position => exact h
  | onUpdate row identity =>
    cases t with
    | indexed t => exact (KeyedMap.Keyed.erase h _).put row
    | fanout t => exact KeyedMap.Keyed.put h row
  | onDelete identity => exact KeyedMap.Keyed.erase h _
  | onTruncate => exact KeyedMap.Keyed.empty

lemma Keyed.run (h : t.Keyed) (ops : List (Op P V × AppendEnv)) : (t.run ops).Keyed := by
  unfold SyncTarget.run
  induction ops generalizing t with
  | nil => exact h
  | cons op ops ih => exact ih (h.apply op.2 op.1)

lemma rows_restoreSnapshot (t : SyncTarget P V) (rows : List (Row V)) :
    (t.restoreSnapshot rows).rows = KeyedMap.load t.key ∅ rows ∧
      (t.restoreSnapshot rows).key = t.key := by
  cases t with
  | fanout t => exact ⟨rfl, rfl⟩
  | indexed t =>
    have hload : ∀ t : IndexedTarget V, (rows.foldl IndexedTarget.onInsert t).store =
        KeyedMap.load (buildKey t.pkCols) t.store rows ∧
          (rows.foldl IndexedTarget.onInsert t).pkCols = t.pkCols := by
      induction rows with
      | nil => exact fun t => ⟨rfl, rfl⟩
      | cons row rows ih => exact fun t => ih (t.onInsert row)
    obtain ⟨hst, hcols⟩ := hload t.onTruncate
    refine ⟨hst, ?_⟩
    simp only [restoreSnapshot, IndexedTarget.restoreSnapshot, key, hcols]
    rfl

lemma Keyed.restoreSnapshot (t : SyncTarget P V) (rows : List (Row V)) :
    (t.restoreSnapshot rows).Keyed := by
  obtain ⟨hrows, hkey⟩ := t.rows_restoreSnapshot rows
  unfold Keyed
  rw [hrows, hkey]
  exact KeyedMap.Keyed.empty.load rows

omit [GoValue V] in
lemma rows_onInit {t' : SyncTarget P V} {cols : List ColumnDefinition}
    (h : t.onInit cols = .ok t') (hrows : t.rows = ∅) : t'.rows = ∅ := by
  cases t with
  | fanout t =>
    cases h
    exact hrows
  | indexed t =>
    simp only [onInit, IndexedTarget.onInit] at h
    cases hv : t.validateFields cols with
    | error e => simp [hv] at h
    | ok u =>
      rw [hv] at h
      cases h
      rfl

lemma Keyed.of_empty (h : t.rows = ∅) : t.Keyed := by
  unfold Keyed
  rw [h]
  exact KeyedMap.Keyed.empty

def entryEffect (t : SyncTarget P V) (store : Store V) (entry : LogEntry P V) : Store V :=
  entry.ops.foldl t.effect store

lemma rows_run_log (t : SyncTarget P V) {ops : List (Op P V × AppendEnv)}
    {log : List (LogEntry P V)} (h : ops.map Prod.fst = log.flatMap LogEntry.ops) :
    (t.run ops).rows = log.foldl t.entryEffect t.rows := by
  rw [rows_run, h, foldl_flatMap]
  rfl

def CanFollow (t : SyncTarget P V) (ch : TableChange V) : Prop :=
  match t with
  | indexed _ => ∀ row, ch ≠ .update row none
  | fanout _ => ch.KeepsKey t.key

lemma CanFollow.effect_eq {ch : TableChange V} (h : t.CanFollow ch)
    (store : Store V) : t.effect store ch.op = ch.apply t.key store := by
  cases ch with
  | update row identity =>
    cases t with
    | indexed t =>
      cases identity with
      | none => exact absurd rfl (h row)
      | some old => rfl
    | fanout t =>
      cases identity with
      | none => rfl
      | some old =>
        -- the row that is replaced has the key of the new one
        have hkey : (fanout t : SyncTarget P V).key old = (fanout t : SyncTarget P V).key row := h
        refine Std.ExtTreeMap.ext_getElem? fun k => ?_
        simp only [TableChange.op, effect, TableChange.apply, KeyedMap.getElem?_put,
          KeyedMap.getElem?_erase, hkey]
        split <;> rfl
  | _ => rfl

end SyncTarget

end

end Engine

end Laredo
