import Laredo.Engine.Restore
import Laredo.Target.Indexes

/-!
# Per target

Several pipelines on one table, through a snapshot.
-/

namespace Laredo.Engine

open Memory Fanout List KeyedMap Shop

variable {ι P V : Type} [GoValue V]

namespace SyncTarget

def Mirrors : SyncTarget P V → Prop
  | indexed t => t.Mirrors
  | fanout t => KeyedMap.Keyed (buildKey t.cols) t.store

def SameSetup : SyncTarget P V → SyncTarget P V → Prop
  | indexed t, indexed u => t.SameSetup u
  | fanout t, fanout u => t.cols = u.cols
  | _, _ => False

def SameContent (t u : SyncTarget P V) : Prop :=
  (t.rows.toList.map Prod.snd).Perm (u.rows.toList.map Prod.snd) ∧
    match t, u with
    | indexed t, indexed u => t.SameAnswers u
    | _, _ => True

/-- What a target with the rows `own` must find in the entries it is restored from, for every unique
index and every index that lists rows. -/
def GivesBack (own rows : List (Row V)) : SyncTarget P V → Prop
  | indexed u => u.GivesBack own rows
  | fanout u => KeyedMap.EndsIn (buildKey u.cols)
      (fun row => ∃ k : String, u.store[k]? = some row) rows

/-- What the rows and answers of a target are, that was filled from `rows` alone: its rows are
those that are the last ones under their primary key. -/
def AnswersFrom (own rows : List (Row V)) (u : SyncTarget P V) : Prop :=
  (own.Nodup ∧ ∀ row, row ∈ own ↔ KeyedMap.lastWith u.key rows (u.key row) = some row) ∧
    match u with
    | indexed u => u.AnswersFrom rows
    | fanout _ => True

lemma restore_iff {t u : SyncTarget P V} (hu : u.Mirrors) (hsetup : t.SameSetup u)
    {own bef after rows : List (Row V)} (hown : Target.Iterates own u.rows)
    (hrows : rows = bef ++ own ++ after) :
    (t.restoreSnapshot rows).SameContent u ↔ u.GivesBack own rows := by
  cases u with
  | indexed u =>
    cases t with
    | fanout t => exact hsetup.elim
    | indexed t =>
      have hiff := IndexedTarget.Mirrors.restore_iff hu hsetup hown hrows
      refine ⟨fun h => hiff.mp h.2, fun h => ⟨?_, hiff.mpr h⟩⟩
      have hst : (t.restoreSnapshot rows).store = u.store := by
        rw [IndexedTarget.restoreSnapshot_eq, hsetup.pkCols]
        exact IndexedTarget.GivesBack.load_eq h hu hown hrows .primary
      show ((t.restoreSnapshot rows).store.toList.map Prod.snd).Perm _
      rw [hst]
      exact List.Perm.refl _
  | fanout u =>
    cases t with
    | indexed t => exact hsetup.elim
    | fanout t =>
      have hcols : t.cols = u.cols := hsetup
      have hkd : KeyedMap.Keyed (buildKey u.cols) u.store := hu
      have hrst : ((fanout t : SyncTarget P V).restoreSnapshot rows).rows =
          KeyedMap.load (buildKey u.cols) ∅ rows := by
        rw [(rows_restoreSnapshot _ rows).1, ← hcols]
        rfl
      unfold SameContent
      rw [hrst]
      constructor
      · rintro ⟨hperm, -⟩
        -- two keyed stores with the same rows are the same store
        have hload : KeyedMap.Keyed (buildKey u.cols)
            (KeyedMap.load (buildKey u.cols) ∅ rows) := KeyedMap.Keyed.empty.load rows
        have hsame := (load_values hload (.refl _)).symm.trans
          (load_values hkd hperm)
        refine (hkd.files.endsIn_iff rows).mp fun row _ => ?_
        rw [hsame]
      · intro h
        have hsub : ∀ row, (∃ k : String, u.store[k]? = some row) → row ∈ rows := by
          intro row hrow
          have hmem : row ∈ own := hown.mem_iff_exists.mpr hrow
          simp [hrows, hmem]
        rw [hkd.files.load_eq hsub h]
        exact ⟨List.Perm.refl _, trivial⟩

end SyncTarget

end Laredo.Engine
