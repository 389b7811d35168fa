import Laredo.Engine.SyncTarget
import Laredo.Target.Compiled

/-!
# Redelivery

Delivery is at least once: a target that kept its rows may get the end of its history a second time.
-/

namespace Laredo

open Overwrite List
open Fanout (Op AppendEnv)

variable {C P V : Type} [GoValue V]

namespace Engine.SyncTarget

def overwrite (t : SyncTarget P V) : Op P V → Overwrite String (Row V)
  | .onBaselineRow row | .onInsert row => .set (t.key row) row
  | .onBaselineComplete | .setChangePosition _ => .skip
  | .onUpdate row identity =>
      match t with
      | indexed _ => .move (t.key (Row.orEmpty identity)) (t.key row) row
      | fanout _ => .set (t.key row) row
  | .onDelete identity => .delete (t.key (Row.orEmpty identity))
  | .onTruncate => .clear

lemma effect_overwrites (t : SyncTarget P V) (store : Store V) (op : Op P V) :
    held (t.effect store op) = (t.overwrite op).apply (held store) := by
  cases op with
  | onBaselineRow row | onInsert row => exact set_held _ _ _
  | onBaselineComplete | setChangePosition position => exact skip_held _
  | onUpdate row identity =>
    cases t with
    | indexed t => exact move_held _ _ _ _
    | fanout t => exact set_held _ _ _
  | onDelete identity => exact delete_held _ _
  | onTruncate => exact clear_held _

lemma rows_redelivered (t : SyncTarget P V) (h₁ h₂ h₂' : List (Op P V × AppendEnv))
    (hsame : h₂'.map Prod.fst = h₂.map Prod.fst) :
    ((t.run (h₁ ++ h₂)).run h₂').rows = (t.run (h₁ ++ h₂)).rows := by
  have hrun : (t.run (h₁ ++ h₂)).run h₂' = t.run (h₁ ++ h₂ ++ h₂') := by
    simp only [run, foldl_append]
  have hagain := view_redelivered held (fun _ => True)
    (fun store op _ => ⟨trivial, t.effect_overwrites store op⟩) (s := t.rows) trivial
    (h₁.map Prod.fst) (h₂.map Prod.fst)
  rw [hrun, rows_run, rows_run, map_append, map_append, hsame, foldl_append]
  exact eq_of_held hagain

end Engine.SyncTarget

namespace Memory.CompiledTarget

def run (t : CompiledTarget C V) (ops : List (Op P V)) : CompiledTarget C V := ops.foldl apply t

lemma store_redelivered (t : CompiledTarget C V) (h₁ h₂ : List (Op P V)) :
    ((t.run (h₁ ++ h₂)).run h₂).store = (t.run (h₁ ++ h₂)).store := by
  have hstep : ∀ (t' : CompiledTarget C V) (op : Op P V),
      t'.overwrite = (t.overwrite : Op P V → _) →
      (t'.apply op).overwrite = (t.overwrite : Op P V → _) ∧
        held (t'.apply op).store = (t.overwrite op).apply (held t'.store) := by
    intro t' op ht'
    obtain ⟨hsame, hhl⟩ := t'.apply_overwrites op
    exact ⟨hsame.trans ht', by rw [hhl, ht']⟩
  have hagain := view_redelivered (fun t' => held t'.store)
    (fun t' : CompiledTarget C V => t'.overwrite = (t.overwrite : Op P V → _)) hstep
    (s := t) rfl h₁ h₂
  exact eq_of_held hagain

end Memory.CompiledTarget

/-- **Redelivery of a suffix is harmless to the stored rows** of the indexed, the fan-out and the
compiled target. -/
theorem redelivery_keeps_rows (h₁ h₂ h₂' : List (Op P V × AppendEnv))
    (hsame : h₂'.map Prod.fst = h₂.map Prod.fst) :
    (∀ t : Engine.SyncTarget P V, ((t.run (h₁ ++ h₂)).run h₂').rows = (t.run (h₁ ++ h₂)).rows) ∧
    ∀ t : Memory.CompiledTarget C V,
      ((t.run ((h₁ ++ h₂).map Prod.fst)).run (h₂'.map Prod.fst)).store =
        (t.run ((h₁ ++ h₂).map Prod.fst)).store := by
  refine ⟨fun t => t.rows_redelivered h₁ h₂ h₂' hsame, fun t => ?_⟩
  rw [hsame, map_append]
  exact t.store_redelivered _ _

theorem redelivery_keeps_rows_run :
    let row (id : String) : Row Text := .ofList [("id", some id)]
    let env : AppendEnv := ⟨0, 0, []⟩
    let later : AppendEnv := ⟨9, 9, []⟩
    let h₁ : List (Op Int Text × AppendEnv) :=
      [(.onInsert (row "1"), env), (.onInsert (row "3"), env)]
    let h₂ : List (Op Int Text × AppendEnv) :=
      [(.onUpdate (row "2") (some (row "1")), env), (.onDelete (some (row "3")), env)]
    let h₂' : List (Op Int Text × AppendEnv) :=
      [(.onUpdate (row "2") (some (row "1")), later), (.onDelete (some (row "3")), later)]
    let indexed : Engine.SyncTarget Int Text :=
      .indexed { Memory.IndexedTarget.new [] [] with pkCols := ["id"] }
    let compiled : Memory.CompiledTarget String Text :=
      .new (fun r => r.get "id") ["id"] (some fun r => r.get "id" != some "2")
    (indexed.run (h₁ ++ h₂)).rows.keys = ["2"] ∧
      ((indexed.run (h₁ ++ h₂)).run h₂').rows = (indexed.run (h₁ ++ h₂)).rows ∧
      (compiled.run (h₁.map Prod.fst)).store.keys = ["1", "3"] ∧
      ((compiled.run ((h₁ ++ h₂).map Prod.fst)).run (h₂'.map Prod.fst)).store =
        (compiled.run ((h₁ ++ h₂).map Prod.fst)).store := by
  intro row env later h₁ h₂ h₂' indexed compiled
  obtain ⟨hrows, hst⟩ := redelivery_keeps_rows (C := String) h₁ h₂ h₂' rfl
  exact ⟨by decide +kernel, hrows indexed, by decide +kernel, hst compiled⟩

end Laredo
