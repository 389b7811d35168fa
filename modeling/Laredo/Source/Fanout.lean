import Laredo.Client.Replica

/-!
# Fanout

The cascading source (`source/fanout/fanout.go`): the changes a fan-out client reports to its
listener become the change events of a source.
-/

namespace Laredo.FanoutSource

variable {V : Type}

def toEvent (table : TableIdentifier) (rec : Notification V) : ChangeEvent String V :=
  match rec.old, rec.new with
  | none, none => ⟨table, .truncate, some rec.position, none, none⟩
  | none, some new => ⟨table, .insert, some rec.position, some new, none⟩
  | some old, none => ⟨table, .delete, some rec.position, none, some old⟩
  | some old, some new => ⟨table, .update, some rec.position, some new, some old⟩

lemma toEvent_truncate_iff (table : TableIdentifier) (rec : Notification V) :
    (toEvent table rec).action = .truncate ↔ rec.old = none ∧ rec.new = none := by
  unfold toEvent
  cases rec.old <;> cases rec.new <;> simp

end Laredo.FanoutSource
