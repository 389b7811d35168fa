import Laredo.Engine.Rebaseline
import Laredo.Snapshotter.Diff

/-!
# Source subscription

The subscription of a snapshot writer that reads a source directly
(`snapshotter/sourcesub/sourcesub.go`): a copy of the table and its position, kept by events.
-/

namespace Laredo.Snapshotter

open List Edit TableChange

variable {P V : Type}

def Edit.ofChange : TableChange V → Edit V
  | .insert row => ⟨none, some row⟩
  | .update row identity => ⟨identity, some row⟩
  | .delete identity => ⟨identity, none⟩
  | .truncate => ⟨none, none⟩

lemma Edit.tableChange_ofChange {key : Row V → String} {table : Store V} {ch : TableChange V}
    (h : ch.Fits key table) : (ofChange ch).tableChange = ch := by
  cases ch with
  | update row identity | delete identity =>
    cases identity with
    | none => exact h.elim
    | some old => rfl
  | _ => rfl

structure Adapter (V : Type) where
  keyFields : List String
  state : Store V
  position : String
  registered : Bool

namespace Adapter

variable [GoValue V]

def baseline (a : Adapter V) (rows : List (Row V)) (position : String) : Adapter V :=
  { a with
    state := KeyedMap.load (fun row => rowKey a.keyFields (some row)) ∅ rows
    position := position }

def fold (a : Adapter V) (ev : ChangeEvent P V) : Store V :=
  match ev.action with
  | .insert | .update =>
      a.state.insert (rowKey a.keyFields ev.newValues) (Row.orEmpty ev.newValues)
  | .delete => a.state.erase (rowKey a.keyFields ev.oldValues)
  | .truncate => ∅

def apply (positionToString : Option P → String) (a : Adapter V) (ev : ChangeEvent P V) :
    Adapter V × Option (Edit V) :=
  ({ a with state := a.fold ev, position := positionToString ev.position }, if a.registered then
      some <| match ev.action with
        | .insert => ⟨none, ev.newValues⟩
        | .update => ⟨ev.oldValues, ev.newValues⟩
        | .delete => ⟨ev.oldValues, none⟩
        | .truncate => ⟨none, none⟩
    else none)

def run (positionToString : Option P → String) (a : Adapter V) :
    List (ChangeEvent P V) → Adapter V × List (Edit V)
  | [] => (a, [])
  | ev :: evs =>
      let r := a.apply positionToString ev
      let rest := r.1.run positionToString evs
      (rest.1, r.2.toList ++ rest.2)

variable (positionToString : Option P → String) {a : Adapter V}

lemma apply_event {key : Row V → String} {bef : Store V} {ch : TableChange V}
    (hfits : ch.Fits key bef) (hregi : a.registered = true) (table : TableIdentifier)
    (pos : P) :
    (a.apply positionToString (event table (pos, ch))).1 = { a with
          state := ch.applyBlind (fun row => rowKey a.keyFields (some row)) a.state
          position := positionToString (some pos) } ∧
      (a.apply positionToString (event table (pos, ch))).2 =
        some (ofChange ch) := by
  unfold apply
  rw [hregi, if_pos rfl]
  cases ch with
  | delete identity =>
    cases identity with
    | none => exact hfits.elim
    | some old => exact ⟨rfl, rfl⟩
  | _ => exact ⟨rfl, rfl⟩

lemma run_events {key : Row V → String} {bef : Store V} {hist : List (P × TableChange V)}
    (hwf : TableChange.WellFormed key bef hist) (hregi : a.registered = true)
    (table : TableIdentifier) :
    (a.run positionToString (hist.map (event table))).1.state =
        TableChange.replayBlind (fun row => rowKey a.keyFields (some row)) a.state hist ∧
      (a.run positionToString (hist.map (event table))).2 =
        hist.map (fun x => ofChange x.2) := by
  induction hist generalizing a bef with
  | nil => exact ⟨rfl, rfl⟩
  | cons x hist ih =>
    obtain ⟨hfits, hrest⟩ := hwf
    obtain ⟨hstt, hedit⟩ := apply_event positionToString hfits hregi table x.1
    have htail := ih (a := (a.apply positionToString (event table x)).1) hrest
      (by rw [hstt]; exact hregi)
    rw [map_cons, map_cons, run]
    simp only [hedit, Option.toList_some, singleton_append]
    rw [hstt] at htail ⊢
    exact ⟨htail.1, congrArg _ htail.2⟩

end Adapter

lemma Edit.replayBlind_ofChange [GoValue V] {kf : List String} {key : Row V → String}
    {bef : Store V} {history : List (P × TableChange V)}
    (hwf : TableChange.WellFormed key bef history) (table : Store V) :
    Edit.replayBlind kf table (history.map fun x => ofChange x.2) =
      TableChange.replayBlind (fun row => rowKey kf (some row)) table history := by
  induction history generalizing bef table with
  | nil => rfl
  | cons x history ih =>
    obtain ⟨hfits, hrest⟩ := hwf
    show Edit.replayBlind kf ((ofChange x.2).applyBlind kf table) _ = _
    rw [ih hrest, Edit.applyBlind, tableChange_ofChange hfits]
    rfl

end Laredo.Snapshotter
