import Laredo.Lib.Overwrite
import Laredo.Lib.Transition
import Laredo.Target.Memory

/-!
# Subscription

`Subscribe` of the query service (`service/query/query.go`) with `replay_existing`. Rows are sent as
they are.
-/

namespace Laredo.Memory

open KeyedMap Overwrite List Option Row
open Transition (Reach)

variable {V : Type}

/-- The calls on a target; a row that is nil is `none`. -/
inductive Call (V : Type)
  | onInsert (row : Option (Row V))
  | onUpdate (row identity : Option (Row V))
  | onDelete (identity : Option (Row V))
  | onTruncate

def Call.NotNil : Call V → Prop
  | onInsert row | onUpdate row _ => row.isSome = true
  | onDelete _ | onTruncate => True

inductive Message (V : Type)
  | insert (new : Row V)
  | update (old new : Row V)
  | delete (old : Row V)
  | truncate

/-- What the listener sends of a notification with these old and new rows. -/
def Message.of : Option (Row V) → Option (Row V) → Message V
  | none, some new => insert new
  | some old, some new => update old new
  | some old, none => delete old
  | none, none => truncate

variable [GoValue V]

def Message.apply (cols : List String) (m : Store V) : Message V → Store V
  | insert new => put (buildKey cols) m new
  | update old new => put (buildKey cols) (m.erase (buildKey cols old)) new
  | delete old => m.erase (buildKey cols old)
  | truncate => ∅

def Message.write (cols : List String) : Message V → Overwrite String (Row V)
  | insert new => .set (buildKey cols new) new
  | update old new => .move (buildKey cols old) (buildKey cols new) new
  | delete old => .delete (buildKey cols old)
  | truncate => .clear

lemma Message.apply_held (cols : List String) (m : Store V) (msg : Message V) :
    held (msg.apply cols m) = (msg.write cols).apply (held m) := by
  cases msg with
  | insert new => exact set_held m _ new
  | update old new => exact move_held m _ _ new
  | delete old => exact delete_held m _
  | truncate => exact clear_held m

/-- A target and its subscriber. `isNil` are the keys under which a nil row is stored, `ch` is the
channel once the listener is registered, `sent` is what the client was sent. -/
structure Feed (V : Type) where
  target : IndexedTarget V
  isNil : String → Bool
  ch : Option (List (Message V))
  replayed : Bool
  sent : List (Message V)

namespace Feed

def pending (s : Feed V) : List (Message V) := s.ch.getD []

def stored (s : Feed V) (key : String) : Option (Row V) :=
  if s.isNil key then none else s.target.store[key]?

/-- What the listener is told of a call, with the stored row as the old one. -/
def notify (s : Feed V) : Call V → Option (Message V)
  | .onInsert row => some (.of none row)
  | .onUpdate row identity =>
      some (.of (s.stored (buildKey s.target.pkCols (orEmpty identity))) row)
  | .onDelete identity =>
      let key := buildKey s.target.pkCols (orEmpty identity)
      s.target.store[key]?.map fun _ => .of (s.stored key) none
  | .onTruncate => some (.of none none)

/-- A call on the target. A message that finds the channel full is dropped. -/
def call (s : Feed V) (c : Call V) : Feed V :=
  { s with
    target :=
      match c with
      | .onInsert row => s.target.onInsert (orEmpty row)
      | .onUpdate row identity => s.target.onUpdate (orEmpty row) identity
      | .onDelete identity => s.target.onDelete identity
      | .onTruncate => s.target.onTruncate
    isNil :=
      match c with
      | .onInsert row | .onUpdate row _ =>
          Function.update s.isNil (buildKey s.target.pkCols (orEmpty row)) row.isNone
      | .onDelete _ | .onTruncate => s.isNil
    ch := s.ch.map fun ch => if ch.length < 256 then ch ++ (s.notify c).toList else ch }

inductive Act (V : Type)
  | call (c : Call V)
  | listen
  | replay (rows : List (Row V))
  | send

inductive Step : Feed V → Act V → Feed V → Prop
  | call {s : Feed V} (c : Call V) : Step s (.call c) (s.call c)
  | listen {s : Feed V} (hch : s.ch = none) : Step s .listen { s with ch := some [] }
  | replay {s : Feed V} {rows : List (Row V)} (hch : s.ch ≠ none) (hreplayed : s.replayed = false)
      (hrows : Fanout.Target.Iterates rows s.target.store) :
      Step s (.replay rows) { s with replayed := true, sent := rows.map .insert }
  | send {s : Feed V} {msg : Message V} {rest : List (Message V)} (hreplayed : s.replayed = true)
      (hch : s.ch = some (msg :: rest)) :
      Step s .send { s with ch := some rest, sent := s.sent ++ [msg] }

/-- The channel has room, and no nil row is stored. -/
def Orderly (s : Feed V) : Act V → Prop
  | .call c => s.pending.length < 256 ∧ c.NotNil
  | .listen | .replay _ | .send => True

def start (target : IndexedTarget V) : Feed V := ⟨target, fun _ => false, none, false, []⟩

def shown (s : Feed V) (msgs : List (Message V)) : Store V :=
  msgs.foldl (Message.apply s.target.pkCols) ∅

structure Faithful (s : Feed V) : Prop where
  keyed : Keyed (buildKey s.target.pkCols) s.target.store
  notNil : ∀ key, s.isNil key = false
  listening : s.replayed = true → s.ch.isSome
  /-- Before the replay, the messages in the channel are the end of a history of the target. -/
  before : s.replayed = false → ∃ past, s.shown (past ++ s.pending) = s.target.store
  after : s.replayed = true → s.shown (s.sent ++ s.pending) = s.target.store

variable {s : Feed V} {c : Call V}

lemma call_target (h : s.Faithful) (hc : c.NotNil) :
    (s.call c).target.pkCols = s.target.pkCols ∧ (s.call c).target.store =
      (s.notify c).toList.foldl (Message.apply s.target.pkCols) s.target.store := by
  have hstored : ∀ key, s.stored key = s.target.store[key]? := fun key => by simp [stored, h.notNil]
  cases c with
  | onInsert row =>
    obtain ⟨row, rfl⟩ := isSome_iff_exists.1 hc
    exact ⟨rfl, rfl⟩
  | onUpdate row identity =>
    obtain ⟨row, rfl⟩ := isSome_iff_exists.1 hc
    obtain ⟨hstore, hcols⟩ := s.target.store_onUpdate row identity
    refine ⟨hcols, hstore.trans ?_⟩
    simp only [notify, hstored]
    cases hold : s.target.store[buildKey s.target.pkCols (orEmpty identity)]? with
    | none =>
      rw [erase_eq_of_none hold]
      rfl
    | some old =>
      rw [← h.keyed _ old hold]
      rfl
  | onDelete identity =>
    obtain ⟨hstore, hcols⟩ := s.target.store_onDelete identity
    refine ⟨hcols, hstore.trans ?_⟩
    simp only [notify, hstored]
    cases hold : s.target.store[buildKey s.target.pkCols (orEmpty identity)]? with
    | none => exact erase_eq_of_none hold
    | some old =>
      rw [← h.keyed _ old hold]
      rfl
  | onTruncate => exact ⟨rfl, rfl⟩

lemma keyed_foldl {cols : List String} {m : Store V} (h : Keyed (buildKey cols) m)
    (msgs : List (Message V)) :
    Keyed (buildKey cols) (msgs.foldl (Message.apply cols) m) := by
  induction msgs generalizing m with
  | nil => exact h
  | cons msg msgs ih =>
    refine ih ?_
    cases msg with
    | insert new => exact h.put new
    | update old new => exact (h.erase _).put new
    | delete old => exact h.erase _
    | truncate => exact Keyed.empty

lemma Faithful.call (h : s.Faithful) (hok : s.Orderly (.call c)) : (s.call c).Faithful := by
  obtain ⟨hroom, hc⟩ := hok
  obtain ⟨hcols, hstore⟩ := call_target h hc
  have hpending : s.ch.isSome → (s.call c).pending = s.pending ++ (s.notify c).toList := by
    intro hch
    obtain ⟨ch, hch⟩ := isSome_iff_exists.1 hch
    simp only [pending, hch, getD_some] at hroom ⊢
    simp [Feed.call, hch, hroom]
  have hshown : ∀ msgs, s.shown msgs = s.target.store →
      (s.call c).shown (msgs ++ (s.notify c).toList) = (s.call c).target.store := by
    intro msgs hmsgs
    rw [shown, hcols, foldl_append, hstore, ← hmsgs]
    rfl
  refine ⟨?_, ?_, fun hr => ?_, fun hr => ?_, fun hr => ?_⟩
  · rw [hcols, hstore]
    exact keyed_foldl h.keyed _
  · intro key
    cases c <;> simp_all [Feed.call, Call.NotNil, Function.update_apply, h.notNil]
  · simpa [Feed.call] using h.listening hr
  · obtain ⟨past, hpast⟩ := h.before hr
    cases hch : s.ch with
    | none =>
      refine ⟨past ++ s.pending ++ (s.notify c).toList, ?_⟩
      have hnone : (s.call c).pending = [] := by simp [pending, Feed.call, hch]
      rw [hnone, append_nil]
      exact hshown _ hpast
    | some ch =>
      refine ⟨past, ?_⟩
      rw [hpending (by simp [hch]), ← append_assoc]
      exact hshown _ hpast
  · have hsent : (s.call c).sent = s.sent := rfl
    rw [hsent, hpending (h.listening hr), ← append_assoc]
    exact hshown _ (h.after hr)

lemma Faithful.step {a : Act V} {s' : Feed V} (h : s.Faithful) (hok : s.Orderly a)
    (hstep : Step s a s') : s'.Faithful := by
  cases hstep with
  | call c => exact h.call hok
  | listen hch =>
    refine ⟨h.keyed, h.notNil, fun _ => rfl, fun hr => ?_, fun hr => ?_⟩
    · obtain ⟨past, hpast⟩ := h.before hr
      exact ⟨past, by simpa [shown, pending, hch] using hpast⟩
    · exact absurd (h.listening hr) (by simp [hch])
  | @replay rows hch hreplayed hrows =>
    refine ⟨h.keyed, h.notNil, fun _ => isSome_iff_ne_none.2 hch, nofun, fun _ => ?_⟩
    obtain ⟨past, hpast⟩ := h.before hreplayed
    have hload : (rows.map Message.insert).foldl (Message.apply s.target.pkCols) ∅ =
        s.target.store :=
      foldl_map.trans (load_values h.keyed hrows)
    have hagain := view_redelivered held (fun _ => True)
      (fun m msg _ => ⟨trivial, Message.apply_held s.target.pkCols m msg⟩)
      (s := (∅ : Store V)) trivial past s.pending
    show (rows.map Message.insert ++ s.pending).foldl (Message.apply s.target.pkCols) ∅ =
      s.target.store
    rw [foldl_append, hload]
    rw [shown] at hpast
    rw [hpast] at hagain
    exact eq_of_held hagain
  | @send msg rest hreplayed hch =>
    refine ⟨h.keyed, h.notNil, fun _ => rfl, fun hr => ?_, fun _ => ?_⟩
    · cases hreplayed.symm.trans hr
    · simpa [shown, pending, hch] using h.after hreplayed

/-- **A subscription with replay is complete**: after the replay, the messages sent and those in the
channel make the rows of the target, if the channel does not overflow and no row is nil. -/
theorem messages_show_store (target : IndexedTarget V) (hempty : target.store = ∅)
    (hrun : Reach Step Orderly (start target) s) (hreplayed : s.replayed = true) :
    s.shown (s.sent ++ s.pending) = s.target.store := by
  have hstart : (start target).Faithful :=
    ⟨by simpa [start, hempty] using Keyed.empty, fun _ => rfl, nofun,
      fun _ => ⟨[], by simp [shown, pending, start, hempty]⟩, nofun⟩
  exact (hrun.invariant Faithful hstart Faithful.step).after hreplayed

def accounts : IndexedTarget Text := { IndexedTarget.new [] [] with pkCols := ["id"] }

def account : Row Text := .ofList [("id", some "1")]

theorem messages_show_store_twice :
    ∃ s, Reach Step Orderly (start accounts) s ∧ s.sent = [.insert account, .insert account] ∧
      s.shown (s.sent ++ s.pending) = s.target.store := by
  have h : Reach Step Orderly (start accounts) _ := .refl _
  have h := h
    |>.snoc (.listen rfl)
    |>.snoc (.call (.onInsert (some account)))
    |>.snoc (a := .replay [account]) (.replay (some_ne_none _) rfl (by decide +kernel))
    |>.snoc (.send rfl rfl)
  exact ⟨_, h, rfl, messages_show_store accounts rfl h rfl⟩

/-- After the replay a row that is nil is inserted, and the subscriber is told to drop all rows. -/
theorem nil_row_is_sent_as_truncate :
    ∃ s, Reach Step (fun s _ => s.pending.length < 256) (start accounts) s ∧ s.replayed = true ∧
      s.sent ++ s.pending = [.insert account, .truncate] ∧ s.shown (s.sent ++ s.pending) = ∅ ∧
      s.target.count = 2 := by
  have h : Reach Step (fun s _ => s.pending.length < 256) (start accounts) _ := .refl _
  have h := h
    |>.snoc (.call (.onInsert (some account)))
    |>.snoc (.listen rfl)
    |>.snoc (a := .replay [account]) (.replay (some_ne_none _) rfl (by decide +kernel))
    |>.snoc (.call (.onInsert none))
  exact ⟨_, h, rfl, rfl, rfl, rfl⟩

end Feed

end Laredo.Memory
