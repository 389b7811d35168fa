import Laredo.Lib.Transition

/-!
# Drop oldest

`ChangeBuffer.SendDropOldest` (`internal/engine/buffer.go`) beside the consumer of the buffer.
-/

namespace Laredo.Engine

open Transition

variable {T : Type}

/-- Where `SendDropOldest` is between its operations on the channel. -/
inductive Sender (T : Type)
  | idle
  | full (item : T)
  | drained (item : T)

/-- The channel with its two ends. `sent` are the items that were put into it, and `gone` those
that were taken from it, each with whether it was dropped or received. -/
structure DropBuffer (T : Type) where
  ch : List T
  sender : Sender T
  sent : List T
  gone : List (T × Bool)

namespace DropBuffer

def capacity (size : Int) : Nat := if size ≤ 0 then 1 else size.toNat

inductive Act (T : Type)
  | offer (item : T)
  | drop
  | put
  | receive

inductive Step (cap : Nat) (s : DropBuffer T) : Act T → DropBuffer T → Prop
  | send {item : T} (hidle : s.sender = .idle) (hroom : s.ch.length < cap) :
      Step cap s (.offer item) { s with ch := s.ch ++ [item], sent := s.sent ++ [item] }
  | noRoom {item : T} (hidle : s.sender = .idle) (hfull : cap ≤ s.ch.length) :
      Step cap s (.offer item) { s with sender := .full item }
  | drop {item x : T} {rest : List T} (hfull : s.sender = .full item) (hch : s.ch = x :: rest) :
      Step cap s .drop
        { s with ch := rest, sender := .drained item, gone := s.gone ++ [(x, true)] }
  | put {item : T} (hdrained : s.sender = .drained item) (hroom : s.ch.length < cap) :
      Step cap s .put
        { s with ch := s.ch ++ [item], sender := .idle, sent := s.sent ++ [item] }
  | receive {x : T} {rest : List T} (hch : s.ch = x :: rest) :
      Step cap s .receive { s with ch := rest, gone := s.gone ++ [(x, false)] }

def init : DropBuffer T := ⟨[], .idle, [], []⟩

/-- The producer is at an operation on the channel that does not go through. -/
def Waits (cap : Nat) (s : DropBuffer T) : Prop :=
  match s.sender with
  | .idle => False
  | .full _ => s.ch = []
  | .drained _ => cap ≤ s.ch.length

/-- The consumer does not receive between the full check and the drop. -/
def Apart (s : DropBuffer T) : Act T → Prop
  | .receive => ∀ item, s.sender ≠ .full item
  | _ => True

/-- What is taken and what is left is what was sent, in order; and there is room exactly where
the producer counts on it. -/
structure Orderly (cap : Nat) (s : DropBuffer T) : Prop where
  order : s.gone.map Prod.fst ++ s.ch = s.sent
  bound : s.ch.length ≤ cap
  full : ∀ item, s.sender = .full item → s.ch.length = cap
  drained : ∀ item, s.sender = .drained item → s.ch.length < cap

variable {cap : Nat} {s s' : DropBuffer T} {a : Act T}

lemma Orderly.step (h : s.Orderly cap) (hok : s.Apart a) (hs : Step cap s a s') :
    s'.Orderly cap := by
  obtain ⟨hord, hbd, hfull, hdr⟩ := h
  cases hs with
  | send hidle hroom =>
    refine ⟨by simp [← hord], by simpa using Nat.succ_le_of_lt hroom, ?_, ?_⟩ <;> simp [hidle]
  | noRoom hidle hroom => exact ⟨hord, hbd, fun _ _ => Nat.le_antisymm hbd hroom, nofun⟩
  | drop hat hch =>
    have hlen := hfull _ hat
    rw [hch, List.length_cons] at hlen
    refine ⟨by simp [← hord, hch], ?_, nofun, fun _ _ => ?_⟩
    all_goals simp only; omega
  | put hat hroom => exact ⟨by simp [← hord], by simpa using Nat.succ_le_of_lt hroom, nofun, nofun⟩
  | receive hch =>
    rw [hch, List.length_cons] at hbd
    refine ⟨by simp [← hord, hch], Nat.le_of_succ_le hbd, fun item hat => ?_, fun _ _ => hbd⟩
    exact absurd hat (hok item)

/-- **`SendDropOldest` beside a consumer** that does not receive between the two steps of a drop:
the producer never waits, what is dropped is the oldest of a full buffer, and what was taken and
what is left are the items sent, in order. -/
theorem drop_oldest_does_not_wait (size : Int)
    (hrun : Reach (Step (capacity size)) Apart (init : DropBuffer T) s) :
    ¬ s.Waits (capacity size) ∧
    (∀ s', Step (capacity size) s .drop s' → s.ch.length = capacity size ∧
      ∃ x, s.ch = x :: s'.ch ∧ s'.gone = s.gone ++ [(x, true)]) ∧
    s.gone.map Prod.fst ++ s.ch = s.sent := by
  have hpos : 0 < capacity size := by
    unfold capacity
    split <;> omega
  have hinv : s.Orderly (capacity size) :=
    hrun.invariant (Orderly (capacity size)) ⟨rfl, Nat.zero_le _, nofun, nofun⟩
      fun h hok hs => h.step hok hs
  refine ⟨fun hwaits => ?_, fun s' hs => ?_, hinv.order⟩
  · cases hat : s.sender with
    | idle => simp [Waits, hat] at hwaits
    | full item =>
      have hlen := hinv.full item hat
      simp only [Waits, hat] at hwaits
      simp [hwaits] at hlen
      omega
    | drained item =>
      have hlen := hinv.drained item hat
      simp only [Waits, hat] at hwaits
      omega
  · cases hs with
    | drop hat hch => exact ⟨hinv.full _ hat, _, hch, rfl⟩

theorem drop_oldest_does_not_wait_dropped : ∃ s : DropBuffer Nat,
    Reach (Step 1) Apart init s ∧ s.gone = [(1, false), (2, true)] ∧
    ¬ s.Waits (capacity 1) := by
  have h : Reach (Step 1) Apart (init : DropBuffer Nat) _ := .refl _
  have h := h
    |>.snoc (a := .offer 1) (.send rfl (by decide))
    |>.snoc (.receive rfl) nofun
    |>.snoc (a := .offer 2) (.send rfl (by decide))
    |>.snoc (a := .offer 3) (.noRoom rfl (by decide))
    |>.snoc (.drop rfl rfl)
    |>.snoc (.put rfl (by decide))
  exact ⟨_, h, rfl, (drop_oldest_does_not_wait 1 h).1⟩

/-- The buffer of one is full when 2 is offered, and empty when the producer gets to drop: it waits
for an item that nobody else sends. -/
theorem emptied_buffer_blocks_sender : ∃ s : DropBuffer Nat, Run (Step (capacity 1)) init s ∧
    s.sender = .full 2 ∧ s.ch = [] ∧ s.Waits (capacity 1) := by
  have h : Run (Step (capacity 1)) (init : DropBuffer Nat) _ :=
    .refl _
  have h := h
    |>.snoc (a := .offer 1) (.send rfl (by decide))
    |>.snoc (a := .offer 2) (.noRoom rfl (by decide))
    |>.snoc (.receive rfl)
  exact ⟨_, h, rfl, rfl, rfl⟩

end DropBuffer

end Laredo.Engine
