import Laredo.Source.Cascade

/-!
# Fanout queue

The queue of the cascading source (`source/fanout/fanout.go`) and the loop of `Stream`, which waits
for a signal on a channel with one slot.
-/

namespace Laredo.FanoutSource

open List Comparator

open Transition (Reach Run)
open Cascade (Loop)

variable {V : Type}

structure Queue (V : Type) where
  queue : List (Notification V)
  paused : Bool
  signal : Bool
  /-- Calls of `enqueue` and `Resume` that have released the lock and not signalled yet. -/
  calls : Nat
  loop : Option (Loop V)
  enqueued : List (Notification V)
  forwarded : List (Notification V)

namespace Queue

def empty : Queue V := ⟨[], false, false, 0, none, [], []⟩

def pending (s : Queue V) : List (Notification V) :=
  match s.loop with
  | some (.records pending) => pending
  | _ => []

/-- `Stream` does not pass the record over. -/
def above (cmp : String → String → Int) (fromStr : String) (rec : Notification V) : Bool :=
  fromStr = "" || decide (0 < cmp rec.position fromStr)

inductive Act (V : Type)
  | enqueue (rec : Notification V)
  | wake
  | pause
  | resume
  | stream
  | take
  | next
  | park
  | signalled

inductive Step (cmp : String → String → Int) (fromStr : String) (s : Queue V) :
    Act V → Queue V → Prop
  | enqueue (rec : Notification V) : Step cmp fromStr s (.enqueue rec)
      { s with queue := s.queue ++ [rec], enqueued := s.enqueued ++ [rec], calls := s.calls + 1 }
  | wake (hcalls : 0 < s.calls) :
      Step cmp fromStr s .wake { s with signal := true, calls := s.calls - 1 }
  | pause : Step cmp fromStr s .pause { s with paused := true }
  | resume : Step cmp fromStr s .resume { s with paused := false, calls := s.calls + 1 }
  | stream (hloop : s.loop = none) :
      Step cmp fromStr s .stream { s with loop := some .top, paused := false }
  | take (hloop : s.loop = some .top) : Step cmp fromStr s .take
      { s with
        loop := some (.records (if s.paused then [] else s.queue))
        queue := if s.paused then s.queue else [] }
  | next {rec : Notification V} {rest : List (Notification V)}
      (hloop : s.loop = some (.records (rec :: rest))) : Step cmp fromStr s .next
      { s with
        loop := some (.records rest)
        forwarded := if above cmp fromStr rec then s.forwarded ++ [rec] else s.forwarded }
  | park (hloop : s.loop = some (.records [])) :
      Step cmp fromStr s .park { s with loop := some .select }
  | signalled (hloop : s.loop = some .select) (hsignal : s.signal = true) :
      Step cmp fromStr s .signalled { s with loop := some .top, signal := false }

variable {cmp : String → String → Int} {fromStr : String} {s s' : Queue V} {a : Act V}

/-- The loop has looked at the queue and will wait for a signal before it looks again. -/
def Looked (s : Queue V) : Prop := s.loop ≠ none ∧ s.loop ≠ some .top

structure Sound (cmp : String → String → Int) (fromStr : String) (s : Queue V) : Prop where
  lossless : s.forwarded ++ (s.pending ++ s.queue).filter (above cmp fromStr) =
    s.enqueued.filter (above cmp fromStr)
  signalled : s.Looked → s.paused = false → s.queue ≠ [] → s.signal = true ∨ 0 < s.calls

lemma Sound.step (h : s.Sound cmp fromStr) (hstep : Step cmp fromStr s a s') :
    s'.Sound cmp fromStr := by
  obtain ⟨hlossless, hsignalled⟩ := h
  cases hstep with
  | enqueue rec =>
    refine ⟨?_, fun _ _ _ => .inr (Nat.succ_pos _)⟩
    have happ := congrArg (· ++ [rec].filter (above cmp fromStr)) hlossless
    simpa [pending] using happ
  | wake hcalls => exact ⟨hlossless, fun _ _ _ => .inl rfl⟩
  | pause => exact ⟨hlossless, nofun⟩
  | resume => exact ⟨hlossless, fun _ _ _ => .inr (Nat.succ_pos _)⟩
  | stream hloop | signalled hloop hsignal =>
    refine ⟨?_, fun hlooked => absurd rfl hlooked.2⟩
    simpa [pending, hloop] using hlossless
  | take hloop =>
    constructor
    · cases hpaused : s.paused <;> simpa [pending, hloop, hpaused] using hlossless
    · -- paused, or the queue is empty now
      intro _ hpaused hqueue
      exact absurd (if_neg (by simpa using hpaused)) hqueue
  | @next rec rest hloop =>
    refine ⟨?_, fun _ => hsignalled (by simp [Looked, hloop])⟩
    rw [← hlossless]
    cases habove : above cmp fromStr rec <;> simp [pending, hloop, habove]
  | park hloop =>
    refine ⟨?_, fun _ => hsignalled (by simp [Looked, hloop])⟩
    simpa [pending, hloop] using hlossless

lemma Step.paused (hstep : Step cmp fromStr s a s') (hpaused : s.paused = true) :
    s.queue <+: s'.queue ∧ s'.pending <:+ s.pending := by
  cases hstep with
  | enqueue rec => exact ⟨prefix_append _ _, suffix_rfl⟩
  | wake _ | pause | resume => exact ⟨prefix_rfl, suffix_rfl⟩
  | stream hloop | park hloop | signalled hloop _ => exact ⟨prefix_rfl, nil_suffix⟩
  | take hloop => simp [pending, hpaused]
  | next hloop => exact ⟨prefix_rfl, by simp [pending, hloop]⟩

/-- **The cascading queue** loses nothing and keeps the order; a paused source takes nothing; and a
loop that waits with no signal to come has an empty queue. -/
theorem queue_is_lossless (cmp : String → String → Int) (fromStr : String)
    (hrun : Run (Step cmp fromStr) (empty : Queue V) s) :
    s.forwarded ++ (s.pending ++ s.queue).filter (above cmp fromStr) =
        s.enqueued.filter (above cmp fromStr) ∧
      (s.paused = true → ∀ a s', Step cmp fromStr s a s' →
        s.queue <+: s'.queue ∧ s'.pending <:+ s.pending) ∧
      (s.calls = 0 → s.paused = false → s.loop = some .select → s.signal = false →
        s.queue = []) := by
  have hsound : s.Sound cmp fromStr := by
    refine hrun.invariant (Sound cmp fromStr) ⟨rfl, fun hlooked => absurd rfl hlooked.1⟩ ?_
    intro s₁ s₂ a h _ hstep
    exact h.step hstep
  refine ⟨hsound.lossless, fun hpaused a s' hstep => hstep.paused hpaused, ?_⟩
  intro hcalls hpaused hloop hsignal
  by_contra hqueue
  rcases hsound.signalled (by simp [Looked, hloop]) hpaused hqueue with h | h
  · simp [hsignal] at h
  · omega

theorem queue_is_lossless_resumed :
    ∃ s : Queue Text, s.forwarded = [⟨none, none, "0/2"⟩] ∧
      s.forwarded ++ (s.pending ++ s.queue).filter (above (ofOrd String).cmp "0/1") =
        s.enqueued.filter (above (ofOrd String).cmp "0/1") := by
  have h : Run (Step (ofOrd String).cmp "0/1")
    (empty : Queue Text) _ := .refl _
  have h := h
    |>.snoc (.stream rfl)
    |>.snoc .pause
    |>.snoc (.enqueue ⟨none, none, "0/2"⟩)
    |>.snoc (.take rfl)
    |>.snoc (.park rfl)
    |>.snoc .resume
    |>.snoc (.wake (by decide))
    |>.snoc (.signalled rfl rfl)
    |>.snoc (.take rfl)
    |>.snoc (.next rfl)
  exact ⟨_, rfl, (queue_is_lossless _ "0/1" h).1⟩

end Queue

end Laredo.FanoutSource
