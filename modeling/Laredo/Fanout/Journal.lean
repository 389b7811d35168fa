import Laredo.Lib.Consecutive
import Laredo.Types

/-!
# Journal

The bounded change journal of the fan-out target (`target/fanout/journal.go`).
-/

namespace Laredo.Fanout

open Consec List Function

structure JournalEntry (P V : Type) where
  sequence : Int
  timestamp : Int
  action : ChangeAction
  oldValues : Option (Row V)
  newValues : Option (Row V)
  position : Option P
  deriving DecidableEq

def JournalEntry.backfill {P V : Type} (position : P) (e : JournalEntry P V) :
    JournalEntry P V :=
  if e.position.isNone then { e with position := some position } else e

@[simp] lemma JournalEntry.sequence_backfill {P V : Type} (position : P)
    (e : JournalEntry P V) : (e.backfill position).sequence = e.sequence := by
  unfold backfill
  split <;> rfl

/-- The journal; its sequence numbers have no gaps. -/
structure Journal (P V : Type) where
  entries : List (JournalEntry P V)
  maxEntries : Int
  maxAge : Int
  nextSeq : Int
  pins : Std.ExtTreeMap String Int
  contiguous : Consec (nextSeq - entries.length) (entries.map (·.sequence))
  first_pos : 1 ≤ nextSeq - entries.length

structure AppendEnv where
  stamp : Int
  now : Int
  pinOrder : List Int

namespace Journal

variable {P V : Type}

def newJournal (maxEntries maxAge : Int) : Journal P V where
  entries := []
  maxEntries := maxEntries
  maxAge := maxAge
  nextSeq := 1
  pins := ∅
  contiguous := trivial
  first_pos := Int.le_refl 1

def pin (j : Journal P V) (clientID : String) (seq : Int) : Journal P V :=
  { j with pins := j.pins.insert clientID seq }

def unpin (j : Journal P V) (clientID : String) : Journal P V :=
  { j with pins := j.pins.erase clientID }

/-- The first loop of `pruneLocked`: the lowest pinned sequence, where 0 stands for
"none seen so far". -/
def lowestPin (pinOrder : List Int) : Int :=
  pinOrder.foldl (fun minPin seq => if minPin = 0 ∨ seq < minPin then seq else minPin) 0

/-- `for excess > 0 && len(entries) > 0 && entries[0].Sequence < minPin { excess-- }`.
The loop does not change `entries`, so it runs to zero or not at all. -/
def drainExcess (entries : List (JournalEntry P V)) (minPin : Int) : Nat → Nat
  | 0 => 0
  | excess + 1 =>
      if entries.head?.any (·.sequence < minPin) then drainExcess entries minPin excess
      else excess + 1

/-- How many entries the loop "prune up to the pin" skips: while an entry lies before
the pin and more than `maxEntries` remain. -/
def countBeforePin (maxEntries minPin : Int) : List (JournalEntry P V) → Nat
  | [] => 0
  | e :: es =>
      if e.sequence < minPin ∧ maxEntries < (e :: es).length then
        countBeforePin maxEntries minPin es + 1
      else 0

def countExpired (cutoff minPin : Int) : List (JournalEntry P V) → Nat
  | [] => 0
  | e :: es =>
      if e.timestamp < cutoff then
        if 0 < minPin ∧ minPin ≤ e.sequence then 0 else countExpired cutoff minPin es + 1
      else 0

def pruneByAge (maxAge minPin now : Int) (entries : List (JournalEntry P V)) :
    List (JournalEntry P V) :=
  if 0 < maxAge then entries.drop (countExpired (now - maxAge) minPin entries) else entries

def pruneEntries (maxEntries maxAge minPin now : Int) (entries : List (JournalEntry P V)) :
    List (JournalEntry P V) :=
  if 0 < maxEntries ∧ maxEntries < entries.length then
    let excess := (entries.length - maxEntries).toNat
    if 0 < minPin then
      let excess := drainExcess entries minPin excess
      if excess = 0 then
        -- the source returns here, without looking at the age
        entries.drop (countBeforePin maxEntries minPin entries)
      else
        pruneByAge maxAge minPin now (entries.drop excess)
    else
      pruneByAge maxAge minPin now (entries.drop excess)
  else
    pruneByAge maxAge minPin now entries

lemma countBeforePin_le_length (maxE minPin : Int) (entries : List (JournalEntry P V)) :
    countBeforePin maxE minPin entries ≤ entries.length := by
  induction entries with
  | nil => exact Nat.le_refl 0
  | cons e es ih =>
    unfold countBeforePin
    split
    · exact Nat.succ_le_succ ih
    · exact Nat.zero_le _

lemma countExpired_le_length (cutoff minPin : Int) (entries : List (JournalEntry P V)) :
    countExpired cutoff minPin entries ≤ entries.length := by
  induction entries with
  | nil => exact Nat.le_refl 0
  | cons e es ih =>
    unfold countExpired
    split_ifs
    · exact Nat.zero_le _
    · exact Nat.succ_le_succ ih
    · exact Nat.zero_le _

lemma drainExcess_le (es : List (JournalEntry P V)) (minPin : Int) (excess : Nat) :
    drainExcess es minPin excess ≤ excess := by
  induction excess with
  | zero => exact Nat.le_refl 0
  | succ n ih =>
    unfold drainExcess
    split
    · exact Nat.le_succ_of_le ih
    · exact Nat.le_refl _

lemma pruneByAge_eq_drop (maxAge minPin now : Int) (es : List (JournalEntry P V)) :
    ∃ k ≤ es.length, pruneByAge maxAge minPin now es = es.drop k := by
  unfold pruneByAge
  split
  · exact ⟨_, countExpired_le_length _ _ _, rfl⟩
  · exact ⟨0, Nat.zero_le _, rfl⟩

lemma pruneByAge_drop_eq_drop (maxAge minPin now : Int) (es : List (JournalEntry P V))
    {n : Nat} (hn : n ≤ es.length) :
    ∃ k ≤ es.length, pruneByAge maxAge minPin now (es.drop n) = es.drop k := by
  obtain ⟨k, hk, heq⟩ := pruneByAge_eq_drop maxAge minPin now (es.drop n)
  refine ⟨n + k, ?_, by rw [heq, drop_drop]⟩
  rw [length_drop] at hk
  omega

lemma pruneEntries_eq_drop (maxE maxAge minPin now : Int) (es : List (JournalEntry P V)) :
    ∃ k ≤ es.length, pruneEntries maxE maxAge minPin now es = es.drop k := by
  have hexcess : 0 < maxE → (es.length - maxE).toNat ≤ es.length := by omega
  unfold pruneEntries
  dsimp only
  split_ifs with hsize
  · exact ⟨_, countBeforePin_le_length _ _ _, rfl⟩
  · exact pruneByAge_drop_eq_drop _ _ _ _ (Nat.le_trans (drainExcess_le _ _ _) (hexcess hsize.1))
  · exact pruneByAge_drop_eq_drop _ _ _ _ (hexcess hsize.1)
  · exact pruneByAge_eq_drop _ _ _ _

lemma pruneEntries_unbounded {maxE maxAge : Int} (hsize : maxE ≤ 0)
    (hage : maxAge ≤ 0) (minPin now : Int) (entries : List (JournalEntry P V)) :
    pruneEntries maxE maxAge minPin now entries = entries := by
  unfold pruneEntries pruneByAge
  rw [if_neg (by omega), if_neg (by omega)]

def firstSeq (j : Journal P V) : Int := j.nextSeq - j.entries.length

/-- `pruneLocked`, with the clock it reads and the iteration order of the pins. -/
def pruneLocked (j : Journal P V) (pinOrder : List Int) (now : Int) : Journal P V :=
  { j with
    entries := pruneEntries j.maxEntries j.maxAge (lowestPin pinOrder) now j.entries
    contiguous := by
      obtain ⟨k, hk, heq⟩ :=
        pruneEntries_eq_drop j.maxEntries j.maxAge (lowestPin pinOrder) now j.entries
      have hdrop := j.contiguous.drop (k := k) (by rwa [length_map])
      rw [heq, map_drop, length_drop]
      convert hdrop using 1
      omega
    first_pos := by
      obtain ⟨k, hk, heq⟩ :=
        pruneEntries_eq_drop j.maxEntries j.maxAge (lowestPin pinOrder) now j.entries
      have hpos := j.first_pos
      rw [heq, length_drop]
      omega }

def push (j : Journal P V) (stamp : Int) (action : ChangeAction)
    (oldValues newValues : Option (Row V)) (position : Option P) : Journal P V :=
  { j with
    entries := j.entries ++ [⟨j.nextSeq, stamp, action, oldValues, newValues, position⟩]
    nextSeq := j.nextSeq + 1
    contiguous := by
      have hfirst : j.nextSeq + 1 - ((j.entries.length + 1 : Nat) : Int)
          = j.nextSeq - j.entries.length := by omega
      rw [map_append, length_append, length_singleton, hfirst]
      refine j.contiguous.snoc (?_ : j.nextSeq = _)
      rw [length_map]
      omega
    first_pos := by
      have hpos := j.first_pos
      rw [length_append, length_singleton]
      omega }

/-- `append(action, oldValues, newValues, position)`. Callers ignore the sequence
number it returns. -/
def append (j : Journal P V) (env : AppendEnv) (action : ChangeAction)
    (oldValues newValues : Option (Row V)) (position : Option P) : Journal P V :=
  (j.push env.stamp action oldValues newValues position).pruneLocked env.pinOrder env.now

/-- `backfillNilPositions(position)`: every entry without a position gets this one. -/
def backfillNilPositions (j : Journal P V) : Option P → Journal P V
  | none => j
  | some p =>
      { j with
        entries := j.entries.map (JournalEntry.backfill p)
        contiguous := by simpa [comp_def] using j.contiguous
        first_pos := by simpa using j.first_pos }

/-- `resumeSeqForPosition(position, cmp)`: the sequence to resume after, and whether
the position is covered. -/
def resumeSeqForPosition (j : Journal P V) (position : Option P)
    (cmp : Option P → Option P → Int) : Int × Bool :=
  match j.entries with
  | [] => (j.nextSeq - 1, true)
  | oldest :: _ =>
      if oldest.position.isSome ∧ 0 < cmp oldest.position position then (0, false)
      else
        (j.entries.foldl
          (fun resumeSeq e =>
            if e.position.isSome ∧ cmp e.position position ≤ 0 then e.sequence else resumeSeq)
          (oldest.sequence - 1), true)

def entriesSince (j : Journal P V) (afterSeq : Int) : List (JournalEntry P V) :=
  j.entries.filter (fun e => decide (afterSeq < e.sequence))

def currentSequence (j : Journal P V) : Int := j.nextSeq - 1

/-- `oldestSequence()`: the oldest retained sequence number, 0 if there is none. -/
def oldestSequence (j : Journal P V) : Int :=
  match j.entries with
  | [] => 0
  | e :: _ => e.sequence

@[simp] lemma nextSeq_append (j : Journal P V) (env : AppendEnv) (action : ChangeAction)
    (old new : Option (Row V)) (pos : Option P) :
    (j.append env action old new pos).nextSeq = j.nextSeq + 1 := rfl

lemma entriesSince_backfill (j : Journal P V) (p : P) (afterSeq : Int) :
    (j.backfillNilPositions (some p)).entriesSince afterSeq =
      (j.entriesSince afterSeq).map (JournalEntry.backfill p) := by
  simp [entriesSince, backfillNilPositions, List.filter_map, comp_def]

@[simp] lemma nextSeq_backfillNilPositions (j : Journal P V) (position : Option P) :
    (j.backfillNilPositions position).nextSeq = j.nextSeq := by
  cases position <;> rfl

variable {j : Journal P V} {e : JournalEntry P V}

lemma mem_bounds (he : e ∈ j.entries) : j.firstSeq ≤ e.sequence ∧ e.sequence < j.nextSeq := by
  have hmem := (mem_iff j.contiguous).mp (List.mem_map_of_mem he)
  rw [length_map] at hmem
  unfold firstSeq
  omega

lemma oldestSequence_eq_firstSeq (h : j.entries ≠ []) : j.oldestSequence = j.firstSeq := by
  have hcontig := j.contiguous
  unfold oldestSequence firstSeq
  cases hes : j.entries with
  | nil => exact absurd hes h
  | cons e es =>
    rw [hes] at hcontig
    exact hcontig.1

lemma oldestSequence_le_firstSeq (j : Journal P V) : j.oldestSequence ≤ j.firstSeq := by
  by_cases h : j.entries = []
  · have hfst := j.first_pos
    simp only [oldestSequence, h, firstSeq] at hfst ⊢
    omega
  · exact Int.le_of_eq (oldestSequence_eq_firstSeq h)

lemma entries_append (j : Journal P V) (env : AppendEnv) (action : ChangeAction)
    (old new : Option (Row V)) (pos : Option P) :
    ∃ k ≤ j.entries.length + 1, (j.append env action old new pos).entries =
        (j.push env.stamp action old new pos).entries.drop k := by
  obtain ⟨k, hk, heq⟩ := pruneEntries_eq_drop j.maxEntries j.maxAge (lowestPin env.pinOrder)
    env.now (j.push env.stamp action old new pos).entries
  refine ⟨k, ?_, heq⟩
  simpa [push] using hk

variable {env : AppendEnv} {action : ChangeAction} {old new : Option (Row V)}
  {pos : Option P}

lemma mem_entries_append (he : e ∈ (j.append env action old new pos).entries) :
    e ∈ j.entries ∨ e = ⟨j.nextSeq, env.stamp, action, old, new, pos⟩ := by
  obtain ⟨k, -, heq⟩ := entries_append j env action old new pos
  rw [heq] at he
  have hpush := mem_of_mem_drop he
  rw [push, mem_append, mem_singleton] at hpush
  exact hpush

lemma firstSeq_le_append (j : Journal P V) (env : AppendEnv) (action : ChangeAction)
    (old new : Option (Row V)) (pos : Option P) :
    j.firstSeq ≤ (j.append env action old new pos).firstSeq := by
  obtain ⟨k, hk, heq⟩ := entries_append j env action old new pos
  unfold firstSeq
  rw [heq, nextSeq_append, length_drop, push, length_append, length_singleton]
  omega

def Retains (j : Journal P V) (afterSeq : Int) : Prop := j.firstSeq ≤ afterSeq + 1

instance (j : Journal P V) (afterSeq : Int) : Decidable (j.Retains afterSeq) :=
  inferInstanceAs (Decidable (_ ≤ _))

variable {afterSeq : Int}

lemma Retains.of_append
    (h : (j.append env action old new pos).Retains afterSeq) :
    j.Retains afterSeq :=
  Int.le_trans (firstSeq_le_append j env action old new pos) h

lemma entriesSince_append
    (h : (j.append env action old new pos).Retains afterSeq)
    (hcrs : afterSeq < j.nextSeq) :
    (j.append env action old new pos).entriesSince afterSeq =
      j.entriesSince afterSeq ++
        [⟨j.nextSeq, env.stamp, action, old, new, pos⟩] := by
  obtain ⟨k, hk, heq⟩ := entries_append j env action old new pos
  have hcontig := (j.push env.stamp action old new pos).contiguous
  have hlen : (j.push env.stamp action old new pos).entries.length
      = j.entries.length + 1 := by simp [push]
  have hnext : (j.push env.stamp action old new pos).nextSeq = j.nextSeq + 1 := rfl
  unfold Retains firstSeq at h
  rw [heq, length_drop, hlen, nextSeq_append] at h
  unfold entriesSince
  rw [heq, filter_gt_drop _ hcontig (by omega), push, filter_append]
  simp [hcrs]

lemma entriesSince_consec (h : j.Retains afterSeq) :
    Consec (afterSeq + 1) ((j.entriesSince afterSeq).map (·.sequence)) := by
  have hrun := filter_gt j.contiguous h
  rwa [List.filter_map] at hrun

lemma mem_entriesSince : e ∈ j.entriesSince afterSeq ↔ e ∈ j.entries ∧ afterSeq < e.sequence := by
  simp [entriesSince]

lemma length_entriesSince (h : j.Retains afterSeq) (hcrs : afterSeq ≤ j.currentSequence) :
    ((j.entriesSince afterSeq).length : Int) = j.currentSequence - afterSeq := by
  have hmem : ∀ seq : Int, seq ∈ (j.entriesSince afterSeq).map (·.sequence) ↔
      afterSeq < seq ∧ seq ≤ j.currentSequence := by
    intro seq
    have hall := mem_iff (x := seq) j.contiguous
    rw [length_map] at hall
    unfold Retains firstSeq at h
    unfold currentSequence
    constructor
    · intro hseq
      obtain ⟨e, he, rfl⟩ := List.mem_map.mp hseq
      obtain ⟨he, hlt⟩ := mem_entriesSince.mp he
      have hbd := hall.mp (List.mem_map_of_mem he)
      omega
    · intro hseq
      obtain ⟨e, he, rfl⟩ := List.mem_map.mp (hall.mpr (by omega))
      exact List.mem_map.mpr ⟨e, mem_entriesSince.mpr ⟨he, hseq.1⟩, rfl⟩
  have hrun := entriesSince_consec h
  have hcur := mem_iff (x := j.currentSequence) hrun
  have hlast := mem_iff (x := afterSeq + (j.entriesSince afterSeq).length) hrun
  rw [hmem, length_map] at hcur hlast
  omega

/-- No entry given out after `afterSeq` was pruned: each of the sequence numbers past
it is still there. -/
def KeptSince (j : Journal P V) (afterSeq : Int) : Prop :=
  ∀ seq, afterSeq < seq → seq ≤ j.currentSequence → ∃ e ∈ j.entries, e.sequence = seq

lemma keptSince_iff_retains : j.KeptSince afterSeq ↔ j.Retains afterSeq := by
  unfold KeptSince Retains currentSequence
  constructor
  · intro h
    by_cases hcur : j.nextSeq - 1 ≤ afterSeq
    · -- nothing was given out past the cursor
      unfold firstSeq
      omega
    · obtain ⟨e, he, hseq⟩ := h (afterSeq + 1) (by omega) (by omega)
      have hbd := (mem_bounds he).1
      omega
  · intro h seq hlow hhigh
    have hmem : seq ∈ j.entries.map (·.sequence) := by
      rw [mem_iff j.contiguous, length_map]
      unfold firstSeq at h
      omega
    exact List.mem_map.mp hmem

lemma entriesSince_eq_nil (h : j.currentSequence ≤ afterSeq) : j.entriesSince afterSeq = [] := by
  rw [entriesSince, filter_eq_nil_iff]
  intro e he
  have hlt := (mem_bounds he).2
  unfold currentSequence at h
  simp only [decide_eq_true_eq]
  omega

lemma currentSequence_nonneg (j : Journal P V) : 0 ≤ j.currentSequence := by
  have hfst := j.first_pos
  unfold currentSequence
  omega

lemma oldestSequence_le_currentSequence (j : Journal P V) :
    j.oldestSequence ≤ j.currentSequence := by
  cases hes : j.entries with
  | nil =>
    rw [oldestSequence, hes]
    exact j.currentSequence_nonneg
  | cons e es =>
    have hbd := (mem_bounds (j := j) (e := e) (by simp [hes])).2
    rw [oldestSequence, hes, currentSequence]
    show e.sequence ≤ j.nextSeq - 1
    omega

lemma oldestSequence_nonneg (j : Journal P V) : 0 ≤ j.oldestSequence := by
  by_cases h : j.entries = []
  · simp [oldestSequence, h]
  · have hfst := j.first_pos
    rw [oldestSequence_eq_firstSeq h, firstSeq]
    omega

structure Unpruned (j : Journal P V) : Prop where
  size : j.maxEntries ≤ 0
  age : j.maxAge ≤ 0
  first : j.firstSeq = 1

lemma Unpruned.newJournal {maxE maxAge : Int} (hsize : maxE ≤ 0)
    (hage : maxAge ≤ 0) : (newJournal maxE maxAge : Journal P V).Unpruned :=
  ⟨hsize, hage, rfl⟩

lemma Unpruned.append (h : j.Unpruned) (env : AppendEnv)
    (action : ChangeAction) (old new : Option (Row V)) (pos : Option P) :
    (j.append env action old new pos).Unpruned where
  size := h.size
  age := h.age
  first := by
    have hfst := h.first
    unfold firstSeq at hfst ⊢
    have hes : (j.append env action old new pos).entries
        = (j.push env.stamp action old new pos).entries :=
      pruneEntries_unbounded h.size h.age _ _ _
    rw [hes, nextSeq_append, push, length_append, length_singleton]
    omega

lemma Unpruned.backfillNilPositions (h : j.Unpruned)
    (position : Option P) : (j.backfillNilPositions position).Unpruned := by
  cases position with
  | none => exact h
  | some p => exact ⟨h.size, h.age, by simpa [firstSeq, Journal.backfillNilPositions] using h.first⟩

lemma Unpruned.retains (h : j.Unpruned) (haft : 0 ≤ afterSeq) : j.Retains afterSeq := by
  unfold Retains
  rw [h.first]
  omega

end Journal

end Laredo.Fanout
