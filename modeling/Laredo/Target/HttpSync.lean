import Laredo.Engine.AckTracker
import Laredo.Engine.Pipeline
import Laredo.Lib.Transition

/-!
# HTTP sync

The HTTP target (`target/httpsync/httpsync.go`), which posts changes in batches, and the
consumer of the engine that feeds it (`runPipelineConsumer` and `retryChange` in `engine.go`).
-/

namespace Laredo.HttpSync

open Transition List
open Engine (AckTracker ResolvedPipeline)

variable {P V : Type}

structure Config where
  batchSize : Int := 100
  retryCount : Int := 3

inductive Answer
  | accepted
  | refused
  | aborted
  deriving DecidableEq

inductive Post
  | delivered
  | unsent
  | failed
  deriving DecidableEq

/-- The loop of `postJSONWithRetry`, with the number of attempts that are left. -/
def attempts (answer : Nat → Answer) : Nat → Nat → Bool → Post
  | 0, _, lastErr => if lastErr then .failed else .unsent
  | left + 1, attempt, _ =>
      match answer attempt with
      | .accepted => .delivered
      | .refused => attempts answer left (attempt + 1) true
      | .aborted => .failed

def postJSONWithRetry (cfg : Config) (answer : Nat → Answer) : Post :=
  attempts answer (cfg.retryCount + 1).toNat 0 false

def Answered (cfg : Config) (answer : Nat → Answer) : Prop :=
  ∃ k : Nat, (k : Int) ≤ cfg.retryCount ∧ answer k = .accepted ∧ ∀ j < k, answer j = .refused

variable {answer : Nat → Answer}

lemma attempts_eq_delivered {left attempt : Nat} {lastErr : Bool} :
    attempts answer left attempt lastErr = .delivered ↔
      ∃ k < left, answer (attempt + k) = .accepted ∧ ∀ j < k, answer (attempt + j) = .refused := by
  induction left generalizing attempt lastErr with
  | zero => cases lastErr <;> simp [attempts]
  | succ left ih =>
    rw [attempts]
    cases hanswer : answer attempt with
    | accepted => exact iff_of_true rfl ⟨0, Nat.succ_pos left, hanswer, nofun⟩
    | refused =>
      refine ih.trans ⟨?_, ?_⟩
      · rintro ⟨k, hk, haccd, hbef⟩
        refine ⟨k + 1, by omega, by rwa [← Nat.add_assoc, Nat.add_right_comm], fun j hj => ?_⟩
        cases j with
        | zero => exact hanswer
        | succ j => simpa only [Nat.add_right_comm, ← Nat.add_assoc] using hbef j (by omega)
      · rintro ⟨k, hk, haccd, hbef⟩
        cases k with
        | zero => cases hanswer.symm.trans haccd
        | succ k =>
          refine ⟨k, by omega, by rwa [Nat.add_right_comm, Nat.add_assoc], fun j hj => ?_⟩
          rw [Nat.add_right_comm, Nat.add_assoc]
          exact hbef (j + 1) (by omega)
    | aborted =>
      refine ⟨nofun, ?_⟩
      rintro ⟨k, -, haccd, hbef⟩
      cases k with
      | zero => cases hanswer.symm.trans haccd
      | succ k => cases hanswer.symm.trans (hbef 0 (Nat.succ_pos k))

lemma attempts_ne_unsent {left attempt : Nat} {lastErr : Bool}
    (h : 0 < left ∨ lastErr = true) : attempts answer left attempt lastErr ≠ .unsent := by
  induction left generalizing attempt lastErr with
  | zero =>
    obtain rfl := h.resolve_left (Nat.lt_irrefl 0)
    simp [attempts]
  | succ left ih =>
    rw [attempts]
    cases answer attempt with
    | accepted | aborted => nofun
    | refused => exact ih (.inr rfl)

lemma post_cases {cfg : Config} (hretry : 0 ≤ cfg.retryCount) (answer : Nat → Answer) :
    postJSONWithRetry cfg answer = .delivered ∧ Answered cfg answer ∨
      postJSONWithRetry cfg answer = .failed ∧ ¬ Answered cfg answer := by
  have hleft : 0 < (cfg.retryCount + 1).toNat := by omega
  have hiff : postJSONWithRetry cfg answer = .delivered ↔ Answered cfg answer := by
    unfold postJSONWithRetry Answered
    simp only [attempts_eq_delivered, Nat.zero_add]
    refine exists_congr fun k => and_congr_left fun _ => ?_
    omega
  cases hpost : postJSONWithRetry cfg answer with
  | delivered => exact .inl ⟨rfl, hiff.mp hpost⟩
  | unsent => exact absurd hpost (attempts_ne_unsent (.inl hleft))
  | failed => exact .inr ⟨rfl, fun h => nomatch hpost.symm.trans (hiff.mpr h)⟩

structure ChangeEntry (V : Type) where
  action : ChangeAction
  row : Option (Row V)
  identity : Option (Row V)

structure Target (V : Type) where
  baselineBuf : List (Row V) := []
  changeBuf : List (ChangeEntry V) := []
  durable : Bool := false

/-- What a call leaves behind: the target, the changes that were posted, and whether nil was
returned. -/
structure Result (V : Type) where
  target : Target V
  posted : List (ChangeEntry V) := []
  ok : Bool

namespace Target

def flushChangeBatch (cfg : Config) (answer : Nat → Answer) (batch : List (ChangeEntry V))
    (t : Target V) : Result V :=
  match postJSONWithRetry cfg answer with
  | .delivered => ⟨{ t with durable := true }, batch, true⟩
  | .unsent => ⟨{ t with durable := true }, [], true⟩
  | .failed => ⟨{ t with durable := false }, [], false⟩

def bufferChange (cfg : Config) (answer : Nat → Answer) (entry : ChangeEntry V) (t : Target V) :
    Result V :=
  let buf := t.changeBuf ++ [entry]
  if cfg.batchSize ≤ buf.length then
    flushChangeBatch cfg answer buf { t with changeBuf := [], durable := false }
  else ⟨{ t with changeBuf := buf, durable := false }, [], true⟩

def flushChanges (cfg : Config) (answer : Nat → Answer) (t : Target V) : Result V :=
  match t.changeBuf with
  | [] => ⟨t, [], true⟩
  | batch => flushChangeBatch cfg answer batch { t with changeBuf := [] }

def onInsert (cfg : Config) (answer : Nat → Answer) (row : Row V) : Target V → Result V :=
  bufferChange cfg answer ⟨.insert, some row, none⟩

def onUpdate (cfg : Config) (answer : Nat → Answer) (row : Row V) (identity : Option (Row V)) :
    Target V → Result V :=
  bufferChange cfg answer ⟨.update, some row, identity⟩

def onDelete (cfg : Config) (answer : Nat → Answer) (identity : Option (Row V)) :
    Target V → Result V :=
  bufferChange cfg answer ⟨.delete, none, identity⟩

/-- `OnTruncate`: the buffer is flushed first, then the truncate is posted by itself. -/
def onTruncate (cfg : Config) (flush answer : Nat → Answer) (t : Target V) : Result V :=
  let r := t.flushChanges cfg flush
  if r.ok then
    match postJSONWithRetry cfg answer with
    | .delivered => { r with posted := r.posted ++ [⟨.truncate, none, none⟩] }
    | .unsent => r
    | .failed => { r with ok := false }
  else r

def call (cfg : Config) (flush answer : Nat → Answer) (t : Target V) : TableChange V → Result V
  | .insert row => t.onInsert cfg flush row
  | .update row identity => t.onUpdate cfg flush row identity
  | .delete identity => t.onDelete cfg flush identity
  | .truncate => t.onTruncate cfg flush answer

def flushBaselineBatch (cfg : Config) (answer : Nat → Answer) (t : Target V) : Target V × Bool :=
  let ok := postJSONWithRetry cfg answer ≠ .failed
  ({ t with durable := ok }, ok)

def onBaselineRow (cfg : Config) (answer : Nat → Answer) (row : Row V) (t : Target V) :
    Target V × Bool :=
  let buf := t.baselineBuf ++ [row]
  if cfg.batchSize ≤ buf.length then flushBaselineBatch cfg answer { t with baselineBuf := [] }
  else ({ t with baselineBuf := buf }, true)

def onBaselineComplete (cfg : Config) (flush answer : Nat → Answer) (t : Target V) :
    Target V × Bool :=
  let r := match t.baselineBuf with
    | [] => (t, true)
    | _ => flushBaselineBatch cfg flush { t with baselineBuf := [] }
  if r.2 then (r.1, postJSONWithRetry cfg answer ≠ .failed) else r

def entry : TableChange V → ChangeEntry V
  | .insert row => ⟨.insert, some row, none⟩
  | .update row identity => ⟨.update, some row, identity⟩
  | .delete identity => ⟨.delete, none, identity⟩
  | .truncate => ⟨.truncate, none, none⟩

def Flushes (cfg : Config) (t : Target V) : TableChange V → Prop
  | .truncate => True
  | _ => cfg.batchSize ≤ (t.changeBuf.length + 1 : Nat)

def Drops (cfg : Config) (answer : Nat → Answer) (t : Target V) (change : TableChange V) : Prop :=
  t.changeBuf ≠ [] ∧ t.Flushes cfg change ∧ ¬ Answered cfg answer

inductive Effect (cfg : Config) (answer : Nat → Answer) (t : Target V) (change : TableChange V) :
    Result V → Prop
  | buffered (hroom : ¬ t.Flushes cfg change) :
      Effect cfg answer t change
        ⟨{ t with changeBuf := t.changeBuf ++ [entry change], durable := false }, [], true⟩
  | delivered {durable : Bool} (hanswered : t.changeBuf = [] ∨ Answered cfg answer) :
      Effect cfg answer t change
        ⟨{ t with changeBuf := [], durable := durable }, t.changeBuf ++ [entry change], true⟩
  | cutShort {durable : Bool} (hanswered : t.changeBuf = [] ∨ Answered cfg answer) :
      Effect cfg answer t change
        ⟨{ t with changeBuf := [], durable := durable }, t.changeBuf, false⟩
  | refused (hflushes : t.Flushes cfg change) (hnot : ¬ Answered cfg answer) :
      Effect cfg answer t change ⟨{ t with changeBuf := [], durable := false }, [], false⟩

variable {cfg : Config} {flush answer : Nat → Answer} {t : Target V} {change : TableChange V}

lemma bufferChange_effect (hretry : 0 ≤ cfg.retryCount)
    (hflushes : t.Flushes cfg change ↔ cfg.batchSize ≤ (t.changeBuf.length + 1 : Nat)) :
    Effect cfg answer t change (t.bufferChange cfg answer (entry change)) := by
  unfold bufferChange
  dsimp only
  rw [length_append, length_singleton]
  by_cases hfull : cfg.batchSize ≤ (t.changeBuf.length + 1 : Nat)
  · rw [if_pos hfull]
    unfold flushChangeBatch
    rcases post_cases hretry answer with ⟨hpost, hans⟩ | ⟨hpost, hnot⟩
    · rw [hpost]
      exact .delivered (.inr hans)
    · rw [hpost]
      exact .refused (hflushes.mpr hfull) hnot
  · rw [if_neg hfull]
    exact .buffered fun h => hfull (hflushes.mp h)

lemma onTruncate_effect (hretry : 0 ≤ cfg.retryCount) :
    Effect cfg flush t .truncate (t.onTruncate cfg flush answer) := by
  obtain ⟨rows, buf, durable⟩ := t
  unfold onTruncate flushChanges
  dsimp only
  cases buf with
  | nil =>
    rcases post_cases hretry answer with ⟨hpost, -⟩ | ⟨hpost, -⟩
    · simp only [hpost, if_true]
      exact .delivered (.inl rfl)
    · simp only [hpost, if_true]
      exact .cutShort (.inl rfl)
  | cons e buf =>
    unfold flushChangeBatch
    rcases post_cases hretry flush with ⟨hpost, hans⟩ | ⟨hpost, hnot⟩
    · simp only [hpost, if_true]
      rcases post_cases hretry answer with ⟨hpost', -⟩ | ⟨hpost', -⟩
      · simp only [hpost']
        exact .delivered (.inr hans)
      · simp only [hpost']
        exact .cutShort (.inr hans)
    · simp only [hpost]
      exact .refused trivial hnot

lemma call_effect (hretry : 0 ≤ cfg.retryCount) (t : Target V) (change : TableChange V)
    (flush answer : Nat → Answer) :
    Effect cfg flush t change (t.call cfg flush answer change) := by
  cases change with
  | insert row | update row identity | delete identity => exact bufferChange_effect hretry Iff.rfl
  | truncate => exact onTruncate_effect hretry

variable {r : Result V}

lemma Effect.conserves_iff (h : Effect cfg answer t change r) : r.posted ++ r.target.changeBuf =
        (if r.ok then t.changeBuf ++ [entry change] else t.changeBuf) ↔
      ¬ t.Drops cfg answer change := by
  cases h with
  | buffered hroom => simp [Drops, hroom]
  | delivered hans | cutShort hans =>
    rcases hans with hnil | hans
    · simp [Drops, hnil]
    · simp [Drops, hans]
  | refused hflushes hnot => simp [Drops, hflushes, hnot, eq_comm]

lemma flushChanges_cases (hretry : 0 ≤ cfg.retryCount) (answer : Nat → Answer) (t : Target V) :
    t.flushChanges cfg answer = ⟨t, [], true⟩ ∧ t.changeBuf = [] ∨
      t.flushChanges cfg answer = ⟨{ t with changeBuf := [], durable := true }, t.changeBuf, true⟩ ∨
      t.flushChanges cfg answer = ⟨{ t with changeBuf := [], durable := false }, [], false⟩ := by
  unfold flushChanges
  cases hbuf : t.changeBuf with
  | nil => exact .inl ⟨rfl, rfl⟩
  | cons e buf =>
    unfold flushChangeBatch
    rcases post_cases hretry answer with ⟨hpost, -⟩ | ⟨hpost, -⟩
    · exact .inr (.inl (by simp only [hpost]))
    · exact .inr (.inr (by simp only [hpost]))

lemma Effect.changeBuf_eq (h : Effect cfg answer t change r) (hdur : r.target.durable = true) :
    r.target.changeBuf = [] := by
  cases h with
  | buffered _ => cases hdur
  | delivered _ | cutShort _ | refused _ _ => rfl

end Target

/-- The consumer of a pipeline with the HTTP target. The last four fields record history. -/
structure Consumer (P V : Type) where
  target : Target V := {}
  retrying : Option (ChangeEvent P V × Nat) := none
  tracker : AckTracker Unit P := .new
  closed : Bool := false
  posted : List (ChangeEntry V) := []
  accepted : List (ChangeEntry V) := []
  confirmed : List (ChangeEntry V) := []
  acked : List (P × List (ChangeEntry V)) := []

namespace Consumer

def ack (order : PositionOrder P) (σ : Consumer P V) : Consumer P V :=
  match σ.tracker.ackPosition order [()] with
  | ((some q, true), tracker) =>
    { σ with tracker := tracker, acked := σ.acked ++ [(q, σ.confirmed)] }
  | (_, tracker) => { σ with tracker := tracker }

def confirm (pos : Option P) (σ : Consumer P V) : Consumer P V :=
  { σ with tracker := σ.tracker.confirm () pos, confirmed := σ.accepted }

def settle (order : PositionOrder P) (pos : Option P) (σ : Consumer P V) : Consumer P V :=
  (if σ.target.durable then σ.confirm pos else σ).ack order

def beat (order : PositionOrder P) (pos : Option P) (σ : Consumer P V) : Consumer P V :=
  if σ.target.durable then (σ.confirm pos).ack order else σ

def completeBaseline (cfg : Config) (order : PositionOrder P) (pos : Option P)
    (flush answer : Nat → Answer) (σ : Consumer P V) : Consumer P V :=
  let r := σ.target.onBaselineComplete cfg flush answer
  let σ := { σ with target := r.1 }
  if r.2 then (σ.confirm pos).ack order else σ

def attempt (cfg : Config) (p : ResolvedPipeline V) (order : PositionOrder P)
    (event : ChangeEvent P V) (number : Nat) (now : Int) (flush answer : Nat → Answer)
    (σ : Consumer P V) : Consumer P V :=
  match p.applyChangeToTarget now event with
  | none => { σ with retrying := none }.settle order event.position
  | some change =>
      let r := σ.target.call cfg flush answer change
      let σ := { σ with target := r.target, posted := σ.posted ++ r.posted }
      if r.ok then
        { σ with retrying := none, accepted := σ.accepted ++ [Target.entry change] }.settle order
          event.position
      else { σ with retrying := if number < p.maxRetries then some (event, number + 1) else none }

inductive Label (P V : Type)
  | change (event : ChangeEvent P V) (now : Int) (flush answer : Nat → Answer)
  | retry (now : Int) (flush answer : Nat → Answer)
  | cancel
  | heartbeat (pos : Option P)
  | baselineRow (row : Row V) (answer : Nat → Answer)
  | baselineComplete (pos : Option P) (flush answer : Nat → Answer)
  | close (answer : Nat → Answer)

inductive Step (cfg : Config) (p : ResolvedPipeline V) (order : PositionOrder P)
    (σ : Consumer P V) : Label P V → Consumer P V → Prop
  | change {event : ChangeEvent P V} {now : Int} {flush answer : Nat → Answer}
      (hopen : σ.closed = false) (hready : σ.retrying = none) :
      Step cfg p order σ (.change event now flush answer)
        (σ.attempt cfg p order event 0 now flush answer)
  | retry {event : ChangeEvent P V} {number : Nat} {now : Int} {flush answer : Nat → Answer}
      (hopen : σ.closed = false) (hwaits : σ.retrying = some (event, number)) :
      Step cfg p order σ (.retry now flush answer)
        (σ.attempt cfg p order event number now flush answer)
  | cancel {event : ChangeEvent P V} {number : Nat} (hopen : σ.closed = false)
      (hwaits : σ.retrying = some (event, number)) :
      Step cfg p order σ .cancel { σ with retrying := none }
  | heartbeat {pos : Option P} (hopen : σ.closed = false) (hready : σ.retrying = none) :
      Step cfg p order σ (.heartbeat pos) (σ.beat order pos)
  | baselineRow {row : Row V} {answer : Nat → Answer} (hopen : σ.closed = false)
      (hready : σ.retrying = none) :
      Step cfg p order σ (.baselineRow row answer)
        { σ with target := (σ.target.onBaselineRow cfg answer row).1 }
  | baselineComplete {pos : Option P} {flush answer : Nat → Answer} (hopen : σ.closed = false)
      (hready : σ.retrying = none) :
      Step cfg p order σ (.baselineComplete pos flush answer)
        (σ.completeBaseline cfg order pos flush answer)
  | close {answer : Nat → Answer} (hopen : σ.closed = false) :
      Step cfg p order σ (.close answer)
        { σ with
          target := (σ.target.flushChanges cfg answer).target
          posted := σ.posted ++ (σ.target.flushChanges cfg answer).posted
          closed := true }

def Spares (cfg : Config) (p : ResolvedPipeline V) (σ : Consumer P V) : Label P V → Prop
  | .change event now flush _ => ∀ change, p.applyChangeToTarget now event = some change →
      ¬ σ.target.Drops cfg flush change
  | .retry now flush _ => ∀ event number change, σ.retrying = some (event, number) →
      p.applyChangeToTarget now event = some change → ¬ σ.target.Drops cfg flush change
  | .baselineRow _ _ | .baselineComplete _ _ _ => σ.target.changeBuf = []
  | _ => True

structure Conserves (σ : Consumer P V) : Prop where
  buffered : σ.closed = false → σ.accepted = σ.posted ++ σ.target.changeBuf
  posted : σ.posted <+: σ.accepted
  durable : σ.target.durable = true → σ.posted = σ.accepted
  confirmed : σ.confirmed <+: σ.posted
  acked : ∀ a ∈ σ.acked, a.2 <+: σ.posted

variable {cfg : Config} {p : ResolvedPipeline V} {order : PositionOrder P} {σ σ' : Consumer P V}

section

variable (h : σ.Conserves)
include h

lemma Conserves.ack : (σ.ack order).Conserves := by
  unfold Consumer.ack
  split
  · refine ⟨h.buffered, h.posted, h.durable, h.confirmed, fun a ha => ?_⟩
    rcases mem_append.mp ha with hold | hnew
    · exact h.acked a hold
    · obtain rfl := mem_singleton.mp hnew
      exact h.confirmed
  · exact ⟨h.buffered, h.posted, h.durable, h.confirmed, h.acked⟩

lemma Conserves.confirm (hall : σ.posted = σ.accepted) (pos : Option P) :
    (σ.confirm pos).Conserves := by
  refine ⟨h.buffered, h.posted, h.durable, ?_, h.acked⟩
  exact hall ▸ prefix_rfl

lemma Conserves.settle (pos : Option P) : (σ.settle order pos).Conserves := by
  unfold Consumer.settle
  split
  · next hdur => exact (h.confirm (h.durable hdur) pos).ack
  · exact h.ack

lemma Conserves.beat (pos : Option P) : (σ.beat order pos).Conserves := by
  unfold Consumer.beat
  split
  · next hdur => exact (h.confirm (h.durable hdur) pos).ack
  · exact h

lemma Conserves.called {r : Result V} {accepted : List (ChangeEntry V)}
    (haccd : accepted = σ.posted ++ (r.posted ++ r.target.changeBuf))
    (hdur : r.target.durable = true → r.target.changeBuf = [])
    (retrying : Option (ChangeEvent P V × Nat)) :
    Conserves { σ with
      target := r.target
      posted := σ.posted ++ r.posted
      accepted := accepted
      retrying := retrying } := by
  have hbuf : accepted = σ.posted ++ r.posted ++ r.target.changeBuf := by
    rw [haccd, append_assoc]
  refine ⟨fun _ => hbuf, ⟨r.target.changeBuf, hbuf.symm⟩, fun hd => ?_, ?_, fun a ha => ?_⟩
  · show σ.posted ++ r.posted = accepted
    rw [hbuf, hdur hd, append_nil]
  · exact h.confirmed.trans (prefix_append _ _)
  · exact (h.acked a ha).trans (prefix_append _ _)

lemma Conserves.attempt (hretry : 0 ≤ cfg.retryCount)
    (hopen : σ.closed = false) {event : ChangeEvent P V} {number : Nat} {now : Int}
    {flush answer : Nat → Answer}
    (hspares : ∀ change, p.applyChangeToTarget now event = some change →
      ¬ σ.target.Drops cfg flush change) :
    (σ.attempt cfg p order event number now flush answer).Conserves := by
  unfold Consumer.attempt
  cases hchg : p.applyChangeToTarget now event with
  | none =>
    have hready : Conserves { σ with retrying := none } :=
      ⟨h.buffered, h.posted, h.durable, h.confirmed, h.acked⟩
    exact hready.settle event.position
  | some change =>
    have heff := Target.call_effect hretry σ.target change flush answer
    have hcons := heff.conserves_iff.mpr (hspares change hchg)
    have hbuf := h.buffered hopen
    dsimp only
    cases hok : (σ.target.call cfg flush answer change).ok with
    | true =>
      rw [hok, if_pos rfl] at hcons
      have haccd : σ.accepted ++ [Target.entry change] = σ.posted ++
          ((σ.target.call cfg flush answer change).posted ++
            (σ.target.call cfg flush answer change).target.changeBuf) := by
        rw [hcons, hbuf, append_assoc]
      exact (h.called haccd heff.changeBuf_eq none).settle event.position
    | false =>
      rw [hok, if_neg (by simp)] at hcons
      rw [← hcons] at hbuf
      exact h.called hbuf heff.changeBuf_eq _

end

lemma onBaselineRow_changeBuf (cfg : Config) (t : Target V) (answer : Nat → Answer) (row : Row V) :
    (t.onBaselineRow cfg answer row).1.changeBuf = t.changeBuf := by
  unfold Target.onBaselineRow
  dsimp only
  split <;> rfl

lemma onBaselineComplete_changeBuf (cfg : Config) (t : Target V) (flush answer : Nat → Answer) :
    (t.onBaselineComplete cfg flush answer).1.changeBuf = t.changeBuf := by
  unfold Target.onBaselineComplete
  dsimp only
  cases t.baselineBuf with
  | nil => rfl
  | cons row rows =>
    dsimp only
    split <;> rfl

lemma Conserves.baselined (h : σ.Conserves) (hopen : σ.closed = false) {t : Target V}
    (hsame : t.changeBuf = σ.target.changeBuf) (hemp : σ.target.changeBuf = []) :
    Conserves { σ with target := t } := by
  have hbuf := h.buffered hopen
  refine ⟨fun _ => ?_, h.posted, fun _ => ?_, h.confirmed, h.acked⟩
  · show σ.accepted = σ.posted ++ t.changeBuf
    rw [hsame]
    exact hbuf
  · show σ.posted = σ.accepted
    rw [hbuf, hemp, append_nil]

lemma Conserves.completeBaseline (h : σ.Conserves) (hopen : σ.closed = false)
    (hemp : σ.target.changeBuf = []) (pos : Option P) (flush answer : Nat → Answer) :
    (σ.completeBaseline cfg order pos flush answer).Conserves := by
  have hcomp := h.baselined hopen (onBaselineComplete_changeBuf cfg σ.target flush answer) hemp
  unfold Consumer.completeBaseline
  dsimp only
  split
  · refine (hcomp.confirm ?_ pos).ack
    rw [h.buffered hopen, hemp, append_nil]
  · exact hcomp

lemma Conserves.close (h : σ.Conserves) (hretry : 0 ≤ cfg.retryCount) (hopen : σ.closed = false)
    (answer : Nat → Answer) :
    Conserves { σ with
      target := (σ.target.flushChanges cfg answer).target
      posted := σ.posted ++ (σ.target.flushChanges cfg answer).posted
      closed := true } := by
  have hbuf := h.buffered hopen
  rcases Target.flushChanges_cases hretry answer σ.target with ⟨heq, -⟩ | heq | heq
  · rw [heq, append_nil]
    exact ⟨nofun, h.posted, h.durable, h.confirmed, h.acked⟩
  · rw [heq, ← hbuf]
    exact ⟨nofun, prefix_rfl, fun _ => rfl, h.confirmed.trans h.posted,
      fun a ha => (h.acked a ha).trans h.posted⟩
  · rw [heq, append_nil]
    exact ⟨nofun, h.posted, nofun, h.confirmed, h.acked⟩

lemma Conserves.step (h : σ.Conserves) (hretry : 0 ≤ cfg.retryCount) {a : Label P V}
    (hok : σ.Spares cfg p a) (hs : Step cfg p order σ a σ') : σ'.Conserves := by
  cases hs with
  | change hopen _ => exact h.attempt hretry hopen hok
  | retry hopen hwaits => exact h.attempt hretry hopen fun change => hok _ _ change hwaits
  | cancel _ _ => exact ⟨h.buffered, h.posted, h.durable, h.confirmed, h.acked⟩
  | heartbeat _ _ => exact h.beat _
  | baselineRow hopen _ => exact h.baselined hopen (onBaselineRow_changeBuf _ _ _ _) hok
  | baselineComplete hopen _ => exact h.completeBaseline hopen hok _ _ _
  | close hopen => exact h.close hretry hopen _

/-- **Nothing accepted is dropped, if no post fails that accepted changes are in**: the changes
posted are the first of those accepted, durable means all of them, and so does an acknowledgement.
-/
theorem accepted_changes_are_posted (cfg : Config) (hretry : 0 ≤ cfg.retryCount)
    (p : ResolvedPipeline V) (order : PositionOrder P) (σ : Consumer P V)
    (hreach : Reach (Step cfg p order) (Spares cfg p) {} σ) :
    σ.posted <+: σ.accepted ∧ (σ.target.durable = true → σ.posted = σ.accepted) ∧
      ∀ a ∈ σ.acked, a.2 <+: σ.posted := by
  have hinv : σ.Conserves := by
    refine hreach.invariant Conserves ?_ ?_
    · exact ⟨fun _ => rfl, prefix_rfl, nofun, prefix_rfl, nofun⟩
    · intro σ₁ σ₂ a h hok hs
      exact h.step hretry hok hs
  exact ⟨hinv.posted, hinv.durable, hinv.acked⟩

def pairs : Config := ⟨2, 0⟩

def oneRetry : ResolvedPipeline Unit := { table := ⟨"public", "events"⟩, maxRetries := 1 }

def changeAt (action : ChangeAction) (pos : Int) : ChangeEvent Int Unit :=
  ⟨⟨"public", "events"⟩, action, some pos, some ∅, some ∅⟩

/-- The post with the update at 2 fails, and the update alone is tried again. -/
theorem failed_post_drops_changes : ∃ σ : Consumer Int Unit, Run (Step pairs oneRetry .ofInt) {} σ ∧
      σ.accepted = [⟨.insert, some ∅, none⟩, ⟨.update, some ∅, some ∅⟩, ⟨.delete, none, some ∅⟩] ∧
      σ.posted = [⟨.update, some ∅, some ∅⟩, ⟨.delete, none, some ∅⟩] ∧
      ¬ σ.posted <+: σ.accepted ∧ σ.target.durable = true ∧ σ.acked = [(3, σ.accepted)] := by
  have h : Run (Step pairs oneRetry .ofInt)
      ({} : Consumer Int Unit) _ := .refl _
  have h := h
    |>.snoc (a := .change (changeAt .insert 1) 0 (fun _ => .accepted) fun _ => .accepted)
      (.change rfl rfl)
    |>.snoc (a := .change (changeAt .update 2) 0 (fun _ => .refused) fun _ => .accepted)
      (.change rfl rfl)
    |>.snoc (a := .retry 0 (fun _ => .accepted) fun _ => .accepted) (.retry rfl rfl)
    |>.snoc (a := .change (changeAt .delete 3) 0 (fun _ => .accepted) fun _ => .accepted)
      (.change rfl rfl)
  refine ⟨_, h, rfl, rfl, ?_, rfl, rfl⟩
  rintro ⟨rest, hrest⟩
  have hact := congrArg (fun l => (l.map ChangeEntry.action).head?) hrest
  cases hact

theorem posts_pair : ∃ σ : Consumer Int Unit,
      Reach (Step pairs oneRetry .ofInt) (Spares pairs oneRetry) {} σ ∧
      σ.accepted = [⟨.insert, some ∅, none⟩, ⟨.update, some ∅, some ∅⟩] ∧
      σ.target.durable = true ∧ σ.posted = σ.accepted ∧ σ.acked.map Prod.fst = [2] ∧
      ∀ a ∈ σ.acked, a.2 <+: σ.posted := by
  have h : Reach (Step pairs oneRetry .ofInt) (Spares pairs oneRetry)
      ({} : Consumer Int Unit) _ := .refl _
  have h := h
    |>.snoc (a := .change (changeAt .insert 1) 0 (fun _ => .refused) fun _ => .accepted)
      (.change rfl rfl) (by exact fun _ _ hdrops => hdrops.1 rfl)
    |>.snoc (a := .change (changeAt .update 2) 0 (fun _ => .accepted) fun _ => .accepted)
      (.change rfl rfl) (by exact fun _ _ hdrops => hdrops.2.2 ⟨0, Int.le_refl 0, rfl, nofun⟩)
  have hres := accepted_changes_are_posted pairs (Int.le_refl 0) oneRetry .ofInt _ h
  exact ⟨_, h, rfl, rfl, hres.2.1 rfl, rfl, hres.2.2⟩

end Consumer

end Laredo.HttpSync
