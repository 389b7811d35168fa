import Laredo.Lib.Transition
import Laredo.Lib.KeyedMap
import Laredo.Engine.AckTracker

/-!
# Shared tracker

The tracker of confirmed positions (`AckTracker` in `internal/engine/ack.go`) as the engine has it,
one for all sources.
-/

namespace Laredo.Engine

open Std List AckTracker Comparator

/-- `AckTracker`. Nothing but a minimum is ever stored in `lastAcked`, and that is not nil. -/
structure SharedTracker (P : Type) where
  pipelineSource : ExtTreeMap String String := ∅
  positions : ExtTreeMap String (Option P) := ∅
  lastAcked : ExtTreeMap String P := ∅
  comparators : ExtTreeMap String (PositionOrder P) := ∅
  skipped : ExtTreeMap String Bool := ∅

namespace SharedTracker

variable {P : Type} (tr : SharedTracker P)

def registerPipeline (pipelineID sourceID : String) (compare : PositionOrder P) :
    SharedTracker P :=
  { tr with
    pipelineSource := tr.pipelineSource.insert pipelineID sourceID
    comparators := tr.comparators.insert sourceID compare }

def confirm (pipelineID : String) (position : Option P) : SharedTracker P :=
  { tr with positions := tr.positions.insert pipelineID position }

/-- The condition of `ConfirmAll` for one pipeline of the source: nothing confirmed, no
comparator, or the position is past the one confirmed. -/
def Advances (sourceID pipelineID : String) (position : Option P) : Prop :=
  match tr.positions[pipelineID]?, tr.comparators[sourceID]? with
  | some cur, some compare => 0 < compare.comparePositions position cur
  | _, _ => True

instance (sourceID pipelineID : String) (position : Option P) :
    Decidable (tr.Advances sourceID pipelineID position) := by
  unfold Advances
  split <;> infer_instance

/-- `ConfirmAll(sourceID, position)`, with the pipelines in the order of the map iteration. -/
def confirmAll (sourceID : String) (position : Option P) (pids : List String) : SharedTracker P :=
  pids.foldl (fun tr pid =>
    if tr.pipelineSource[pid]? = some sourceID ∧ tr.Advances sourceID pid position then
      tr.confirm pid position
    else tr) tr

def skip (pipelineID : String) : SharedTracker P :=
  { tr with skipped := tr.skipped.insert pipelineID true }

def Counts (sourceID pid : String) : Prop :=
  tr.pipelineSource[pid]? = some sourceID ∧ tr.skipped.getD pid false = false

instance (sourceID pid : String) : Decidable (tr.Counts sourceID pid) :=
  inferInstanceAs (Decidable (_ ∧ _))

/-- The loop of `AckPosition`: `none` when some pipeline that counts has confirmed nothing. -/
def scanSource (compare : PositionOrder P) (sourceID : String) :
    List String → Option P → Option (Option P)
  | [], minPos => some minPos
  | pid :: rest, minPos =>
      if ¬ tr.Counts sourceID pid then scanSource compare sourceID rest minPos
      else
        match tr.positions[pid]? with
        | none => none
        | some pos =>
            scanSource compare sourceID rest
              (if minPos.isNone ∨ compare.comparePositions pos minPos < 0 then pos else minPos)

/-- `AckPosition(sourceID)`: the minimum, whether it advanced, and the tracker after. -/
def ackPosition (sourceID : String) (pids : List String) :
    (Option P × Bool) × SharedTracker P :=
  match tr.comparators[sourceID]? with
  | none => ((none, false), tr)
  | some compare =>
      match tr.scanSource compare sourceID pids none with
      | none | some none => ((none, false), tr)
      | some (some minPos) =>
          if tr.lastAcked[sourceID]?.isSome ∧
              compare.comparePositions (some minPos) tr.lastAcked[sourceID]? ≤ 0 then
            ((some minPos, false), tr)
          else
            ((some minPos, true), { tr with lastAcked := tr.lastAcked.insert sourceID minPos })

def source (sourceID : String) : AckTracker String P where
  positions pid := tr.positions[pid]?
  skipped pid := tr.skipped.getD pid false
  lastAcked := tr.lastAcked[sourceID]?

def pipelinesOf (sourceID : String) (pids : List String) : List String :=
  pids.filter fun pid => decide (tr.pipelineSource[pid]? = some sourceID)

variable {tr}

lemma scanSource_eq_scanMin (compare : PositionOrder P) (sourceID : String) (pids : List String)
    (minPos : Option P) :
    tr.scanSource compare sourceID pids minPos =
      (tr.source sourceID).scanMin compare (tr.pipelinesOf sourceID pids) minPos := by
  unfold pipelinesOf
  induction pids generalizing minPos with
  | nil => rfl
  | cons pid rest ih =>
    rw [scanSource, filter_cons]
    by_cases hsrc : tr.pipelineSource[pid]? = some sourceID
    · simp only [hsrc, decide_true, if_true, scanMin]
      by_cases hskip : tr.skipped.getD pid false = true
      · simpa [Counts, source, hskip] using ih minPos
      · simp only [Counts, hsrc, source, hskip, Bool.false_eq_true, not_true_eq_false,
          if_false, true_and]
        cases tr.positions[pid]? with
        | none => rfl
        | some pos => exact ih _
    · simpa [Counts, hsrc] using ih minPos

lemma ackPosition_cases {sourceID : String} {pids : List String} {r : Option P × Bool}
    {tr' : SharedTracker P} (h : tr.ackPosition sourceID pids = (r, tr')) :
    (r.2 = false ∧ tr' = tr) ∨
    ∃ compare m, tr.comparators[sourceID]? = some compare ∧
      (tr.source sourceID).ackPosition compare (tr.pipelinesOf sourceID pids) =
        ((some m, true), { tr.source sourceID with lastAcked := some m }) ∧
      r = (some m, true) ∧ tr' = { tr with lastAcked := tr.lastAcked.insert sourceID m } := by
  unfold ackPosition at h
  cases hcompare : tr.comparators[sourceID]? with
  | none =>
    rw [hcompare] at h
    cases h
    exact .inl ⟨rfl, rfl⟩
  | some compare =>
    rw [hcompare] at h
    dsimp only at h
    rw [scanSource_eq_scanMin] at h
    split at h
    · cases h
      exact .inl ⟨rfl, rfl⟩
    · cases h
      exact .inl ⟨rfl, rfl⟩
    · next m hscan =>
        split at h
        · cases h
          exact .inl ⟨rfl, rfl⟩
        · next hlast =>
            cases h
            refine .inr ⟨compare, m, rfl, ?_, rfl, rfl⟩
            rw [AckTracker.ackPosition, hscan]
            exact if_neg hlast

end SharedTracker

inductive TrackerCall (P : Type)
  | registerPipeline (pipelineID sourceID : String)
  | confirm (pipelineID : String) (position : P)
  | confirmAll (sourceID : String) (position : P)
  | skip (pipelineID : String)
  | ackPosition (sourceID : String)

structure Reported (P : Type) where
  tracker : SharedTracker P
  advanced : String → List P

namespace Reported

variable {P : Type}

def new : Reported P := ⟨{}, fun _ => []⟩

def report (h : Reported P) (sourceID : String) : Option P × Bool → String → List P
  | (some q, true) => Function.update h.advanced sourceID (h.advanced sourceID ++ [q])
  | _ => h.advanced

end Reported

variable {P : Type} (compare : String → PositionOrder P)

inductive CallStep (h : Reported P) : TrackerCall P → Reported P → Prop
  | registerPipeline (pipelineID sourceID : String) :
      CallStep h (.registerPipeline pipelineID sourceID)
        { h with tracker := h.tracker.registerPipeline pipelineID sourceID (compare sourceID) }
  | confirm (pipelineID : String) (position : P) :
      CallStep h (.confirm pipelineID position)
        { h with tracker := h.tracker.confirm pipelineID (some position) }
  | confirmAll (sourceID : String) (position : P) (pids : List String)
      (hpids : pids.Perm h.tracker.pipelineSource.keys) :
      CallStep h (.confirmAll sourceID position)
        { h with tracker := h.tracker.confirmAll sourceID (some position) pids }
  | skip (pipelineID : String) :
      CallStep h (.skip pipelineID) { h with tracker := h.tracker.skip pipelineID }
  | ackPosition (sourceID : String) (pids : List String) {r : Option P × Bool}
      {tr : SharedTracker P} (hpids : pids.Perm h.tracker.pipelineSource.keys)
      (hack : h.tracker.ackPosition sourceID pids = (r, tr)) :
      CallStep h (.ackPosition sourceID) ⟨tr, h.report sourceID r⟩

structure Reported.Sound (h : Reported P) : Prop where
  nonnil : ∀ pid : String, h.tracker.positions[pid]? ≠ some none
  comparators : ∀ (sid : String) order, h.tracker.comparators[sid]? = some order →
    order = compare sid
  increasing : ∀ sid, (h.advanced sid).Pairwise (compare sid).Lt
  last : ∀ sid : String, h.tracker.lastAcked[sid]? = (h.advanced sid).getLast?

variable {compare}

namespace SharedTracker

variable {tr tr' : SharedTracker P}

lemma positions_confirm {pid : String} {q : P} (h : ∀ pid : String, tr.positions[pid]? ≠ some none)
    (k : String) : (tr.confirm pid (some q)).positions[k]? ≠ some none := by
  rw [confirm, ExtTreeMap.getElem?_insert]
  split
  · simp
  · exact h k

lemma confirmAll_spec (sourceID : String) (q : P) (pids : List String)
    (h : ∀ pid : String, tr.positions[pid]? ≠ some none) :
    (∀ k : String, (tr.confirmAll sourceID (some q) pids).positions[k]? ≠ some none) ∧
      (tr.confirmAll sourceID (some q) pids).comparators = tr.comparators ∧
      (tr.confirmAll sourceID (some q) pids).lastAcked = tr.lastAcked := by
  unfold confirmAll
  induction pids generalizing tr with
  | nil => exact ⟨h, rfl, rfl⟩
  | cons pid rest ih =>
    rw [foldl_cons]
    split
    · exact ih (positions_confirm h)
    · exact ih h

lemma mem_pipelinesOf {sourceID pid : String} {pids : List String}
    (hpids : pids.Perm tr.pipelineSource.keys) :
    pid ∈ tr.pipelinesOf sourceID pids ↔ tr.pipelineSource[pid]? = some sourceID := by
  rw [pipelinesOf, List.mem_filter, hpids.mem_iff, ExtTreeMap.mem_keys]
  refine ⟨fun h => by simpa using h.2, fun h => ⟨?_, by simpa using h⟩⟩
  exact ExtTreeMap.mem_iff_isSome_getElem?.mpr (by rw [h]; rfl)

end SharedTracker

lemma Reported.Sound.minimum {h : Reported P} (hs : h.Sound compare) {sid : String}
    {pids : List String} {pos : Option P} {tr : SharedTracker P}
    (hpids : pids.Perm h.tracker.pipelineSource.keys)
    (hack : h.tracker.ackPosition sid pids = ((pos, true), tr)) :
    ∃ q, pos = some q ∧ tr = { h.tracker with lastAcked := h.tracker.lastAcked.insert sid q } ∧
      (∀ last, h.tracker.lastAcked[sid]? = some last → (compare sid).Lt last q) ∧
      (∀ pid, h.tracker.Counts sid pid →
        ∃ p, h.tracker.positions[pid]? = some (some p) ∧ (compare sid).Le q p) ∧
      ∃ pid, h.tracker.Counts sid pid ∧ h.tracker.positions[pid]? = some (some q) := by
  rcases SharedTracker.ackPosition_cases hack with ⟨hhl, -⟩ | ⟨order, q, horder, hview, hr, htr⟩
  · cases hhl
  · cases hr
    obtain rfl := hs.comparators sid order horder
    obtain ⟨q', hq', -, hlast, hall⟩ :=
      ackPosition_advanced (fun pid _ => hs.nonnil pid) hview
    cases hq'
    have hmem : ∀ pid, pid ∈ h.tracker.pipelinesOf sid pids ↔
        h.tracker.pipelineSource[pid]? = some sid := fun pid => SharedTracker.mem_pipelinesOf hpids
    refine ⟨q, rfl, htr, hlast, fun pid hcounts => ?_, ?_⟩
    · exact hall pid ((hmem pid).mpr hcounts.1) hcounts.2
    · obtain ⟨pid, hpid, hcnt, hq⟩ := mem_of_ackPosition hview
      exact ⟨pid, ⟨(hmem pid).mp hpid, hcnt⟩, hq⟩

lemma CallStep.sound {h h' : Reported P} {call : TrackerCall P} (hstep : CallStep compare h call h')
    (hs : h.Sound compare) : h'.Sound compare := by
  cases hstep with
  | registerPipeline pid sid =>
    refine { hs with comparators := fun k order horder => ?_ }
    rw [SharedTracker.registerPipeline, ExtTreeMap.getElem?_insert] at horder
    split at horder
    · next heq =>
        obtain rfl : sid = k := by simpa using heq
        exact (Option.some.inj horder).symm
    · exact hs.comparators k order horder
  | confirm pid q => exact { hs with nonnil := SharedTracker.positions_confirm hs.nonnil }
  | confirmAll sid q pids hpids =>
    obtain ⟨hnil, hcompare, hlast⟩ := SharedTracker.confirmAll_spec sid q pids hs.nonnil
    refine ⟨hnil, ?_, hs.increasing, ?_⟩
    · rw [hcompare]
      exact hs.comparators
    · rw [hlast]
      exact hs.last
  | skip pid => exact { hs with }
  | @ackPosition sid pids r tr hpids hack =>
    obtain ⟨pos, advanced⟩ := r
    cases advanced with
    | false =>
      rcases SharedTracker.ackPosition_cases hack with ⟨-, rfl⟩ | ⟨_, _, _, _, hr, _⟩
      · cases pos <;> exact hs
      · cases hr
    | true =>
      obtain ⟨q, rfl, rfl, hlast, -⟩ := hs.minimum hpids hack
      refine { hs with increasing := fun k => ?_, last := fun k => ?_ } <;> by_cases hk : k = sid
      · subst hk
        simp only [Reported.report, Function.update_self]
        refine pairwise_append.mpr ⟨hs.increasing k, pairwise_singleton _ _, ?_⟩
        -- all that was reported is at or before the last one
        intro a ha b hb
        obtain rfl := mem_singleton.mp hb
        obtain ⟨last, hl⟩ : ∃ last, (h.advanced k).getLast? = some last :=
          ⟨_, getLast?_eq_some_getLast (ne_nil_of_mem ha)⟩
        have hle := le_getLast (hs.increasing k) hl ha
        exact hle.trans_lt (hlast last ((hs.last k).trans hl))
      · simpa [Reported.report, hk] using hs.increasing k
      · subst hk
        simp [Reported.report]
      · have hne : ¬ sid = k := fun h => hk h.symm
        simpa [Reported.report, hk, hne, ExtTreeMap.getElem?_insert] using hs.last k

/-- **The tracker computes a minimum that only advances**: a reported position is the minimum of
the pipelines that count, what was reported is strictly increasing, and `LastAcked` is the last of
it. -/
theorem ackPosition_minimum_advances (compare : String → PositionOrder P) {h : Reported P}
    (hrun : Transition.Run (CallStep compare) .new h) :
    (∀ (sid : String) (pids : List String) (pos : Option P) (tr : SharedTracker P),
      pids.Perm h.tracker.pipelineSource.keys →
      h.tracker.ackPosition sid pids = ((pos, true), tr) →
      ∃ q, pos = some q ∧ (∃ pid, h.tracker.Counts sid pid) ∧ (∀ pid, h.tracker.Counts sid pid →
          ∃ p, h.tracker.positions[pid]? = some (some p) ∧ (compare sid).Le q p) ∧
        ∃ pid p, h.tracker.Counts sid pid ∧ h.tracker.positions[pid]? = some (some p) ∧
          (compare sid).cmp q p = 0) ∧
    (∀ sid, (h.advanced sid).Pairwise (compare sid).Lt) ∧
    ∀ sid : String, h.tracker.lastAcked[sid]? = (h.advanced sid).getLast? := by
  have hs : h.Sound compare := by
    refine hrun.invariant (Reported.Sound compare) ⟨?_, ?_, fun _ => .nil, ?_⟩
      fun hs _ hstep => hstep.sound hs
    · simp [Reported.new]
    · simp [Reported.new]
    · simp [Reported.new]
  refine ⟨fun sid pids pos tr hpids hack => ?_, hs.increasing, hs.last⟩
  obtain ⟨q, hq, -, -, hall, pid, hcounts, hpos⟩ := hs.minimum hpids hack
  exact ⟨q, hq, ⟨pid, hcounts⟩, hall, pid, q, hcounts, hpos, cmp_self _ q⟩

theorem ackPosition_minimum_advances_run : ∃ h : Reported Int,
    Transition.Run (CallStep fun _ => .ofInt) .new h ∧
    h.advanced "pg" = [5, 7] ∧ (h.advanced "pg").Pairwise Comparator.ofInt.Lt ∧
    h.tracker.lastAcked["pg"]? = some 7 := by
  let compare : String → PositionOrder Int := fun _ => .ofInt
  have h : Transition.Run (CallStep compare) .new _ := .refl _
  have h := h.snoc (.registerPipeline "a" "pg")
  have h := h.snoc (.registerPipeline "b" "pg")
  have h := h.snoc (.registerPipeline "c" "archive")
  have h := h.snoc (.confirm "a" 5)
  have h := h.snoc (.confirm "b" 7)
  have h := h.snoc (.ackPosition "pg" ["c", "a", "b"] (by decide +kernel) rfl)
  have h := h.snoc (.confirm "a" 3)
  have h := h.snoc (.ackPosition "pg" ["b", "a", "c"] (by decide +kernel) rfl)
  have h := h.snoc (.confirmAll "pg" 4 ["a", "b", "c"] (by decide +kernel))
  have h := h.snoc (.skip "a")
  have h := h.snoc (.ackPosition "pg" ["a", "b", "c"] (by decide +kernel) rfl)
  obtain ⟨-, hincr, hlast⟩ := ackPosition_minimum_advances compare h
  exact ⟨_, h, rfl, hincr "pg", hlast "pg"⟩

end Laredo.Engine
