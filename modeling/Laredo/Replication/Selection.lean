import Laredo.Replication.Delivery

/-!
# Selection

The mode selection of `Sync` as a whole (`service/replication/replication.go`): source
position first, then a cold archive, then the switch on sequence, snapshot and full
snapshot.
-/

namespace Laredo.Replication

open Laredo.Fanout Call Transition Journal

variable {P V : Type}

/-- `planColdReplay`, for the head position of the plan an archive offers (`none`: nothing that can
be read): the sequence to resume after, if the journal covers the head. -/
def Call.planCold (call : Call P V) (archive : Option (Option P)) (j : Journal P V) :
    Option Int :=
  match call.src, archive with
  | some src, some head =>
      if call.lastKnownSourcePosition = "" then none
      else
        match j.resumeSeqForPosition head src.order.comparePositions with
        | (seq, true) => some seq
        | (_, false) => none
  | _, _ => none

def Call.choose (call : Call P V) (archive : Option (Option P)) (t : Target P V) :
    SyncMode × Int × String :=
  match call.positionResume t.j with
  | some seq => (.delta, seq, "")
  | none =>
      match call.planCold archive t.j with
      | some seq => (.replayArchive, seq, "")
      | none => call.selectMode t.j.oldestSequence t.snapshots

def SyncMode.isDelta : SyncMode → Bool
  | .delta | .deltaFromSnapshot => true
  | .fullSnapshot | .replayArchive => false

section Choose

variable {call : Call P V} {archive : Option (Option P)} {t : Target P V}

lemma Call.choose_position {seq : Int} (h : call.positionResume t.j = some seq) :
    call.choose archive t = (.delta, seq, "") := by
  simp only [choose, h]

lemma Call.choose_cold {seq : Int} (h : call.positionResume t.j = none)
    (hcold : call.planCold archive t.j = some seq) :
    call.choose archive t = (.replayArchive, seq, "") := by
  simp only [choose, h, hcold]

lemma Call.choose_switch (h : call.positionResume t.j = none)
    (hcold : call.planCold archive t.j = none) :
    call.choose archive t = call.selectMode t.j.oldestSequence t.snapshots := by
  simp only [choose, h, hcold]

end Choose

def SnapshotsIssued (t : Target P V) : Prop :=
  ∀ snap ∈ t.snapshots, snap.sequence ≤ t.j.currentSequence

variable {call : Call P V} {t : Target P V} {ss ss' : Session P V}

lemma SnapshotsIssued.of_le {t' : Target P V} (h : SnapshotsIssued t)
    (hsnaps : t'.snapshots = t.snapshots) (hseq : t.j.nextSeq ≤ t'.j.nextSeq) :
    SnapshotsIssued t' := by
  intro snap hsnap
  rw [hsnaps] at hsnap
  have hle := h snap hsnap
  unfold currentSequence at hle ⊢
  omega

lemma SnapshotsIssued.takeSnapshot (h : SnapshotsIssued t) (env : SnapshotEnv V) :
    SnapshotsIssued (t.takeSnapshot env).2 := by
  intro snap hsnap
  have hmem := (Target.pruneSnapshots_sublist _ _ _).mem hsnap
  rcases List.mem_cons.mp hmem with rfl | hold
  · exact Int.le_refl t.j.currentSequence
  · exact h snap hold

lemma SessionStep.snapshotsIssued {t' : Target P V}
    (hs : SessionStep call t ss t' ss') (h : SnapshotsIssued t) : SnapshotsIssued t' := by
  cases hs with
  | takeSnapshot _ _ => exact h.takeSnapshot _
  | pinJournal _ => exact h.of_le rfl (Int.le_refl _)
  | _ => exact h

lemma Call.selectMode_beyond {j : Journal P V}
    (h : j.currentSequence < call.lastKnownSequence) (snaps : List (Snapshot V)) :
    call.selectMode j.oldestSequence snaps = (.delta, call.lastKnownSequence, "") := by
  have hcur := j.currentSequence_nonneg
  have holdest := j.oldestSequence_le_currentSequence
  rw [selectMode, if_pos ⟨by omega, by omega⟩]

lemma Call.selectMode_within (hissued : SnapshotsIssued t)
    (hle : call.lastKnownSequence ≤ t.j.currentSequence)
    (hmode : (call.selectMode t.j.oldestSequence t.snapshots).1.isDelta = true) :
    t.j.oldestSequence ≤ (call.selectMode t.j.oldestSequence t.snapshots).2.1 ∧
      (call.selectMode t.j.oldestSequence t.snapshots).2.1 ≤ t.j.currentSequence := by
  rcases call.selectMode_cases t.j.oldestSequence t.snapshots with
    ⟨-, hseq, heq⟩ | ⟨snap, hsnap, -, -, hseq, heq⟩ | heq
  · rw [heq]
    exact ⟨hseq, hle⟩
  · rw [heq]
    exact ⟨hseq, hissued snap hsnap⟩
  · rw [heq] at hmode
    cases hmode

section Issued

variable [GoValue V]

lemma SnapshotsIssued.apply (h : SnapshotsIssued t) (env : AppendEnv) (op : Op P V) :
    SnapshotsIssued (op.apply t env) := by
  cases op with
  | onBaselineComplete =>
    refine h.of_le rfl ?_
    show t.j.nextSeq ≤ (t.j.backfillNilPositions t.curPos).nextSeq
    simp only [nextSeq_backfillNilPositions, Int.le_refl]
  | setChangePosition position => exact h.of_le rfl (Int.le_refl _)
  | _ => exact h.of_le rfl (Int.le_add_one (Int.le_refl _))

lemma Step.snapshotsIssued {call : Call P V} {s s' : State P V} {a : Act P V}
    (hs : Step call s a s') (h : SnapshotsIssued s.target) : SnapshotsIssued s'.target := by
  cases hs with
  | engine _ => exact h.apply _ _
  | schemaChange _ => exact h.of_le rfl (Int.le_add_one (Int.le_refl _))
  | snapshot _ => exact h.takeSnapshot _
  | session hstep => exact hstep.snapshotsIssued h
  | close =>
    by_cases hp : s.session.pinned
    · simpa [hp] using (h.of_le rfl (Int.le_refl _) :
        SnapshotsIssued (s.target.unpinJournal call.clientID))
    · simpa [hp] using h
  | restoreSnapshot | pin | unpin => exact h.of_le rfl (Int.le_refl _)

/-- **A delta starts at a sequence the journal has given out** just when the position of the
request is covered, an archive bridges to the journal, or the sequence of the request is not past
the latest. -/
theorem delta_resumes_within_journal_iff (call₀ : Call P V) (cfg : Config)
    (columns : List ColumnDefinition) {s : State P V}
    (hreach : Run (Step call₀) (State.init cfg columns) s)
    (call : Call P V) (archive : Option (Option P)) :
    ((call.choose archive s.target).1.isDelta = true →
        s.target.j.oldestSequence - 1 ≤ (call.choose archive s.target).2.1 ∧
          (call.choose archive s.target).2.1 ≤ s.target.j.currentSequence) ↔
      ((call.positionResume s.target.j).isSome ∨ (call.planCold archive s.target.j).isSome ∨
        call.lastKnownSequence ≤ s.target.j.currentSequence) := by
  have hissued : SnapshotsIssued s.target := by
    refine hreach.invariant (fun s => SnapshotsIssued s.target) ?_ ?_
    · intro snap hsnap
      exact absurd hsnap (by simp [State.init, Target.new, Target.onInit])
    · intro s₁ s₂ a h _ hs
      exact hs.snapshotsIssued h
  have holdest := s.target.j.oldestSequence_le_firstSeq
  cases hpos : call.positionResume s.target.j with
  | some seq =>
    rw [choose_position hpos]
    obtain ⟨_, _, _, _, _, hseq⟩ := positionResume_inv hpos
    have hbounds := resumeSeqForPosition_bounds hseq
    refine iff_of_true (fun _ => ?_) (.inl rfl)
    show s.target.j.oldestSequence - 1 ≤ seq ∧ seq ≤ s.target.j.currentSequence
    omega
  | none =>
    cases hcold : call.planCold archive s.target.j with
    | some seq =>
      rw [choose_cold hpos hcold]
      exact iff_of_true (fun hmode => by cases hmode) (.inr (.inl rfl))
    | none =>
      rw [choose_switch hpos hcold]
      by_cases hle : call.lastKnownSequence ≤ s.target.j.currentSequence
      · refine iff_of_true (fun hmode => ?_) (.inr (.inr hle))
        have hbounds := selectMode_within hissued hle hmode
        omega
      · -- the sequence of the request is taken as it is
        have hlt := Int.not_le.mp hle
        rw [selectMode_beyond hlt]
        refine iff_of_false (fun h => ?_) (by simp [hle])
        exact hle (h rfl).2

def clientFromElsewhere : Call Int Text := ⟨"replica-1", 1000, "", "", none, none⟩

/-- The handshake is a delta from sequence 1000, and sequences 1 and 2 are never sent: the
first entry on the stream is the next one appended. -/
theorem delta_resumes_beyond_journal : ∃ s : State Int Text, Run (Step clientFromElsewhere)
        (State.init {} [⟨"id", true, 1⟩]) s ∧
      (clientFromElsewhere.choose none s.target).1 = .delta ∧
      s.session.handshake.map (fun h => (h.mode, h.serverCurrentSequence,
        h.resumeFromSequence)) = some (.delta, 2, 1000) ∧
      s.session.sent.map (·.sequence) = [3] := by
  have h : Run (Step clientFromElsewhere)
      (State.init {} [⟨"id", true, 1⟩]) _ := .refl _
  have h := h
    |>.snoc (step_insertRow _ _ "1" rfl)
    |>.snoc (step_insertRow _ _ "2" rfl)
    |>.snoc (.session (.readOldest rfl))
    |>.snoc (.session (.readCurrent rfl))
    |>.snoc (.session (.positionMissed rfl rfl))
    |>.snoc (.session (.coldUnavailable rfl))
    |>.snoc (.session (.selectMode rfl))
    |>.snoc (.session (.catchUp rfl))
    |>.snoc (.session (.caughtUp rfl))
    |>.snoc (.session (.readHead rfl))
    |>.snoc (step_insertRow _ _ "3" rfl)
    |>.snoc (.session (.poll rfl))
    |>.snoc (.session (.sendLive rfl))
  exact ⟨_, h, by decide, by decide, by decide⟩

theorem delta_resumes_within_journal_run : ∃ s : State Int Text,
      s.target.j.currentSequence = 2 ∧ (clientAtOne.choose none s.target).1.isDelta = true ∧
      s.target.j.oldestSequence - 1 ≤ (clientAtOne.choose none s.target).2.1 ∧
      (clientAtOne.choose none s.target).2.1 ≤ s.target.j.currentSequence := by
  have h : Run (Step clientAtOne)
      (State.init {} [⟨"id", true, 1⟩]) _ := .refl _
  have h := h
    |>.snoc (step_insertRow _ _ "1" rfl)
    |>.snoc (step_insertRow _ _ "2" rfl)
  exact ⟨_, by decide, by decide,
    (delta_resumes_within_journal_iff clientAtOne {} _ h clientAtOne none).mpr
      (.inr (.inr (by decide))) (by decide)⟩

end Issued

end Laredo.Replication
