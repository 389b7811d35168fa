import Laredo.Replication.Sync

/-!
# Delivery

In which order a `Sync` session sends journal entries.
-/

namespace Laredo.Replication

open Laredo.Fanout Transition State List Option Journal

variable {P V : Type}

def Pc.pending : Pc P V → List (JournalEntry P V)
  | .sendCatchUp pending => pending
  | .sendLive pending _ => pending
  | _ => []

def Pc.cursor : Pc P V → Option Int
  | .live lastSeqSent => some lastSeqSent
  | .sendLive _ lastSeqSent => some lastSeqSent
  | _ => none

def Pc.reading : Pc P V → Bool
  | .sendCatchUp _ | .readHead | .live _ | .sendLive _ _ | .closed => true
  | _ => false

def Session.reached (ss : Session P V) : Int :=
  (ss.visited.getLast?.map (·.sequence)).getD ss.resumeSeq

structure Session.InOrder (call : Call P V) (ss : Session P V) : Prop where
  run : Consec (ss.resumeSeq + 1) ((ss.visited ++ ss.pc.pending).map (·.sequence))
  cursor : ∀ seq, ss.pc.cursor = some seq → seq = ss.resumeSeq + ss.visited.length
  fresh : ss.pc.reading = false → ss.visited = []
  sent : ss.sent = ss.visited.filter call.matchEntry

namespace Session.InOrder

variable {call : Call P V} {t : Target P V} {ss : Session P V}

lemma of_fresh (hpnd : ss.pc.pending = []) (hcrs : ss.pc.cursor = none)
    (hvis : ss.visited = []) (hsent : ss.sent = []) : ss.InOrder call where
  run := by simp [hvis, hpnd]
  cursor := by simp [hcrs]
  fresh := fun _ => hvis
  sent := by simp [hvis, hsent]

lemma visited_run (h : ss.InOrder call) :
    Consec (ss.resumeSeq + 1) (ss.visited.map (·.sequence)) := by
  have hrun := h.run
  rw [map_append, Consec.append_iff] at hrun
  exact hrun.1

lemma reached_eq (h : ss.InOrder call) : ss.reached = ss.resumeSeq + ss.visited.length := by
  have hlast := h.visited_run.getLast_getD
  rw [getLast?_map, length_map, Int.add_sub_cancel] at hlast
  exact hlast

lemma sent_run (h : ss.InOrder call) (hflt : call.filter = none) :
    Consec (ss.resumeSeq + 1) (ss.sent.map (·.sequence)) := by
  have hall : ss.visited.filter call.matchEntry = ss.visited :=
    filter_eq_self.mpr fun e _ => by simp [Call.matchEntry, hflt]
  rw [h.sent, hall]
  exact h.visited_run

variable {pc : Pc P V}

lemma visit (h : ss.InOrder call) {e : JournalEntry P V} {pending : List (JournalEntry P V)}
    (hpnd : ss.pc.pending = e :: pending) (hpc : pc.pending = pending)
    (hreading : pc.reading = true) (hcrs : ∀ seq, pc.cursor = some seq → seq = e.sequence) :
    ({ ss.visit call e with pc := pc } : Session P V).InOrder call where
  run := by
    have hrun := h.run
    rw [hpnd] at hrun
    simpa [Session.visit, hpc] using hrun
  cursor := by
    intro seq hseq
    have hrun := h.run
    rw [hpnd, map_append, Consec.append_iff, length_map] at hrun
    have he : e.sequence = ss.resumeSeq + 1 + ss.visited.length := hrun.2.1
    rw [hcrs seq hseq, he]
    simp only [Session.visit, length_append, length_singleton]
    omega
  fresh := fun hfr => absurd hfr (by simp [hreading])
  sent := by
    simp only [Session.visit, filter_append, ← h.sent]
    cases hmatch : call.matchEntry e <;> simp [hmatch]

lemma move (h : ss.InOrder call) (hpnd : pc.pending = []) (hpc : pc.reading = true)
    (hcrs : ∀ seq, pc.cursor = some seq → seq = ss.resumeSeq + ss.visited.length) :
    ({ ss with pc := pc } : Session P V).InOrder call where
  run := by
    rw [hpnd, append_nil]
    exact h.visited_run
  cursor := hcrs
  fresh := fun hfr => absurd hfr (by simp [hpc])
  sent := h.sent

lemma read (h : ss.InOrder call) {after : Int}
    (haft : after = ss.resumeSeq + ss.visited.length) (hret : t.j.Retains after)
    (hpnd : pc.pending = t.j.entriesSince after) (hpc : pc.reading = true)
    (hcrs : ∀ seq, pc.cursor = some seq → seq = after) :
    ({ ss with pc := pc } : Session P V).InOrder call where
  run := by
    rw [hpnd, map_append, Consec.append_iff, length_map]
    refine ⟨h.visited_run, ?_⟩
    have hrun := entriesSince_consec hret
    rwa [haft, Int.add_right_comm, ← haft] at hrun
  cursor := fun seq hseq => (hcrs seq hseq).trans haft
  fresh := fun hfr => absurd hfr (by simp [hpc])
  sent := h.sent

end Session.InOrder

/-- What the session relies on when it reads the journal: nothing past its cursor was
pruned, and the head it goes live from is where it got to. -/
structure ReadsCover (s : State P V) : Prop where
  catchUp : s.session.pc = .catchUp → s.target.j.Retains s.session.resumeSeq
  head : s.session.pc = .readHead → s.target.j.currentSequence = s.session.reached
  poll : ∀ seq, s.session.pc = .live seq → s.target.j.Retains seq

variable {call : Call P V} {t t' : Target P V} {ss ss' : Session P V}

lemma SessionStep.inOrder (hs : SessionStep call t ss t' ss') (hin : ss.InOrder call)
    (hcover : ReadsCover ⟨t, ss⟩) : ss'.InOrder call := by
  -- a step that leaves the mode selection's part of the program has nothing to keep
  have hfr : ∀ pc : Pc P V, ss.pc = pc → pc.reading = false → ss.visited = [] ∧ ss.sent = [] := by
    intro pc hpc hreading
    have hv := hin.fresh (hpc ▸ hreading)
    exact ⟨hv, by simp [hin.sent, hv]⟩
  have hshake : ∀ pc : Pc P V, ss.pc = pc → pc.reading = false → ∀ oldest current choice,
      (ss.shakeHands oldest current choice).InOrder call := by
    intro pc hpc hreading oldest current choice
    obtain ⟨hv, hsent⟩ := hfr pc hpc hreading
    obtain ⟨mode, seq, id⟩ := choice
    cases mode <;> exact .of_fresh rfl rfl hv hsent
  cases hs with
  | readOldest h | readCurrent h | positionMissed h _ | coldUnavailable h | takeSnapshot h _
  | pinJournal h => exact .of_fresh rfl rfl (hfr _ h rfl).1 (hfr _ h rfl).2
  | positionCovered h _ | coldPlanned h _ _ _ | selectMode h => exact hshake _ h rfl _ _ _
  | catchUp h =>
    have hv := (hfr _ h rfl).1
    exact hin.read (by simp [hv]) (hcover.catchUp h) rfl rfl (by simp [Pc.cursor])
  | sendCatchUp h => exact hin.visit (by rw [h]; rfl) rfl rfl (by simp [Pc.cursor])
  | caughtUp h => exact hin.move rfl rfl (by simp [Pc.cursor])
  | readHead h =>
    refine hin.move rfl rfl fun seq hseq => ?_
    rw [← hin.reached_eq, ← hcover.head h]
    exact (some.inj hseq).symm
  | poll h =>
    exact hin.read (hin.cursor _ (by rw [h]; rfl)) (hcover.poll _ h) rfl rfl
      fun seq hseq => (some.inj hseq).symm
  | sendLive h =>
    exact hin.visit (by rw [h]; rfl) rfl rfl fun seq hseq => (some.inj hseq).symm
  | polled h =>
    refine hin.move rfl rfl fun seq hseq => ?_
    rw [← some.inj hseq]
    exact hin.cursor _ (by rw [h]; rfl)

lemma init_inOrder (call : Call P V) (cfg : Config) (cols : List ColumnDefinition) :
    (init cfg cols : State P V).session.InOrder call :=
  .of_fresh rfl rfl rfl rfl

def Pc.seqs : Pc P V → List Int
  | .readCurrent oldestSeq => [oldestSeq]
  | .resolvePosition oldestSeq _ => [oldestSeq]
  | .planCold oldestSeq _ => [oldestSeq]
  | .selectMode oldestSeq _ => [oldestSeq]
  | .pinJournal seq => [seq]
  | _ => []

structure Session.Nonneg (ss : Session P V) : Prop where
  resume : 0 ≤ ss.resumeSeq
  held : ∀ seq ∈ ss.pc.seqs, 0 ≤ seq

lemma Session.Nonneg.shakeHands {choice : SyncMode × Int × String}
    (h : 0 ≤ choice.2.1) (oldestSeq currentSeq : Int) :
    (ss.shakeHands oldestSeq currentSeq choice).Nonneg := by
  obtain ⟨mode, seq, id⟩ := choice
  refine ⟨h, ?_⟩
  intro held hhl
  cases mode with
  | replayArchive =>
    obtain rfl : held = seq := by simpa [Session.shakeHands, SyncMode.next, Pc.seqs] using hhl
    exact h
  | _ => simp [Session.shakeHands, SyncMode.next, Pc.seqs] at hhl

lemma Call.positionResume_nonneg {j : Journal P V} {seq : Int}
    (h : call.positionResume j = some seq) : 0 ≤ seq := by
  obtain ⟨_, _, _, _, _, hseq⟩ := Call.positionResume_inv h
  exact resumeSeqForPosition_nonneg hseq

lemma Call.selectMode_nonneg (call : Call P V) {oldestSeq : Int} (h : 0 ≤ oldestSeq)
    (snaps : List (Snapshot V)) : 0 ≤ (call.selectMode oldestSeq snaps).2.1 := by
  rcases call.selectMode_cases oldestSeq snaps with
    ⟨hpos, -, heq⟩ | ⟨snap, -, -, -, hsnap, heq⟩ | heq
  · rw [heq]
    exact Int.le_of_lt hpos
  · rw [heq]
    exact Int.le_trans h hsnap
  · simp only [heq, Int.le_refl]

lemma SessionStep.nonneg (hs : SessionStep call t ss t' ss') (hn : ss.Nonneg) : ss'.Nonneg := by
  have hhl : ∀ pc : Pc P V, ss.pc = pc → ∀ seq ∈ pc.seqs, 0 ≤ seq := fun pc hpc => hpc ▸ hn.held
  cases hs with
  | readOldest h => exact ⟨hn.resume, by simpa [Pc.seqs] using t.j.oldestSequence_nonneg⟩
  | readCurrent h => exact ⟨hn.resume, hhl (.readCurrent _) h⟩
  | positionCovered h hseq => exact .shakeHands (Call.positionResume_nonneg hseq) _ _
  | positionMissed h _ => exact ⟨hn.resume, hhl (.resolvePosition _ _) h⟩
  | coldPlanned h _ _ hseq => exact .shakeHands (resumeSeqForPosition_nonneg hseq) _ _
  | coldUnavailable h => exact ⟨hn.resume, hhl (.planCold _ _) h⟩
  | selectMode h => exact .shakeHands (call.selectMode_nonneg (hhl _ h _ (by simp [Pc.seqs])) _) _ _
  | takeSnapshot h _ =>
    refine ⟨hn.resume, fun seq hseq => ?_⟩
    rw [mem_singleton.mp hseq]
    exact t.j.currentSequence_nonneg
  | pinJournal h => exact ⟨hhl _ h _ (by simp [Pc.seqs]), by simp [Pc.seqs]⟩
  | _ => exact ⟨hn.resume, by simp [Pc.seqs]⟩

lemma SessionStep.unpruned
    (hs : SessionStep call t ss t' ss') (hu : t.j.Unpruned) : t'.j.Unpruned := by
  cases hs with
  | pinJournal h => exact ⟨hu.size, hu.age, hu.first⟩
  | _ => exact hu

/-- When the session reads the head to go live from, the latest sequence number is
where the session has got to: nothing was appended since its catch-up read, and the
journal has reached its resume sequence. -/
def HeadUnmoved (s : State P V) (a : Act P V) : Prop :=
  a = .session → s.session.pc = .readHead → s.target.j.currentSequence = s.session.reached

lemma ReadsCover.of_unpruned {s : State P V} (hu : s.target.j.Unpruned)
    (hn : s.session.Nonneg) (hin : s.session.InOrder call)
    (hhead : HeadUnmoved s .session) : ReadsCover s where
  catchUp := fun _ => hu.retains hn.resume
  head := hhead rfl
  poll := by
    intro seq hpc
    have hseq := hin.cursor seq (by rw [hpc]; rfl)
    have hrsm := hn.resume
    exact hu.retains (by omega)

section Runs

variable [GoValue V] {call : Call P V} {s s' : State P V} {a : Act P V}

lemma Step.inOrder (hs : Step call s a s') (hin : s.session.InOrder call)
    (hcover : a = .session → ReadsCover s) : s'.session.InOrder call := by
  cases hs with
  | session hstep => exact hstep.inOrder hin (hcover rfl)
  | close => exact hin.move rfl rfl (by simp [Pc.cursor])
  | engine _ => exact hin
  | restoreSnapshot => exact hin
  | schemaChange _ => exact hin
  | pin => exact hin
  | unpin => exact hin
  | snapshot _ => exact hin

def ReadsCoverGuard (s : State P V) (a : Act P V) : Prop := a = .session → ReadsCover s

/-- **Entries go out without a gap as long as every read is covered**: nothing past the cursor was
pruned, and the session goes live from the entry it has reached. -/
theorem session_never_jumps_while_reads_cover (call : Call P V) (cfg : Config)
    (columns : List ColumnDefinition) {s : State P V}
    (hreach : Reach (Step call) ReadsCoverGuard (init cfg columns) s) :
    Consec (s.session.resumeSeq + 1) (s.session.visited.map (·.sequence)) ∧
      s.session.sent = s.session.visited.filter call.matchEntry ∧
      (call.filter = none →
        Consec (s.session.resumeSeq + 1) (s.session.sent.map (·.sequence))) := by
  have hin : s.session.InOrder call := by
    refine hreach.invariant (fun s => s.session.InOrder call) (init_inOrder call cfg columns) ?_
    intro t t' a hin hok hstep
    exact hstep.inOrder hin hok
  exact ⟨hin.visited_run, hin.sent, hin.sent_run⟩

def clientAtOne : Call Int Text := ⟨"replica-1", 1, "", "", none, none⟩

def insertRow (id : String) : Op Int Text := .onInsert (.ofList [("id", some id)])

lemma step_insertRow (call : Call Int Text) (s : State Int Text)
    (id : String) (hpins : s.target.j.pins.toList = []) :
    Step call s (.engine (insertRow id))
      { s with target := (insertRow id).apply s.target ⟨0, 0, []⟩ } :=
  .engine (by simp [PinsOf, hpins])

/-- A journal of two entries and a client that is not polled for three appends: it has
been sent sequence 2, and the next entry on its stream is sequence 4. -/
theorem delta_session_jumps_over_pruned_entry : ∃ s : State Int Text, Run (Step clientAtOne)
        (init { maxJournalEntries := 2, maxJournalAge := 0 } [⟨"id", true, 1⟩]) s ∧
      s.session.handshake.map (·.mode) = some .delta ∧ s.session.pc ≠ .closed ∧
      s.session.sent.map (·.sequence) = [2, 4] := by
  have h : Run (Step clientAtOne)
      (init { maxJournalEntries := 2, maxJournalAge := 0 } [⟨"id", true, 1⟩]) _ := .refl _
  have h := h.snoc (step_insertRow _ _ "1" rfl)
  have h := h.snoc (.session (.readOldest rfl))
  have h := h.snoc (.session (.readCurrent rfl))
  have h := h.snoc (.session (.positionMissed rfl rfl))
  have h := h.snoc (.session (.coldUnavailable rfl))
  have h := h.snoc (.session (.selectMode rfl))
  have h := h.snoc (.session (.catchUp rfl))
  have h := h.snoc (.session (.caughtUp rfl))
  have h := h.snoc (.session (.readHead rfl))
  have h := h.snoc (step_insertRow _ _ "2" rfl)
  have h := h.snoc (.session (.poll rfl))
  have h := h.snoc (.session (.sendLive rfl))
  have h := h.snoc (.session (.polled rfl))
  -- sequences 3 to 5 arrive before the next poll, and 3 is pruned again
  have h := h.snoc (step_insertRow _ _ "3" rfl)
  have h := h.snoc (step_insertRow _ _ "4" rfl)
  have h := h.snoc (step_insertRow _ _ "5" rfl)
  have h := h.snoc (.session (.poll rfl))
  have h := h.snoc (.session (.sendLive rfl))
  exact ⟨_, h, by decide, nofun, by decide⟩

theorem delta_session_polled_in_time : ∃ s : State Int Text,
      s.session.handshake.map (·.mode) = some .delta ∧
      s.session.sent.map (·.sequence) = [2] ∧
      Consec (s.session.resumeSeq + 1) (s.session.visited.map (·.sequence)) ∧
      s.session.sent = s.session.visited.filter clientAtOne.matchEntry ∧
      (clientAtOne.filter = none →
        Consec (s.session.resumeSeq + 1) (s.session.sent.map (·.sequence))) := by
  have h : Reach (Step clientAtOne) ReadsCoverGuard
      (init { maxJournalEntries := 2, maxJournalAge := 0 } [⟨"id", true, 1⟩]) _ := .refl _
  have h := h.snoc (step_insertRow _ _ "1" rfl)
  have h := h.snoc (.session (.readOldest rfl)) fun _ => ⟨nofun, nofun, nofun⟩
  have h := h.snoc (.session (.readCurrent rfl)) fun _ => ⟨nofun, nofun, nofun⟩
  have h := h.snoc (.session (.positionMissed rfl rfl)) fun _ => ⟨nofun, nofun, nofun⟩
  have h := h.snoc (.session (.coldUnavailable rfl)) fun _ => ⟨nofun, nofun, nofun⟩
  have h := h.snoc (.session (.selectMode rfl)) fun _ => ⟨nofun, nofun, nofun⟩
  have h := h.snoc (.session (.catchUp rfl)) fun _ => ⟨fun _ => by decide, nofun, nofun⟩
  have h := h.snoc (.session (.caughtUp rfl)) fun _ => ⟨nofun, nofun, nofun⟩
  have h := h.snoc (.session (.readHead rfl)) fun _ => ⟨nofun, fun _ => by decide, nofun⟩
  have h := h.snoc (step_insertRow _ _ "2" rfl)
  have h := h.snoc (.session (.poll rfl))
    fun _ => ⟨nofun, nofun, fun seq hseq => by cases hseq; decide⟩
  have h := h.snoc (.session (.sendLive rfl)) fun _ => ⟨nofun, nofun, nofun⟩
  exact ⟨_, by decide, by decide, session_never_jumps_while_reads_cover clientAtOne _ _ h⟩

lemma unpruned_apply {t : Target P V} (hu : t.j.Unpruned) (env : AppendEnv) (op : Op P V) :
    (op.apply t env).j.Unpruned := by
  cases op with
  | onBaselineComplete => exact hu.backfillNilPositions _
  | setChangePosition position => exact hu
  | _ => exact hu.append _ _ _ _ _

lemma Step.unpruned
    (hs : Step call s a s') (hu : s.target.j.Unpruned) : s'.target.j.Unpruned := by
  cases hs with
  | engine _ => exact unpruned_apply hu _ _
  | schemaChange _ => exact hu.append _ _ _ _ _
  | session hstep => exact hstep.unpruned hu
  | close =>
    by_cases hp : s.session.pinned
    · simpa [hp] using (⟨hu.size, hu.age, hu.first⟩ :
        (s.target.unpinJournal call.clientID).j.Unpruned)
    · simpa [hp] using hu
  | pin | unpin => exact ⟨hu.size, hu.age, hu.first⟩
  | restoreSnapshot => exact hu
  | snapshot _ => exact hu

lemma Step.nonneg (hs : Step call s a s') (hn : s.session.Nonneg) : s'.session.Nonneg := by
  cases hs with
  | session hstep => exact hstep.nonneg hn
  | close => exact ⟨hn.resume, by simp [Pc.seqs]⟩
  | _ => exact hn

/-- **From catch-up to live without a gap.** With pruning disabled and no filter, in
every run in which the head does not move between the session's catch-up read and its
read of the head, the entries sent are numbered `r + 1, r + 2, …`. -/
theorem session_sends_consecutive_entries (call : Call P V) (hfilter : call.filter = none)
    (cfg : Config) (hsize : cfg.maxJournalEntries ≤ 0) (hage : cfg.maxJournalAge ≤ 0)
    (columns : List ColumnDefinition) {s : State P V}
    (hreach : Reach (Step call) HeadUnmoved (init cfg columns) s) :
    Consec (s.session.resumeSeq + 1) (s.session.sent.map (·.sequence)) := by
  have hinv : s.target.j.Unpruned ∧ s.session.Nonneg ∧ s.session.InOrder call := by
    refine hreach.invariant
      (fun s => s.target.j.Unpruned ∧ s.session.Nonneg ∧ s.session.InOrder call) ?_ ?_
    · exact ⟨.newJournal hsize hage, ⟨Int.le_refl 0, by simp [init, Pc.seqs]⟩,
        init_inOrder call cfg columns⟩
    · rintro t t' a ⟨hu, hn, hin⟩ hok hstep
      refine ⟨hstep.unpruned hu, hstep.nonneg hn, hstep.inOrder hin ?_⟩
      rintro rfl
      exact .of_unpruned hu hn hin hok
  exact hinv.2.2.sent_run hfilter

/-- An insert between the catch-up read and the read of the head is never sent: the
client resumed after sequence 1 and the first entry on its stream is sequence 3. -/
theorem session_skips_entry_before_head_read : ∃ s : State Int Text, Run (Step clientAtOne)
        (init { maxJournalEntries := 0, maxJournalAge := 0 } [⟨"id", true, 1⟩]) s ∧
      s.session.resumeSeq = 1 ∧ s.session.sent.map (·.sequence) = [3] := by
  have h : Run (Step clientAtOne)
      (init { maxJournalEntries := 0, maxJournalAge := 0 } [⟨"id", true, 1⟩]) _ := .refl _
  have h := h.snoc (step_insertRow _ _ "1" rfl)
  have h := h.snoc (.session (.readOldest rfl))
  have h := h.snoc (.session (.readCurrent rfl))
  have h := h.snoc (.session (.positionMissed rfl rfl))
  have h := h.snoc (.session (.coldUnavailable rfl))
  have h := h.snoc (.session (.selectMode rfl))
  have h := h.snoc (.session (.catchUp rfl))
  have h := h.snoc (.session (.caughtUp rfl))
  -- sequence 2 is appended here; the head read below takes it for sent
  have h := h.snoc (step_insertRow _ _ "2" rfl)
  have h := h.snoc (.session (.readHead rfl))
  have h := h.snoc (step_insertRow _ _ "3" rfl)
  have h := h.snoc (.session (.poll rfl))
  have h := h.snoc (.session (.sendLive rfl))
  exact ⟨_, h, by decide, by decide⟩

theorem session_quiet_handoff : ∃ s : State Int Text,
      s.session.resumeSeq = 1 ∧ s.session.sent.map (·.sequence) = [2, 3] ∧
      Consec (s.session.resumeSeq + 1) (s.session.sent.map (·.sequence)) := by
  have h : Reach (Step clientAtOne) HeadUnmoved
      (init { maxJournalEntries := 0, maxJournalAge := 0 } [⟨"id", true, 1⟩]) _ := .refl _
  have h := h.snoc (step_insertRow _ _ "1" rfl)
  have h := h.snoc (.session (.readOldest rfl)) fun _ => nofun
  have h := h.snoc (.session (.readCurrent rfl)) fun _ => nofun
  have h := h.snoc (.session (.positionMissed rfl rfl)) fun _ => nofun
  have h := h.snoc (.session (.coldUnavailable rfl)) fun _ => nofun
  have h := h.snoc (.session (.selectMode rfl)) fun _ => nofun
  have h := h.snoc (step_insertRow _ _ "2" rfl)
  have h := h.snoc (.session (.catchUp rfl)) fun _ => nofun
  have h := h.snoc (.session (.sendCatchUp rfl)) fun _ => nofun
  have h := h.snoc (.session (.caughtUp rfl)) fun _ => nofun
  have h := h.snoc (.session (.readHead rfl)) fun _ _ => by decide
  have h := h.snoc (step_insertRow _ _ "3" rfl)
  have h := h.snoc (.session (.poll rfl)) fun _ => nofun
  have h := h.snoc (.session (.sendLive rfl)) fun _ => nofun
  exact ⟨_, by decide, by decide,
    session_sends_consecutive_entries clientAtOne rfl _ (by decide) (by decide) _ h⟩

end Runs

end Laredo.Replication
