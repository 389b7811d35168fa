import Laredo.Fanout.Failover
import Laredo.Replication.Delivery
import Laredo.Replication.ColdReplay

/-!
# Cold handoff

From the archive to the journal: a session that replays an archive, while the engine goes on
applying the changes of the source's table to the target.
-/

namespace Laredo.Replication

open Fanout Snapshotter Journal List Option Function

variable {B P V : Type} [GoValue V] {cols : List ColumnDefinition}

structure Remembers (src : SourceTable P V (buildKey cols)) (t : Target P V) (c : P)
    (history : Int → Store V) : Prop where
  describes : Describes src t c
  now : history t.j.currentSequence = t.store
  recorded : ∀ e ∈ t.j.entries, history e.sequence = applyEntry cols (history (e.sequence - 1)) e
  reachesBack : ∀ p, src.order.Le p c → t.j.ReachesBack src.order c p →
    history (t.j.currentSequence - (newerThan src.order p t.j.entries).length) = src.tableAt p

section

variable {src : SourceTable P V (buildKey cols)} {t t' : Target P V} {c : P}
variable {history : Int → Store V}

lemma Remembers.of_same (h : Remembers src t c history) (hcols : t'.cols = t.cols)
    (hst : t'.store = t.store) (hes : t'.j.entries = t.j.entries)
    (hnext : t'.j.nextSeq = t.j.nextSeq) : Remembers src t' c history := by
  have hcur : t'.j.currentSequence = t.j.currentSequence := by
    simp only [currentSequence, hnext]
  have hback : ∀ p, t'.j.ReachesBack src.order c p → t.j.ReachesBack src.order c p :=
    fun p hp => ⟨fun hnil => hp.empty (hes.trans hnil),
      fun e es hcons => hp.oldest e es (hes.trans hcons)⟩
  refine ⟨⟨hcols.trans h.describes.cols_eq, hst.trans h.describes.store, ⟨?_, ?_⟩, ?_⟩, ?_, ?_, ?_⟩
  · rw [hes]
    exact h.describes.stamped.upto
  · rw [hes]
    exact h.describes.stamped.sorted
  · intro p hp hp'
    rw [hes, hst]
    exact h.describes.replay p hp (hback p hp')
  · rw [hcur, hst]
    exact h.now
  · rw [hes]
    exact h.recorded
  · intro p hp hp'
    rw [hcur, hes]
    exact h.reachesBack p hp (hback p hp')

lemma Remembers.resume (h : Remembers src t c history) {p : P} (hp : src.order.Le p c)
    (hemp : t.j.entries = [] → src.order.Le c p) {seq : Int}
    (hcov : t.j.resumeSeqForPosition (some p) src.order.comparePositions = (seq, true)) :
    history seq = src.tableAt p := by
  have hstm := h.describes.stamped
  have hback : t.j.ReachesBack src.order c p := by
    refine ⟨hemp, fun e es hcons hnewer => ?_⟩
    -- a front newer than `p` is reported as not covered
    obtain ⟨q, hq, -⟩ := hstm.upto e (by simp [hcons])
    have hlt := (src.order.swap p q).mp (hnewer q hq)
    rw [resumeSeqForPosition_cons hcons, if_pos ⟨by simp [hq], by
      rw [hq, src.order.comparePositions_some]; exact hlt⟩] at hcov
    cases hcov
  rw [← h.reachesBack p hp hback]
  congr 1
  by_cases hne : t.j.entries = []
  · rw [resumeSeqForPosition_nil hne] at hcov
    obtain ⟨rfl⟩ := Prod.mk.inj hcov
    simp [newerThan, hne]
  · -- the entries past `seq` are those newer than `p`
    obtain ⟨hlow, hhigh⟩ := resumeSeqForPosition_bounds hcov
    rw [← hstm.entriesSince_resume hne hcov, length_entriesSince (by
      unfold Retains; omega) hhigh]
    omega

def takeDown (history : Int → Store V) (t : Target P V) : Int → Store V :=
  Function.update history t.j.currentSequence t.store

omit [GoValue V] in
lemma takeDown_now (history : Int → Store V) (t : Target P V) :
    takeDown history t t.j.currentSequence = t.store :=
  update_self _ _ _

omit [GoValue V] in
lemma takeDown_before {n : Int} (hn : n < t.j.currentSequence) :
    takeDown history t n = history n :=
  update_of_ne (Int.ne_of_lt hn) _ _

lemma Remembers.recorded_append (h : Remembers src t c history) {env : AppendEnv}
    {act : ChangeAction} {old new : Option (Row V)} {pos : Option P}
    (hj : t'.j = t.j.append env act old new pos)
    (hcur : t'.j.currentSequence = t.j.currentSequence + 1)
    (hent : ∀ seq stamp, t'.store = applyEntry cols t.store ⟨seq, stamp, act, old, new, pos⟩) :
    ∀ e ∈ t'.j.entries, takeDown history t' e.sequence =
        applyEntry cols (takeDown history t' (e.sequence - 1)) e := by
  intro e he
  obtain ⟨k, -, hdrop⟩ := t.j.entries_append env act old new pos
  rw [hj, hdrop] at he
  have hmem := mem_of_mem_drop he
  rw [push, mem_append, mem_singleton] at hmem
  rcases hmem with hold | rfl
  · have hbd := (mem_bounds hold).2
    have hlt : e.sequence < t'.j.currentSequence := by
      unfold currentSequence at hcur ⊢
      omega
    rw [takeDown_before hlt, takeDown_before (by omega)]
    exact h.recorded e hold
  · have hseq : t.j.nextSeq = t'.j.currentSequence := by
      rw [hcur]
      unfold currentSequence
      omega
    have hbef : takeDown history t' (t'.j.currentSequence - 1) = t.store := by
      rw [takeDown_before (by omega), hcur, Int.add_sub_cancel]
      exact h.now
    rw [hseq, takeDown_now, hbef]
    exact hent _ _

variable {ch : P × TableChange V}

lemma Remembers.reachesBack_append (h : Remembers src t c history)
    (hnext : src.IsNext c ch) {env : AppendEnv} {act : ChangeAction} {old new : Option (Row V)}
    (hj : t'.j = t.j.append env act old new (some ch.1))
    (hcur : t'.j.currentSequence = t.j.currentSequence + 1) (hdesc : Describes src t' ch.1)
    {p : P} (hp : src.order.Le p ch.1) (hback : t'.j.ReachesBack src.order ch.1 p) :
    takeDown history t' (t'.j.currentSequence - (newerThan src.order p t'.j.entries).length) =
      src.tableAt p := by
  by_cases hlt : src.order.Lt p ch.1
  · rw [hj] at hback
    obtain ⟨hnewer, hback'⟩ := h.describes.newerThan_append hnext.after hlt hback
    have hlen : t'.j.currentSequence - (newerThan src.order p t'.j.entries).length =
        t.j.currentSequence - (newerThan src.order p t.j.entries).length := by
      rw [hj, hnewer, ← hj, hcur, length_append, length_singleton]
      omega
    rw [hlen, takeDown_before (by omega)]
    by_cases hpc : src.order.Le p c
    · exact h.reachesBack p hpc hback'
    · -- between the last change and this one the table stays as it is
      have hcp := Comparator.not_le.mp hpc
      rw [h.describes.stamped.newerThan_nil hcp.le, length_nil, Int.natCast_zero, Int.sub_zero,
        h.now, h.describes.store]
      exact (hnext.tableAt_between hcp.le hlt).symm
  · have hle := Comparator.not_lt.mp hlt
    rw [hdesc.stamped.newerThan_nil hle, length_nil, Int.natCast_zero, Int.sub_zero,
      takeDown_now, hdesc.store]
    exact SourceTable.tableAt_eq_of_le hle hp

lemma Remembers.change (h : Remembers src t c history)
    (hnext : src.IsNext c ch) (hkeep : ch.2.KeepsKey (buildKey cols)) (env : AppendEnv)
    (ht : t' = (changeOp ch.2).apply (t.setChangePosition (some ch.1)) env) :
    Remembers src t' ch.1 (takeDown history t') ∧
      t'.j.currentSequence = t.j.currentSequence + 1 := by
  have hdesc := h.describes.change hnext hkeep env
  rw [← ht] at hdesc
  have hkd : (t.setChangePosition (some ch.1)).Keyed := by
    unfold Target.Keyed Target.setChangePosition
    rw [h.describes.cols_eq, h.describes.store]
    exact src.keyed_tableAt c
  obtain ⟨action, old, new, hj, -, hent⟩ := changeOp_record hkd env ch.2
  rw [← ht] at hj hent
  have hj' : t'.j = t.j.append env action old new (some ch.1) := hj
  have hcur : t'.j.currentSequence = t.j.currentSequence + 1 := by
    simp only [currentSequence, hj', nextSeq_append]
    omega
  refine ⟨⟨hdesc, takeDown_now history t', h.recorded_append hj' hcur fun seq stamp => ?_,
    fun p hp hback => h.reachesBack_append hnext hj' hcur hdesc hp hback⟩, hcur⟩
  rw [hent seq stamp]
  exact congrArg (fun cols' => applyEntry cols' t.store _) h.describes.cols_eq

lemma Remembers.restored (cfg : Config) {rows : List (Row V)}
    (hrows : Target.Iterates rows (src.tableAt c)) :
    Remembers src (((Target.new cfg).onInit cols).restoreSnapshot rows : Target P V) c
      fun _ => src.tableAt c := by
  have hst := KeyedMap.load_values (src.keyed_tableAt _) hrows
  refine ⟨Describes.of_filled rfl hst nofun, hst.symm, nofun, ?_⟩
  intro p hp hback
  exact SourceTable.tableAt_eq_of_le (hback.empty rfl) hp

lemma replayEntries_recorded {es : List (JournalEntry P V)} {seq : Int}
    (hrun : Consec (seq + 1) (es.map (·.sequence)))
    (hrec : ∀ e ∈ es, history e.sequence = applyEntry cols (history (e.sequence - 1)) e) :
    replayEntries cols (history seq) es = history (seq + es.length) := by
  induction es generalizing seq with
  | nil => simp [replayEntries]
  | cons e es ih =>
    have hseq : e.sequence = seq + 1 := hrun.1
    have he := hrec e mem_cons_self
    rw [hseq, Int.add_sub_cancel] at he
    show replayEntries cols (applyEntry cols (history seq) e) es = _
    rw [← he, ih hrun.2 fun e' he' => hrec e' (mem_cons_of_mem _ he')]
    congr 1
    simp only [length_cons, Int.natCast_add, Int.natCast_one]
    omega

end

structure Handoff (P V : Type) where
  target : Target P V
  session : Session P V
  applied : P
  history : Int → Store V
  cold : Option (ColdReplay V)

inductive Move (P V : Type)
  | change (c : P × TableChange V)
  | plan
  | other (a : Act P V)

def Act.leavesRows : Act P V → Bool
  | .pin _ _ | .unpin _ | .snapshot | .session | .close => true
  | .engine _ | .restoreSnapshot _ | .schemaChange _ => false

inductive HandoffStep (src : SourceTable P V (buildKey cols)) (call : Call P V)
    (archive : Option (Archive B V)) (s : Handoff P V) : Move P V → Handoff P V → Prop
  | change {c : P × TableChange V} {e : AppendEnv} {t : Target P V}
      (henv : PinsOf s.target e) (hnext : src.IsNext s.applied c)
      (ht : t = (changeOp c.2).apply (s.target.setChangePosition (some c.1)) e) :
      HandoffStep src call archive s (.change c)
        { s with target := t, applied := c.1, history := takeDown s.history t }
  | plan {n : Nat} {oldestSeq currentSeq : Int} {positions : SourcePositions P}
      {r : ColdReplay V} (hpc : s.session.pc = .planCold oldestSeq currentSeq)
      (hsrc : call.src = some positions) (hpos : call.lastKnownSourcePosition ≠ "")
      (hr : planColdReplay n archive s.target.j positions call.lastKnownSourcePosition =
        some (some r)) :
      HandoffStep src call archive s .plan
        { s with
          session := s.session.shakeHands oldestSeq currentSeq (.replayArchive, r.resumeSeq, "")
          cold := some r }
  | other {a : Act P V} {t : Target P V} {ss : Session P V}
      (hs : Step call ⟨s.target, s.session⟩ a ⟨t, ss⟩) (ha : a.leavesRows = true)
      (hplan : ∀ oldestSeq currentSeq, a = .session →
        s.session.pc = .planCold oldestSeq currentSeq → ss.pc = .selectMode oldestSeq currentSeq) :
      HandoffStep src call archive s (.other a) { s with target := t, session := ss }

/-- Updates keep their keys. When the session plans, the head of the plan is a position that the
target has applied (with an empty journal: the last one). When it reads the journal, nothing
past its cursor was pruned, and the head it goes live from is where it got to. -/
def Bridged (src : SourceTable P V (buildKey cols)) (call : Call P V)
    (archive : Option (Archive B V)) (s : Handoff P V) : Move P V → Prop
  | .change c => c.2.KeepsKey (buildKey cols)
  | .plan => ∀ a fuel plan positions head, archive = some a → call.src = some positions →
      a.plan fuel positions call.lastKnownSourcePosition = some (some plan) →
      positions.positionFromString plan.headPosition = some head →
      ∃ p, head = some p ∧ src.order.Le p s.applied ∧
        (s.target.j.entries = [] → src.order.Le s.applied p)
  | .other a => a = .session → ReadsCover ⟨s.target, s.session⟩

def Pc.Following (seq : Int) : Pc P V → Prop
  | .readOldest | .readCurrent _ | .resolvePosition _ _ | .planCold _ _ | .selectMode _ _
  | .takeSnapshot => False
  | .pinJournal n => n = seq
  | _ => True

structure Recalled (cols : List ColumnDefinition) (history : Int → Store V) (current : Int)
    (e : JournalEntry P V) : Prop where
  past : e.sequence ≤ current
  effect : history e.sequence = applyEntry cols (history (e.sequence - 1)) e

structure Handoff.Inv (src : SourceTable P V (buildKey cols)) (call : Call P V)
    (tableAt : String → Store V) (s : Handoff P V) : Prop where
  remembers : Remembers src s.target s.applied s.history
  inOrder : s.session.InOrder call
  read : ∀ e ∈ s.session.visited ++ s.session.pc.pending,
    Recalled cols s.history s.target.j.currentSequence e
  cold : ∀ cr, s.cold = some cr → s.session.resumeSeq = cr.resumeSeq ∧
    s.session.pc.Following cr.resumeSeq ∧ cr.resumeSeq ≤ s.target.j.currentSequence ∧
    s.history cr.resumeSeq = cr.apply cols (tableAt call.lastKnownSourcePosition)

section

variable {src : SourceTable P V (buildKey cols)} {call : Call P V}

variable {t t' : Target P V} {ss ss' : Session P V}

omit [GoValue V] in
lemma SessionStep.target_same (hs : SessionStep call t ss t' ss') :
    t'.cols = t.cols ∧ t'.store = t.store ∧ t'.j.entries = t.j.entries ∧
      t'.j.nextSeq = t.j.nextSeq := by
  cases hs <;> exact ⟨rfl, rfl, rfl, rfl⟩

variable {s s' : State P V} {a : Act P V}

lemma Step.target_same (hs : Step call s a s') (ha : a.leavesRows = true) :
    s'.target.cols = s.target.cols ∧ s'.target.store = s.target.store ∧
      s'.target.j.entries = s.target.j.entries ∧ s'.target.j.nextSeq = s.target.j.nextSeq := by
  cases hs with
  | engine _ => cases ha
  | restoreSnapshot => cases ha
  | schemaChange _ => cases ha
  | pin | unpin | snapshot _ => exact ⟨rfl, rfl, rfl, rfl⟩
  | session hstep => exact hstep.target_same
  | close =>
    split <;> exact ⟨rfl, rfl, rfl, rfl⟩

variable {e : JournalEntry P V}

omit [GoValue V] in
lemma SessionStep.reads (hs : SessionStep call t ss t' ss')
    (he : e ∈ ss'.visited ++ ss'.pc.pending) :
    e ∈ ss.visited ++ ss.pc.pending ∨ e ∈ t.j.entries := by
  have hkeep : e ∈ ss.visited ++ [] → e ∈ ss.visited ++ ss.pc.pending := fun h => by
    rw [append_nil] at h
    exact mem_append_left _ h
  have hvisit : ∀ {d : JournalEntry P V} {pending : List (JournalEntry P V)},
      ss.pc.pending = d :: pending → e ∈ (ss.visited ++ [d]) ++ pending →
      e ∈ ss.visited ++ ss.pc.pending := fun hpc h => by
    rw [hpc]
    simpa using h
  cases hs with
  | positionCovered _ _ | coldPlanned _ _ _ _ => exact .inl (hkeep he)
  | selectMode _ =>
    refine .inl (hkeep ?_)
    generalize call.selectMode _ t.snapshots = choice at he
    obtain ⟨mode, seq, id⟩ := choice
    cases mode <;> exact he
  | catchUp _ | poll _ =>
    rcases mem_append.mp he with hold | hread
    · exact .inl (mem_append_left _ hold)
    · exact .inr (mem_entriesSince.mp hread).1
  | sendCatchUp h | sendLive h => exact .inl (hvisit (by rw [h]; rfl) he)
  | _ => exact .inl (hkeep he)

lemma Step.reads (hs : Step call s a s') (he : e ∈ s'.session.visited ++ s'.session.pc.pending) :
    e ∈ s.session.visited ++ s.session.pc.pending ∨ e ∈ s.target.j.entries := by
  cases hs with
  | session hstep => exact hstep.reads he
  | close =>
    have hvis : e ∈ s.session.visited ++ [] := he
    rw [append_nil] at hvis
    exact .inl (mem_append_left _ hvis)
  | _ => exact .inl he

omit [GoValue V] in
lemma SessionStep.following
    (hs : SessionStep call t ss t' ss') {seq : Int} (hseq : ss.resumeSeq = seq)
    (hpc : ss.pc.Following seq) : ss'.resumeSeq = seq ∧ ss'.pc.Following seq := by
  have hat : ∀ pc : Pc P V, ss.pc = pc → pc.Following seq := fun pc heq => heq ▸ hpc
  cases hs with
  | readOldest h | readCurrent h | positionCovered h _ | positionMissed h _ | coldPlanned h _ _ _
  | coldUnavailable h | selectMode h | takeSnapshot h _ => exact (hat _ h).elim
  | pinJournal h => exact ⟨hat _ h, trivial⟩
  | _ => exact ⟨hseq, trivial⟩

lemma Step.following (hs : Step call s a s') {seq : Int}
    (hseq : s.session.resumeSeq = seq) (hpc : s.session.pc.Following seq) :
    s'.session.resumeSeq = seq ∧ s'.session.pc.Following seq := by
  cases hs with
  | session hstep => exact hstep.following hseq hpc
  | close => exact ⟨hseq, trivial⟩
  | _ => exact ⟨hseq, hpc⟩

variable {archive : Option (Archive B V)} {tableAt : String → Store V} {s s' : Handoff P V}

variable {history : Int → Store V}

lemma Recalled.takeDown {cur : Int} (h : Recalled cols history cur e)
    (hcur : t.j.currentSequence = cur + 1) :
    Recalled cols (takeDown history t) t.j.currentSequence e := by
  have hpast := h.past
  refine ⟨by omega, ?_⟩
  unfold Replication.takeDown
  rw [update_of_ne (by omega), update_of_ne (by omega)]
  exact h.effect

lemma Remembers.recalled {c : P} (h : Remembers src t c history) (he : e ∈ t.j.entries) :
    Recalled cols history t.j.currentSequence e := by
  have hbd := (mem_bounds he).2
  refine ⟨?_, h.recorded e he⟩
  unfold currentSequence
  omega

lemma HandoffStep.inv {a : Move P V} (hs : HandoffStep src call archive s a s')
    (h : s.Inv src call tableAt) (hok : Bridged src call archive s a)
    (horder : ∀ positions, call.src = some positions → positions.order = src.order)
    (htab : ∀ positions, call.src = some positions → ∀ q p,
      positions.positionFromString q = some (some p) → tableAt q = src.tableAt p)
    (hhld : ∀ a, archive = some a → a.Holds cols tableAt) : s'.Inv src call tableAt := by
  cases hs with
  | @change c env t henv hnext ht =>
    obtain ⟨hreme, hcur⟩ := h.remembers.change hnext hok env ht
    refine ⟨hreme, h.inOrder, fun e he => (h.read e he).takeDown hcur, ?_⟩
    intro cr hcr
    obtain ⟨hseq, hpc, hle, happly⟩ := h.cold cr hcr
    refine ⟨hseq, hpc, ?_, ?_⟩
    · show cr.resumeSeq ≤ t.j.currentSequence
      omega
    · exact (update_of_ne (by omega) _ _).trans happly
  | @plan fuel oldestSeq currentSeq positions cr hpc hsrc hpos hcr =>
    obtain ⟨arch, plan, head, seq, harchive, hplan, hhead, hseq, hmat⟩ := planColdReplay_inv hcr
    obtain ⟨p, rfl, hle, hemp⟩ := hok arch fuel plan positions head harchive hsrc hplan hhead
    have hrsm := (Archive.materialize_inv hmat).1
    rw [horder positions hsrc] at hseq
    have hstep : SessionStep call s.target s.session s.target
        (s.session.shakeHands oldestSeq currentSeq (.replayArchive, cr.resumeSeq, "")) :=
      .coldPlanned hpc hsrc hpos (by rw [hrsm, horder positions hsrc]; exact hseq)
    refine ⟨h.remembers, ?_, ?_, ?_⟩
    · exact hstep.inOrder h.inOrder
        ⟨fun hpc' => (by simp [hpc] at hpc'), fun hpc' => (by simp [hpc] at hpc'),
          fun seq hpc' => (by simp [hpc] at hpc')⟩
    · intro e he
      rcases hstep.reads he with hold | hread
      · exact h.read e hold
      · exact h.remembers.recalled hread
    · intro cr' hcr'
      obtain rfl : cr = cr' := some.inj hcr'
      refine ⟨rfl, rfl, ?_, ?_⟩
      · rw [hrsm]
        exact (resumeSeqForPosition_bounds hseq).2
      · rw [hrsm, h.remembers.resume hle hemp hseq, (hhld arch harchive).materialize hplan hmat]
        exact (htab positions hsrc _ p hhead).symm
  | @other act t ss hstep hact hplan =>
    obtain ⟨hcols, hst, hes, hnext⟩ := hstep.target_same hact
    have hcur : t.j.currentSequence = s.target.j.currentSequence := congrArg (· - 1) hnext
    refine ⟨h.remembers.of_same hcols hst hes hnext, hstep.inOrder h.inOrder hok, ?_, ?_⟩
    · intro e he
      rw [hcur]
      exact (hstep.reads he).elim (h.read e) h.remembers.recalled
    · intro cr hcr
      obtain ⟨hseq, hpc, hle, happly⟩ := h.cold cr hcr
      obtain ⟨hseq', hpc'⟩ := hstep.following hseq hpc
      refine ⟨hseq', hpc', ?_, happly⟩
      show cr.resumeSeq ≤ t.j.currentSequence
      omega

/-- **From the archive to the journal without a gap.** In every run whose steps are `Bridged`, the
entries sent are numbered from the resume sequence on, and the replay followed by them gives the
store that the target had at the sequence number reached. -/
theorem cold_replay_hands_off_gapless {t₀ : Target P V} {c₀ : P} {history₀ : Int → Store V}
    (hstart : Remembers src t₀ c₀ history₀) (hfilter : call.filter = none)
    (horder : ∀ positions, call.src = some positions → positions.order = src.order)
    (htable : ∀ positions, call.src = some positions → ∀ q p,
      positions.positionFromString q = some (some p) → tableAt q = src.tableAt p)
    (hholds : ∀ a, archive = some a → a.Holds cols tableAt)
    (hreach : Transition.Reach (HandoffStep src call archive) (Bridged src call archive)
      ⟨t₀, {}, c₀, history₀, none⟩ s)
    {cr : ColdReplay V} (hcold : s.cold = some cr) :
    Consec (cr.resumeSeq + 1) (s.session.sent.map (·.sequence)) ∧
      s.session.reached = cr.resumeSeq + s.session.sent.length ∧
      replayEntries cols (cr.apply cols (tableAt call.lastKnownSourcePosition)) s.session.sent =
        s.history s.session.reached := by
  have hinv : s.Inv src call tableAt := by
    refine hreach.invariant (Handoff.Inv src call tableAt) ?_ ?_
    · exact ⟨hstart, .of_fresh rfl rfl rfl rfl, nofun, nofun⟩
    · intro s₁ s₂ a h hok hs
      exact hs.inv h hok horder htable hholds
  obtain ⟨hseq, -, -, happly⟩ := hinv.cold cr hcold
  have hsent : s.session.sent = s.session.visited := by
    rw [hinv.inOrder.sent]
    exact filter_eq_self.mpr fun e _ => by simp [Call.matchEntry, hfilter]
  have hrun := hinv.inOrder.visited_run
  have hrd := hinv.inOrder.reached_eq
  rw [hseq] at hrun hrd
  rw [hsent, hrd, ← happly]
  refine ⟨hrun, rfl, replayEntries_recorded hrun fun e he => ?_⟩
  exact (hinv.read e (mem_append_left _ he)).effect

end

def fiveInserts : SourceTable Int Text (buildKey [⟨"id", true, 1⟩]) where
  order := .ofInt
  initial := ∅
  keyed := KeyedMap.Keyed.empty
  changes := [(10, .insert (rowWithId "1")), (20, .insert (rowWithId "2")),
    (30, .insert (rowWithId "3")), (40, .insert (rowWithId "4")), (50, .insert (rowWithId "5"))]
  increasing := by decide

def snapshotAtTwenty : Artifact := ⟨.snapshot, 1, none, "20", ["plain"]⟩

def archiveAtTwenty : Archive (Payload Text) Text where
  reader := plainReader
  destination :=
    { objects := (∅ : Std.ExtTreeMap String (Payload Text)).insert
        (artifactObjectKey plainReader.keyPrefix snapshotAtTwenty ".plain")
        (.rows [rowWithId "1", rowWithId "2"])
      manifest := some ⟨1, 1, "20", [snapshotAtTwenty]⟩
      rev := 1 }

def fewPositions : SourcePositions Int where
  positionFromString q := if q = "5" then some (some 5)
    else if q = "20" then some (some 20) else none
  order := .ofInt

def clientAtFive : Call Int Text := ⟨"replica-1", 0, "", "5", some fewPositions, none⟩

def twoRows (resumeSeq : Int) : ColdReplay Text :=
  ⟨some ("archive-1", [rowWithId "1", rowWithId "2"]), [], resumeSeq⟩

def emptyTarget (maxJournalEntries : Int) : Target Int Text :=
  ((Target.new { maxJournalEntries := maxJournalEntries, maxJournalAge := 0 }).onInit
    [⟨"id", true, 1⟩]).restoreSnapshot []

def handoffStart (maxJournalEntries : Int) : Handoff Int Text :=
  ⟨emptyTarget maxJournalEntries, {}, 0, fun _ => fiveInserts.tableAt 0, none⟩

/-- The session is to resume after the change at 20. One change comes before it pins the journal,
and one after; the journal drops the change at 30 although it lies past the pin. -/
theorem pinned_journal_drops_entry : ∃ s : Handoff Int Text,
      Transition.Run (HandoffStep fiveInserts clientAtFive (some archiveAtTwenty))
        (handoffStart 2) s ∧
      s.cold = some (twoRows 2) ∧ s.target.j.pins["replica-1"]? = some 2 ∧
      s.session.sent.map (·.sequence) = [4] ∧
      (replayEntries [⟨"id", true, 1⟩] ((twoRows 2).apply [⟨"id", true, 1⟩] ∅)
        s.session.sent)["3"]? = none ∧
      (s.history s.session.reached)["3"]? = some (rowWithId "3") := by
  have h : Transition.Run (HandoffStep fiveInserts clientAtFive (some archiveAtTwenty))
      (handoffStart 2) _ := .refl _
  have h := h
    |>.snoc (.change (c := (10, _)) (e := ⟨0, 0, _⟩) (.refl _)
      ⟨mem_cons_self, by decide, by decide⟩ rfl)
    |>.snoc (.change (c := (20, _)) (e := ⟨0, 0, _⟩) (.refl _)
      ⟨mem_cons_of_mem _ mem_cons_self, by decide, by decide⟩ rfl)
    |>.snoc (.change (c := (30, .insert (rowWithId "3"))) (e := ⟨0, 0, _⟩)
      (.refl _) ⟨by simp [fiveInserts], by decide, by decide⟩ rfl)
    |>.snoc (.other (.session (.readOldest rfl)) rfl nofun)
    |>.snoc (.other (.session (.readCurrent rfl)) rfl nofun)
    |>.snoc (.other (.session (.positionMissed rfl rfl)) rfl nofun)
    |>.snoc (.plan (n := 2) (r := twoRows 2) rfl rfl (by decide) rfl)
    |>.snoc (.change (c := (40, .insert (rowWithId "4"))) (e := ⟨0, 0, _⟩)
      (.refl _) ⟨by simp [fiveInserts], by decide, by decide⟩ rfl)
    |>.snoc (.other (.session (.pinJournal rfl)) rfl nofun)
    |>.snoc (.change (c := (50, .insert (rowWithId "5"))) (e := ⟨0, 0, _⟩)
      (.refl _) ⟨by simp [fiveInserts], by decide, by decide⟩ rfl)
    |>.snoc (.other (.session (.catchUp rfl)) rfl nofun)
    |>.snoc (.other (.session (.sendCatchUp rfl)) rfl nofun)
  exact ⟨_, h, rfl, rfl, rfl, rfl, rfl⟩

def tableAtString (q : String) : Store Text :=
  match fewPositions.positionFromString q with
  | some (some p) => fiveInserts.tableAt p
  | _ => ∅

lemma archiveAtTwenty_holds : archiveAtTwenty.Holds [⟨"id", true, 1⟩] tableAtString := by
  refine ⟨?_, ?_, ?_⟩
  · intro m hm art hart hkind rows hrows
    cases hm
    obtain rfl := mem_singleton.mp hart
    cases hrows
    rfl
  · intro m hm art hart start hfrom
    cases hm
    obtain rfl := mem_singleton.mp hart
    exact nomatch hfrom.1
  · intro m hm art hart hkind
    cases hm
    obtain rfl := mem_singleton.mp hart
    cases hkind

lemma archiveAtTwenty_head {fuel : Nat} {plan : ReplayPlan}
    (h : archiveAtTwenty.plan fuel fewPositions "5" = some (some plan)) :
    fewPositions.positionFromString plan.headPosition = some (some 20) := by
  cases fuel with
  | zero => cases h
  | succ fuel =>
    cases h
    rfl

theorem cold_replay_hands_off_in_time :
    ∃ s : Handoff Int Text, s.cold = some (twoRows 2) ∧
      s.session.sent.map (·.sequence) = [3, 4, 5] ∧
      replayEntries [⟨"id", true, 1⟩]
          ((twoRows 2).apply [⟨"id", true, 1⟩] (tableAtString "5")) s.session.sent =
        s.history s.session.reached := by
  have h : Transition.Reach (HandoffStep fiveInserts clientAtFive (some archiveAtTwenty))
      (Bridged fiveInserts clientAtFive (some archiveAtTwenty)) (handoffStart 3) _ := .refl _
  have h := h
    |>.snoc (.change (c := (10, _)) (e := ⟨0, 0, _⟩) (.refl _)
      ⟨mem_cons_self, by decide, by decide⟩ rfl)
    |>.snoc (.change (c := (20, _)) (e := ⟨0, 0, _⟩) (.refl _)
      ⟨mem_cons_of_mem _ mem_cons_self, by decide, by decide⟩ rfl)
    |>.snoc (.change (c := (30, .insert (rowWithId "3"))) (e := ⟨0, 0, _⟩)
      (.refl _) ⟨List.Mem.tail _ (.tail _ (.head _)), by decide, by decide⟩ rfl)
    |>.snoc (.other (.session (.readOldest rfl)) rfl nofun)
      (by exact fun _ => ⟨nofun, nofun, nofun⟩)
    |>.snoc (.other (.session (.readCurrent rfl)) rfl nofun)
      (by exact fun _ => ⟨nofun, nofun, nofun⟩)
    |>.snoc (.other (.session (.positionMissed rfl rfl)) rfl nofun)
      (by exact fun _ => ⟨nofun, nofun, nofun⟩)
    |>.snoc (.plan (n := 2) (r := twoRows 2) rfl rfl (by decide) rfl) (by
      intro a fuel plan positions head ha hsrc hplan hhead
      cases ha
      cases hsrc
      rw [archiveAtTwenty_head hplan] at hhead
      exact ⟨20, (some.inj hhead).symm, by decide, nofun⟩)
    |>.snoc (.change (c := (40, .insert (rowWithId "4"))) (e := ⟨0, 0, _⟩)
      (.refl _) ⟨List.Mem.tail _ (.tail _ (.tail _ (.head _))), by decide, by decide⟩ rfl)
    |>.snoc (.other (.session (.pinJournal rfl)) rfl nofun)
      (by exact fun _ => ⟨nofun, nofun, nofun⟩)
    |>.snoc (.change (c := (50, .insert (rowWithId "5"))) (e := ⟨0, 0, _⟩)
      (.refl _) ⟨List.Mem.tail _ (.tail _ (.tail _ (.tail _ (.head _)))), by decide, by decide⟩ rfl)
    |>.snoc (.other (.session (.catchUp rfl)) rfl nofun)
      (by exact fun _ => ⟨fun _ => by decide, nofun, nofun⟩)
    |>.snoc (.other (.session (.sendCatchUp rfl)) rfl nofun)
      (by exact fun _ => ⟨nofun, nofun, nofun⟩)
    |>.snoc (.other (.session (.sendCatchUp rfl)) rfl nofun)
      (by exact fun _ => ⟨nofun, nofun, nofun⟩)
    |>.snoc (.other (.session (.sendCatchUp rfl)) rfl nofun)
      (by exact fun _ => ⟨nofun, nofun, nofun⟩)
  have horder : ∀ positions, clientAtFive.src = some positions →
      positions.order = fiveInserts.order := by
    intro positions hsrc
    cases hsrc
    rfl
  have htab : ∀ positions, clientAtFive.src = some positions → ∀ q p,
      positions.positionFromString q = some (some p) → tableAtString q = fiveInserts.tableAt p := by
    intro positions hsrc q p hq
    cases hsrc
    simp only [tableAtString, hq]
  have hhld : ∀ a, some archiveAtTwenty = some a → a.Holds [⟨"id", true, 1⟩] tableAtString := by
    intro a ha
    cases ha
    exact archiveAtTwenty_holds
  have hall := cold_replay_hands_off_gapless (Remembers.restored _ (by decide)) rfl horder htab
    hhld h rfl
  exact ⟨_, rfl, rfl, hall.2.2⟩

end Laredo.Replication
