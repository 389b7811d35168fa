import Laredo.Client.Delivered

/-!
# Reconnect

What a replica holds after any number of broken streams.
-/

namespace Laredo

open Replication Fanout Session Target List Option

variable {P V : Type} [GoValue V]

namespace Link

structure Steady (w : Wire P V) (s : Link P V) (l : Label P V) : Prop where
  rows : ∀ op, l = .server (.engine op) → ∀ row ∈ op.rows, w.Carries row
  restore : ∀ rows, l ≠ .server (.restoreSnapshot rows)
  schema : ∀ columns, l ≠ .server (.schemaChange columns)
  position : l = .server .session → ∀ oldestSeq currentSeq,
    s.session.pc = .resolvePosition oldestSeq currentSeq →
    ∀ src pos, s.call.src = some src → s.call.lastKnownSourcePosition ≠ "" →
      src.positionFromString s.call.lastKnownSourcePosition = some pos →
      ∀ e ∈ s.target.j.entries, Journal.AtOrBefore src.order.comparePositions pos e ↔
          e.sequence ≤ s.call.lastKnownSequence
  snapshot : l = .server .session → ∀ oldestSeq currentSeq,
    s.session.pc = .selectMode oldestSeq currentSeq → s.replica.loading = true →
      ∀ snap ∈ s.target.snapshots, snap.id ≠ s.call.lastSnapshotId
  head : l = .server .session → s.session.pc = .readHead →
    s.target.j.currentSequence = s.session.reached

/-- Before the handshake nothing is in flight, and the request is what the client
holds. -/
structure Selecting (w : Wire P V) (s : Link P V) : Prop where
  quiet : s.inflight = []
  fresh : s.session.handshake = none
  request : s.call = w.call (s.replica.client.dial s.call.clientID false)

def arrived (s : Link P V) : Replica V := s.replica.run s.inflight

def Phase (w : Wire P V) (columns : List ColumnDefinition) (s : Link P V) : Prop :=
  match s.session.pc with
  | .readOldest => s.Selecting w
  | .readCurrent oldestSeq | .resolvePosition oldestSeq _ => s.Selecting w ∧ oldestSeq ≤ 1
  | .planCold oldestSeq _ | .selectMode oldestSeq _ =>
      s.Selecting w ∧ oldestSeq ≤ 1 ∧
        (s.call.src = none ∨ s.call.lastKnownSourcePosition = "")
  | .takeSnapshot => s.arrived.client.lastSeq = 0
  | .pinJournal seq =>
      s.arrived.client.lastSeq = 0 ∧ ∃ snap, s.snap = some snap ∧ snap.sequence = seq ∧
        Captured w s.history s.target.j.currentSequence snap
  | .closed => s.inflight = []
  | pc =>
      s.arrived.loading = false ∧ s.arrived.client.lastSeq = s.session.reached ∧
        ∀ e ∈ pc.pending, Recorded w columns s.history s.target.j.currentSequence e

structure Inv (w : Wire P V) (columns : List ColumnDefinition) (s : Link P V) : Prop where
  serves : Serves w columns s.history s.target
  delivers : Delivers w s.history s.target.j.currentSequence s.replica s.inflight
  filter : s.call.filter = none
  src : s.call.src = w.src
  nonneg : s.session.Nonneg
  inOrder : s.session.InOrder s.call
  phase : s.Phase w columns

variable {w : Wire P V} {columns : List ColumnDefinition} {s : Link P V}

lemma Inv.fine (h : s.Inv w columns) : Fine w s.history s.target.j.currentSequence s.replica :=
  h.delivers.head

lemma Inv.positionResume (h : s.Inv w columns) (hsel : s.Selecting w)
    (hne : s.call.lastKnownSourcePosition ≠ "")
    (hspl : ∀ src pos, s.call.src = some src → s.call.lastKnownSourcePosition ≠ "" →
      src.positionFromString s.call.lastKnownSourcePosition = some pos →
      ∀ e ∈ s.target.j.entries, Journal.AtOrBefore src.order.comparePositions pos e ↔
          e.sequence ≤ s.call.lastKnownSequence) :
    s.call.positionResume s.target.j = some s.replica.client.lastSeq ∧
      s.replica.loading = false := by
  have hpos : s.call.lastKnownSourcePosition = s.replica.client.lastSourcePosition := by
    rw [hsel.request]; rfl
  have hseq : s.call.lastKnownSequence = s.replica.client.lastSeq := by rw [hsel.request]; rfl
  obtain ⟨hone, src, p, hwsrc, hprint⟩ := h.fine.position (hpos ▸ hne)
  have hcallsrc := h.src.trans hwsrc
  obtain ⟨pos, hprs⟩ := isSome_iff_exists.mp (w.parses src p hwsrc)
  rw [← hprint, ← hpos] at hprs
  have hrsm := Journal.resumeSeqForPosition_of_split h.serves.unpruned hone h.fine.le
    (hseq ▸ hspl src pos hcallsrc hne hprs)
  refine ⟨?_, ?_⟩
  · simp only [Call.positionResume, hcallsrc, if_neg hne, hprs, hrsm]
  · cases hl : s.replica.loading with
    | false => rfl
    | true => exact absurd (hpos.trans (h.fine.loading hl).2) hne

/-- What a session decides to do, in terms of what the client has: go on from there, or
send a snapshot to a client that has no sequence number. -/
def Suits (s : Link P V) (choice : SyncMode × Int × String) : Prop :=
  ((choice.1 = .delta ∨ choice.1 = .deltaFromSnapshot) ∧
      choice.2.1 = s.replica.client.lastSeq ∧ s.replica.loading = false) ∨
    (choice.1 = .fullSnapshot ∧ s.replica.client.lastSeq = 0)

lemma Inv.selectMode (h : s.Inv w columns) (hsel : s.Selecting w) {oldestSeq : Int}
    (hold : oldestSeq ≤ 1) (hlst : s.replica.loading = true →
      ∀ snap ∈ s.target.snapshots, snap.id ≠ s.call.lastSnapshotId) :
    s.Suits (s.call.selectMode oldestSeq s.target.snapshots) := by
  have hseq : s.call.lastKnownSequence = s.replica.client.lastSeq := by rw [hsel.request]; rfl
  have hid : s.call.lastSnapshotId = s.replica.client.lastSnapshotID := by rw [hsel.request]; rfl
  have hnn := h.fine.nonneg
  by_cases hzero : s.replica.client.lastSeq = 0
  · -- no sequence number: the snapshot id decides
    rcases s.call.selectMode_cases oldestSeq s.target.snapshots with
      ⟨hpos, -, -⟩ | ⟨snap, hsnap, heq, hne, -, hmode⟩ | hmode
    · omega
    · rw [hmode]
      have hld : s.replica.loading = false := by
        cases hl : s.replica.loading with
        | false => rfl
        | true => exact absurd heq (hlst hl snap hsnap)
      obtain ⟨hsnonneg, ms', hms'⟩ := h.serves.snapshots snap hsnap
      obtain ⟨ms, hms⟩ := h.fine.snapshot hld hzero (hid ▸ heq ▸ hne)
      rw [heq, hid, hms] at hms'
      have hsnapzero := snapshotID_inj hms' (Int.le_refl 0) hsnonneg
      exact .inl ⟨.inr rfl, by rw [hzero]; exact hsnapzero.symm, hld⟩
    · rw [hmode]
      exact .inr ⟨rfl, hzero⟩
  · have hld : s.replica.loading = false := by
      cases hl : s.replica.loading with
      | false => rfl
      | true => exact absurd (h.fine.loading hl).1 hzero
    have hmode : s.call.selectMode oldestSeq s.target.snapshots =
        (.delta, s.call.lastKnownSequence, "") := if_pos ⟨by omega, by omega⟩
    rw [hmode, hseq]
    exact .inl ⟨.inl rfl, rfl, hld⟩

variable {t : Target P V} {ss : Session P V}

lemma Inv.sends (h : s.Inv w columns)
    {msgs : List (SyncResponse V)} (hserves : Serves w columns s.history t)
    (hcur : t.j.currentSequence = s.target.j.currentSequence)
    (hdel : Delivers w s.history s.target.j.currentSequence s.arrived msgs)
    (hnn : ss.Nonneg) (hord : ss.InOrder s.call)
    (hph : Phase w columns { s with target := t, session := ss, inflight := s.inflight ++ msgs }) :
    Inv w columns { s with target := t, session := ss, inflight := s.inflight ++ msgs } where
  serves := hserves
  delivers := by
    rw [hcur]
    exact h.delivers.append hdel
  filter := h.filter
  src := h.src
  nonneg := hnn
  inOrder := hord
  phase := hph

lemma Inv.shakeHands (h : s.Inv w columns) (hsel : s.Selecting w)
    (hpc : s.session.pc.reading = false) {choice : SyncMode × Int × String}
    (hsuits : s.Suits choice) (oldestSeq currentSeq : Int) (cols : List ColumnDefinition)
    {shake : Handshake}
    (hnn : (s.session.shakeHands oldestSeq currentSeq choice).Nonneg)
    (hord : (s.session.shakeHands oldestSeq currentSeq choice).InOrder s.call) :
    Inv w columns { s with
        session := s.session.shakeHands oldestSeq currentSeq choice
        inflight := s.inflight ++ [.handshake shake cols] } := by
  have hquiet : s.arrived = s.replica := by
    unfold arrived
    rw [hsel.quiet]
    rfl
  refine h.sends h.serves rfl ?_ hnn hord ?_
  · rw [hquiet]
    exact ⟨h.fine, h.fine.congr rfl rfl rfl rfl rfl⟩
  · obtain ⟨mode, seq, id⟩ := choice
    have hvis := h.inOrder.fresh hpc
    -- both delta modes go on to the catch-up read, a snapshot is taken otherwise
    have hcaught : s.replica.loading = false → seq = s.replica.client.lastSeq →
        (s.replica.run (s.inflight ++ [.handshake shake cols])).loading = false ∧
          (s.replica.run (s.inflight ++ [.handshake shake cols])).client.lastSeq =
            (s.session.shakeHands oldestSeq currentSeq (mode, seq, id)).reached ∧
          ∀ e ∈ ([] : List (JournalEntry P V)),
            Recorded w columns s.history s.target.j.currentSequence e := by
      intro hld hseq
      refine ⟨?_, ?_, by simp⟩
      · rw [hsel.quiet]
        exact hld
      · rw [hsel.quiet, reached]
        show s.replica.client.lastSeq = (s.session.visited.getLast?.map (·.sequence)).getD seq
        rw [hvis, hseq]
        rfl
    rcases hsuits with ⟨rfl | rfl, hseq, hld⟩ | ⟨rfl, hzero⟩
    · exact hcaught hld hseq
    · exact hcaught hld hseq
    · show (s.replica.run (s.inflight ++ [.handshake shake cols])).client.lastSeq = 0
      rw [hsel.quiet]
      exact hzero

def CaughtUp (w : Wire P V) (columns : List ColumnDefinition) (s : Link P V) : Prop :=
  s.arrived.loading = false ∧ s.arrived.client.lastSeq = s.session.reached ∧
    ∀ e ∈ s.session.pc.pending, Recorded w columns s.history s.target.j.currentSequence e

lemma Inv.sendEntry (h : s.Inv w columns) (hid : KeyedById columns)
    (hcaught : s.CaughtUp w columns) {e : JournalEntry P V} {pending : List (JournalEntry P V)}
    (hpnd : s.session.pc.pending = e :: pending) {pc : Pc P V} (hpc : pc.pending = pending) :
    Delivers w s.history s.target.j.currentSequence s.arrived [.journalEntry (w.entry e)] ∧
      CaughtUp w columns { s with
          session := { s.session.visit s.call e with pc := pc }
          inflight := s.inflight ++ [.journalEntry (w.entry e)] } := by
  obtain ⟨hld, hseq, hreco⟩ := hcaught
  have he : Recorded w columns s.history s.target.j.currentSequence e := hreco e (by simp [hpnd])
  -- the session's entries are a run, so the next one follows what it has reached
  have hnext : e.sequence = s.arrived.client.lastSeq + 1 := by
    have hrun := h.inOrder.run
    rw [hpnd, map_append, Consec.append_iff, length_map] at hrun
    have hfst : e.sequence = s.session.resumeSeq + 1 + s.session.visited.length := hrun.2.1
    rw [hseq, h.inOrder.reached_eq]
    omega
  have hfine := h.delivers.fine_run
  refine ⟨⟨hfine, hfine.entry hid he hld hnext⟩, ?_, ?_, ?_⟩
  · show (s.replica.run (s.inflight ++ [.journalEntry (w.entry e)])).loading = false
    rw [Replica.run_append]
    exact hld
  · show (s.replica.run (s.inflight ++ [.journalEntry (w.entry e)])).client.lastSeq =
      ((s.session.visited ++ [e]).getLast?.map (·.sequence)).getD s.session.resumeSeq
    rw [Replica.run_append, getLast?_append_of_ne_nil _ (by simp)]
    exact Client.lastSeq_applyJournalEntry _ _
  · intro e' he'
    have hmem : e' ∈ pending := hpc ▸ he'
    exact hreco e' (by simp [hpnd, hmem])

lemma Inv.silent (h : s.Inv w columns) {env : SendEnv V}
    (hemits : s.session.emits w s.call s.target s.snap env ss = [])
    (hnn : ss.Nonneg) (hord : ss.InOrder s.call)
    (hph : Phase w columns { s with session := ss }) :
    Inv w columns { s with
        session := ss
        inflight := s.inflight ++ s.session.emits w s.call s.target s.snap env ss } := by
  rw [hemits]
  refine h.sends h.serves rfl h.delivers.fine_run hnn hord ?_
  rw [append_nil]
  exact hph

lemma Inv.session (h : s.Inv w columns) (hid : KeyedById columns)
    (hok : s.Steady w (.server .session)) (env : SendEnv V)
    (hs : SessionStep s.call s.target s.session t ss) (hpc : s.session.pc ≠ .takeSnapshot) :
    Inv w columns { s with
        target := t
        session := ss
        inflight := s.inflight ++ s.session.emits w s.call s.target s.snap env ss } := by
  have hnn := hs.nonneg h.nonneg
  have hord := hs.inOrder h.inOrder
    (ReadsCover.of_unpruned h.serves.unpruned h.nonneg h.inOrder fun _ => hok.head rfl)
  have hph := h.phase
  unfold Phase at hph
  have hmatch : ∀ e, s.call.matchEntry e = true := by
    intro e
    simp [Call.matchEntry, h.filter]
  have hread : ∀ after, ∀ e ∈ s.target.j.entriesSince after,
      Recorded w columns s.history s.target.j.currentSequence e := by
    intro after e he
    exact h.serves.entries e (Journal.mem_entriesSince.mp he).1
  cases hs with
  | readOldest hat =>
    rw [hat] at hph
    refine h.silent (by simp only [emits, hat]) hnn hord
      ⟨⟨hph.quiet, hph.fresh, hph.request⟩, ?_⟩
    exact h.serves.unpruned.first ▸ s.target.j.oldestSequence_le_firstSeq
  | readCurrent hat =>
    rw [hat] at hph
    obtain ⟨hsel, hold⟩ := hph
    exact h.silent (by simp only [emits, hat]) hnn hord
      ⟨⟨hsel.quiet, hsel.fresh, hsel.request⟩, hold⟩
  | positionCovered hat hseq =>
    rw [hat] at hph
    obtain ⟨src, pos, hsrc, hne, hprs, -⟩ := Call.positionResume_inv hseq
    obtain ⟨hrsm, hld⟩ := h.positionResume hph.1 hne (hok.position rfl _ _ hat)
    have hsuits := some.inj (hseq.symm.trans hrsm)
    simp only [emits, hat]
    exact h.shakeHands hph.1 (by rw [hat]; rfl) (.inl ⟨.inl rfl, hsuits, hld⟩) _ _ _ hnn hord
  | positionMissed hat hnone =>
    rw [hat] at hph
    obtain ⟨hsel, hold⟩ := hph
    refine h.silent (by simp only [emits, hat, hsel.fresh]) hnn hord
      ⟨⟨hsel.quiet, hsel.fresh, hsel.request⟩, hold, ?_⟩
    -- a position the client has would have been covered
    by_contra hboth
    have hne : s.call.lastKnownSourcePosition ≠ "" := fun heq => hboth (.inr heq)
    have hrsm := (h.positionResume hsel hne (hok.position rfl _ _ hat)).1
    rw [hnone] at hrsm
    cases hrsm
  | coldPlanned hat hsrc hne hseq =>
    rw [hat] at hph
    rcases hph.2.2 with hnone | hemp
    · rw [hsrc] at hnone
      cases hnone
    · exact absurd hemp hne
  | coldUnavailable hat =>
    rw [hat] at hph
    obtain ⟨hsel, hrest⟩ := hph
    exact h.silent (by simp only [emits, hat, hsel.fresh]) hnn hord
      ⟨⟨hsel.quiet, hsel.fresh, hsel.request⟩, hrest⟩
  | selectMode hat =>
    rw [hat] at hph
    obtain ⟨hsel, hold, -⟩ := hph
    have hsuits := h.selectMode hsel hold (hok.snapshot rfl _ _ hat)
    simp only [emits, hat]
    exact h.shakeHands hsel (by rw [hat]; rfl) hsuits _ _ _ hnn hord
  | takeSnapshot hat _ => exact absurd hat hpc
  | pinJournal hat =>
    rw [hat] at hph
    obtain ⟨hzero, snap, hsnap, hseq, hcapt⟩ := hph
    obtain ⟨hdel, hld, hlast⟩ := delivers_snapshot h.delivers.fine_run hzero h.filter hcapt
    have hvis : s.session.visited = [] := h.inOrder.fresh (by rw [hat]; rfl)
    have hemits : ∀ ss', s.session.emits w s.call s.target s.snap env ss' =
        w.snapshotMessages s.call snap := by
      intro ss'
      simp only [emits, hat, hsnap]
    rw [hemits]
    refine h.sends (h.serves.pin _ _) rfl hdel hnn hord ⟨?_, ?_, by simp [Pc.pending]⟩
    · rw [arrived, Replica.run_append]
      exact hld
    · rw [arrived, Replica.run_append, reached, hvis]
      exact hlast.trans hseq
  | catchUp hat | poll hat =>
    rw [hat] at hph
    exact h.silent (by simp only [emits, hat]) hnn hord ⟨hph.1, hph.2.1, hread _⟩
  | sendCatchUp hat =>
    have hcaught : s.CaughtUp w columns := by
      rw [hat] at hph
      exact ⟨hph.1, hph.2.1, by rw [hat]; exact hph.2.2⟩
    obtain ⟨hdel, hcaught'⟩ := h.sendEntry hid hcaught (by rw [hat]; rfl)
      (show (Pc.sendCatchUp _).pending = _ from rfl)
    simp only [emits, hat, hmatch, if_true]
    exact h.sends h.serves rfl hdel hnn hord hcaught'
  | caughtUp hat | readHead hat =>
    rw [hat] at hph
    exact h.silent (by simp only [emits, hat]) hnn hord hph
  | sendLive hat =>
    have hcaught : s.CaughtUp w columns := by
      rw [hat] at hph
      exact ⟨hph.1, hph.2.1, by rw [hat]; exact hph.2.2⟩
    obtain ⟨hdel, hcaught'⟩ := h.sendEntry hid hcaught (by rw [hat]; rfl)
      (show (Pc.sendLive _ _).pending = _ from rfl)
    simp only [emits, hat, hmatch, if_true]
    exact h.sends h.serves rfl hdel hnn hord hcaught'
  | polled hat =>
    rw [hat] at hph
    cases hbeat : env.heartbeat with
    | false => exact h.silent (by simp [emits, hat, hbeat]) hnn hord hph
    | true =>
      simp only [emits, hat, hbeat, if_true]
      have hfine := h.delivers.fine_run
      refine h.sends h.serves rfl ⟨hfine, hfine.congr rfl rfl rfl rfl rfl⟩ hnn hord ?_
      show (s.replica.run (s.inflight ++ [_])).loading = false ∧
        (s.replica.run (s.inflight ++ [_])).client.lastSeq = s.session.reached ∧ _
      rw [Replica.run_append]
      exact hph

lemma Phase.mono (hph : s.Phase w columns) (hgrows : Grows w columns s.history s.target t) :
    Phase w columns { s with target := t, history := note s.history t } := by
  unfold Phase at hph ⊢
  dsimp only
  have hsel : s.Selecting w →
      Selecting w { s with target := t, history := note s.history t } := fun h =>
    ⟨h.quiet, h.fresh, h.request⟩
  have hreco : ∀ pending : List (JournalEntry P V),
      (∀ e ∈ pending, Recorded w columns s.history s.target.j.currentSequence e) →
      ∀ e ∈ pending, Recorded w columns (note s.history t) t.j.currentSequence e :=
    fun pending h e he => (h e he).mono hgrows.le hgrows.agree
  cases hpc : s.session.pc with
  | readOldest => rw [hpc] at hph; exact hsel hph
  | readCurrent o | resolvePosition o c | planCold o c | selectMode o c =>
    rw [hpc] at hph; exact ⟨hsel hph.1, hph.2⟩
  | takeSnapshot | closed => rw [hpc] at hph; exact hph
  | pinJournal seq =>
    rw [hpc] at hph
    obtain ⟨hzero, snap, hsnap, hseq, hcapt⟩ := hph
    exact ⟨hzero, snap, hsnap, hseq, hcapt.mono hgrows.le hgrows.agree⟩
  | catchUp | readHead | live seq => rw [hpc] at hph; exact ⟨hph.1, hph.2.1, hreco _ hph.2.2⟩
  | sendCatchUp pending | sendLive pending seq =>
    rw [hpc] at hph
    exact ⟨hph.1, hph.2.1, hreco _ hph.2.2⟩

lemma Inv.server (h : s.Inv w columns) {a : Act P V} {s' : State P V}
    (hok : s.Steady w (.server a)) (hs : Replication.Step s.call ⟨s.target, s.session⟩ a s')
    (hses : a ≠ .session) (hclose : a ≠ .close) :
    Inv w columns { s with target := s'.target, history := note s.history s'.target } := by
  have hgrows : Grows w columns s.history s.target s'.target := by
    cases hs with
    | engine _ => exact h.serves.engine _ (hok.rows _ rfl)
    | restoreSnapshot => exact absurd rfl (hok.restore _)
    | schemaChange _ => exact absurd rfl (hok.schema _)
    | pin => exact h.serves.grows (h.serves.pin _ _) rfl rfl
    | unpin => exact h.serves.grows (h.serves.unpin _) rfl rfl
    | snapshot _ => exact h.serves.grows (h.serves.takeSnapshot _) rfl rfl
    | session _ => exact absurd rfl hses
    | close => exact absurd rfl hclose
  exact {
    serves := hgrows.serves
    delivers := h.delivers.mono hgrows.le hgrows.agree
    filter := h.filter
    src := h.src
    nonneg := h.nonneg
    inOrder := h.inOrder
    phase := h.phase.mono hgrows }

lemma Inv.takeSnapshot (h : s.Inv w columns) (hid : KeyedById columns) {env : SnapshotEnv V}
    (hpc : s.session.pc = .takeSnapshot) (hrows : Iterates env.rows s.target.store) :
    Inv w columns { s with
        target := (s.target.takeSnapshot env).2
        session := { s.session with pc := .pinJournal (s.target.takeSnapshot env).1.sequence }
        snap := some (s.target.takeSnapshot env).1 } := by
  have hs : SessionStep s.call s.target s.session (s.target.takeSnapshot env).2 _ :=
    .takeSnapshot hpc hrows
  have hph := h.phase
  unfold Phase at hph
  rw [hpc] at hph
  have hcover : ReadsCover ⟨s.target, s.session⟩ :=
    .of_unpruned h.serves.unpruned h.nonneg h.inOrder fun _ hat => by
      rw [show s.session.pc = .takeSnapshot from hpc] at hat
      cases hat
  exact {
    serves := h.serves.takeSnapshot env
    delivers := h.delivers
    filter := h.filter
    src := h.src
    nonneg := hs.nonneg h.nonneg
    inOrder := hs.inOrder h.inOrder hcover
    phase := ⟨hph, _, rfl, rfl, h.serves.captured hid hrows⟩ }

lemma Inv.receive (h : s.Inv w columns) {msg : SyncResponse V} {rest : List (SyncResponse V)}
    (hmsg : s.inflight = msg :: rest) :
    Inv w columns { s with inflight := rest, replica := s.replica.apply msg } := by
  have hdel := h.delivers
  rw [hmsg] at hdel
  have harrived : (s.replica.apply msg).run rest = s.arrived := by
    rw [arrived, hmsg, Replica.run_cons]
  have hsome : s.inflight ≠ [] := by simp [hmsg]
  refine ⟨h.serves, hdel.2, h.filter, h.src, h.nonneg, h.inOrder, ?_⟩
  have hph := h.phase
  unfold Phase at hph ⊢
  dsimp only
  unfold arrived at harrived hph ⊢
  dsimp only
  rw [harrived]
  cases hpc : s.session.pc with
  | readOldest => rw [hpc] at hph; exact absurd hph.quiet hsome
  | readCurrent o | resolvePosition o c | planCold o c | selectMode o c =>
    rw [hpc] at hph; exact absurd hph.1.quiet hsome
  | closed => rw [hpc] at hph; exact absurd hph hsome
  | _ => rw [hpc] at hph; exact hph

lemma Inv.cut (h : s.Inv w columns) : Inv w columns { s with
        target := if s.session.pinned then s.target.unpinJournal s.call.clientID else s.target
        session := { s.session with pc := .closed }
        inflight := [] } := by
  have hserves : Serves w columns s.history
      (if s.session.pinned then s.target.unpinJournal s.call.clientID else s.target) := by
    split
    · exact h.serves.unpin _
    · exact h.serves
  have hcur : (if s.session.pinned then s.target.unpinJournal s.call.clientID
      else s.target).j.currentSequence = s.target.j.currentSequence := by
    split <;> rfl
  refine ⟨hserves, ?_, h.filter, h.src, ⟨h.nonneg.resume, by simp [Pc.seqs]⟩,
    h.inOrder.move rfl rfl (by simp [Pc.cursor]), rfl⟩
  rw [hcur]
  exact h.fine

lemma Inv.connect (h : s.Inv w columns) (hpc : s.session.pc = .closed) : Inv w columns { s with
        call := w.call (s.replica.client.dial s.call.clientID false)
        session := {}
        snap := none } := by
  have hph := h.phase
  unfold Phase at hph
  rw [hpc] at hph
  exact ⟨h.serves, h.delivers, rfl, rfl, ⟨Int.le_refl 0, by simp [Pc.seqs]⟩,
    .of_fresh rfl rfl rfl rfl, ⟨hph, rfl, rfl⟩⟩

lemma Step.inv {s' : Link P V} {l : Label P V} (hs : Step w s l s') (hid : KeyedById columns)
    (hok : s.Steady w l) (h : s.Inv w columns) : s'.Inv w columns := by
  cases hs with
  | server hstep hses hclose => exact h.server hok hstep hses hclose
  | session env hstep hpc => exact h.session hid hok env hstep hpc
  | takeSnapshot env hpc hrows => exact h.takeSnapshot hid hpc hrows
  | receive hmsg => exact h.receive hmsg
  | cut => exact h.cut
  | connect hpc => exact h.connect hpc

lemma init_inv (w : Wire P V) {cfg : Config} (hsize : cfg.maxJournalEntries ≤ 0)
    (hage : cfg.maxJournalAge ≤ 0) {columns : List ColumnDefinition} {rst : List (Row V)}
    (hrst : ∀ row ∈ rst, w.Carries row) (cid : String)
    (indexes : List (String × List String)) :
    (init w cfg columns rst cid indexes : Link P V).Inv w columns := by
  have hkd : KeyedMap.Keyed (buildKey columns) (loadRows columns rst) :=
    KeyedMap.Keyed.empty.load rst
  refine ⟨⟨.newJournal hsize hage, rfl, hkd, ?_, rfl, by simp [init, new,
    onInit, restoreSnapshot, Journal.newJournal], by simp [init, new,
    onInit, restoreSnapshot]⟩, ?_, rfl, rfl, ⟨Int.le_refl 0, by simp [init, Pc.seqs]⟩,
    .of_fresh rfl rfl rfl rfl, rfl⟩
  · intro k row hrow
    rcases KeyedMap.getElem?_load (buildKey columns) ∅ rst k with
      ⟨x, hx, -, hload⟩ | ⟨-, hload⟩
    · have hget : (KeyedMap.load (buildKey columns) ∅ rst)[k]? = some row := hrow
      rw [hload] at hget
      exact some.inj hget ▸ hrst x hx
    · have hget : (KeyedMap.load (buildKey columns) ∅ rst)[k]? = some row := hrow
      rw [hload] at hget
      simp at hget
  · exact ⟨Int.le_refl 0, Int.le_refl 0, by rintro ⟨⟩, fun _ => ⟨rfl, rfl⟩,
      fun hne => absurd rfl hne, by rintro ⟨⟩⟩

/-- **Broken streams leave no wrong replica behind.** Outside of a snapshot the client's rows are
those of the target at the client's sequence number, and at the number up to which it has received
everything. -/
theorem reconnect_keeps_replica (w : Wire P V) (cfg : Config)
    (hsize : cfg.maxJournalEntries ≤ 0) (hage : cfg.maxJournalAge ≤ 0)
    (columns : List ColumnDefinition) (hid : KeyedById columns) (restored : List (Row V))
    (hrestored : ∀ row ∈ restored, w.Carries row) (clientID : String)
    (indexes : List (String × List String)) {s : Link P V}
    (hreach : Transition.Reach (Step w) (Steady w)
      (init w cfg columns restored clientID indexes) s) :
    (s.replica.loading = false → s.replica.client.store = s.history s.replica.client.lastSeq) ∧
    (s.session.pc.reading = true → s.session.pc ≠ .closed → s.inflight = [] →
      s.replica.client.store = s.history s.session.reached) := by
  have hinv : s.Inv w columns := by
    refine hreach.invariant (Inv w columns) (init_inv w hsize hage hrestored clientID indexes) ?_
    intro s₁ s₂ l h hok hs
    exact hs.inv hid hok h
  refine ⟨hinv.fine.rows, ?_⟩
  intro hreading hopen hquiet
  have hph := hinv.phase
  have hcaught : s.CaughtUp w columns := by
    unfold Phase at hph
    unfold CaughtUp
    cases hpc : s.session.pc with
    | closed => exact absurd hpc hopen
    | _ => first
        | (rw [hpc] at hph; exact hph)
        | (rw [hpc] at hreading; cases hreading)
  obtain ⟨hld, hseq, -⟩ := hcaught
  unfold arrived at hld hseq
  rw [hquiet] at hld hseq
  rw [← hseq]
  exact hinv.fine.rows hld

def plainWire : Wire Int Text where
  src := none
  positionToString := toString
  encode := some
  parses := nofun

def exampleStart : Link Int Text :=
  init plainWire { maxJournalEntries := 0, maxJournalAge := 0 } [⟨"id", true, 1⟩] [] "replica-1" []

lemma step_insertRow (s : Link Int Text) (id : String)
    (hpins : s.target.j.pins.toList = []) :
    Step plainWire s (.server (.engine (insertRow id))) { s with
        target := (insertRow id).apply s.target ⟨0, 0, []⟩
        history := note s.history ((insertRow id).apply s.target ⟨0, 0, []⟩) } :=
  .server (.engine (by simp [PinsOf, hpins])) nofun nofun

def noExtras : SendEnv Text := ⟨[], false⟩

/-- The stream breaks after the first of two snapshot rows. The client connects again with the id of
that snapshot, is given the entries after it, and holds row 1 only. -/
theorem cut_snapshot_resumed_as_whole : ∃ s : Link Int Text,
      Transition.Run (Step plainWire) exampleStart s ∧
      s.session.handshake.map (·.mode) = some .deltaFromSnapshot ∧
      s.session.pc.reading = true ∧ s.session.pc ≠ .closed ∧ s.inflight = [] ∧
      s.session.reached = 2 ∧ s.replica.client.store.keys = ["1"] ∧
      (s.history 2).keys = ["1", "2"] := by
  have h : Transition.Run (Step plainWire) exampleStart _ := .refl _
  have h := h
    |>.snoc (step_insertRow _ "1" rfl)
    |>.snoc (step_insertRow _ "2" rfl)
    |>.snoc (.connect rfl)
    |>.snoc (.session noExtras (.readOldest rfl) nofun)
    |>.snoc (.session noExtras (.readCurrent rfl) nofun)
    |>.snoc (.session noExtras (.positionMissed rfl rfl) nofun)
    |>.snoc (.session noExtras (.coldUnavailable rfl) nofun)
    |>.snoc (.session noExtras (.selectMode rfl) nofun)
    |>.snoc (.takeSnapshot ⟨0, 0, 0, [.ofList [("id", some "1")],
      .ofList [("id", some "2")]]⟩ rfl (by decide +kernel))
    |>.snoc (.session noExtras (.pinJournal rfl) nofun)
  -- the handshake, the beginning of the snapshot and its first row arrive
  have h := h
    |>.snoc (.receive rfl)
    |>.snoc (.receive rfl)
    |>.snoc (.receive rfl)
    |>.snoc .cut
    |>.snoc (.connect rfl)
    |>.snoc (.session noExtras (.readOldest rfl) nofun)
    |>.snoc (.session noExtras (.readCurrent rfl) nofun)
    |>.snoc (.session noExtras (.positionMissed rfl rfl) nofun)
    |>.snoc (.session noExtras (.coldUnavailable rfl) nofun)
    |>.snoc (.session noExtras (.selectMode rfl) nofun)
    |>.snoc (.receive rfl)
    |>.snoc (.session noExtras (.catchUp rfl) nofun)
    |>.snoc (.session noExtras (.caughtUp rfl) nofun)
    |>.snoc (.session noExtras (.readHead rfl) nofun)
  exact ⟨_, h, by decide +kernel, rfl, nofun, rfl, by decide +kernel, by decide +kernel,
    by decide +kernel⟩

lemma steady_insertRow (s : Link Int Text) (id : String) :
    s.Steady plainWire (.server (.engine (insertRow id))) := by
  refine ⟨?_, nofun, nofun, nofun, nofun, nofun⟩
  intro op hop row hrow
  cases hop
  obtain rfl := mem_singleton.mp hrow
  exact ⟨by simp, rfl⟩

lemma steady_session {s : Link Int Text} (hsrc : s.call.src = none)
    (hlst : ∀ o c, s.session.pc = .selectMode o c → s.replica.loading = true →
      ∀ snap ∈ s.target.snapshots, snap.id ≠ s.call.lastSnapshotId)
    (hhead : s.session.pc = .readHead → s.target.j.currentSequence = s.session.reached) :
    s.Steady plainWire (.server .session) := by
  refine ⟨nofun, nofun, nofun, fun _ _ _ _ src _ hsome => ?_, fun _ => hlst, fun _ => hhead⟩
  rw [hsrc] at hsome
  cases hsome

theorem reconnect_keeps_replica_run : ∃ s : Link Int Text,
      s.session.handshake.map (·.mode) = some .delta ∧ s.session.reached = 2 ∧
      (s.history 2).keys = ["1", "2"] ∧
      (s.replica.loading = false → s.replica.client.store = s.history s.replica.client.lastSeq) ∧
      (s.session.pc.reading = true → s.session.pc ≠ .closed → s.inflight = [] →
        s.replica.client.store = s.history s.session.reached) := by
  have hother : ∀ {s : Link Int Text} {l}, l = .receive ∨ l = .cut ∨ l = .connect →
      s.Steady plainWire l := by
    rintro s l (rfl | rfl | rfl) <;> exact ⟨nofun, nofun, nofun, nofun, nofun, nofun⟩
  have h : Transition.Reach (Step plainWire) (Steady plainWire) exampleStart _ := .refl _
  have h := h
    |>.snoc (step_insertRow _ "1" rfl) (steady_insertRow _ _)
    |>.snoc (.connect rfl) (hother (.inr (.inr rfl)))
    |>.snoc (.session noExtras (.readOldest rfl) nofun) (steady_session rfl nofun nofun)
    |>.snoc .cut (hother (.inr (.inl rfl)))
    |>.snoc (.connect rfl) (hother (.inr (.inr rfl)))
    |>.snoc (.session noExtras (.readOldest rfl) nofun) (steady_session rfl nofun nofun)
    |>.snoc (.session noExtras (.readCurrent rfl) nofun) (steady_session rfl nofun nofun)
    |>.snoc (.session noExtras (.positionMissed rfl rfl) nofun) (steady_session rfl nofun nofun)
    |>.snoc (.session noExtras (.coldUnavailable rfl) nofun) (steady_session rfl nofun nofun)
    |>.snoc (.session noExtras (.selectMode rfl) nofun)
      (steady_session rfl (fun _ _ _ _ => nofun) nofun)
    |>.snoc (.takeSnapshot ⟨0, 0, 0, [.ofList [("id", some "1")]]⟩ rfl (by decide +kernel))
      (steady_session rfl nofun nofun)
    |>.snoc (.session noExtras (.pinJournal rfl) nofun) (steady_session rfl nofun nofun)
    |>.snoc (.receive rfl) (hother (.inl rfl))
    |>.snoc (.receive rfl) (hother (.inl rfl))
    |>.snoc (.receive rfl) (hother (.inl rfl))
    |>.snoc (.receive rfl) (hother (.inl rfl))
    |>.snoc .cut (hother (.inr (.inl rfl)))
    |>.snoc (step_insertRow _ "2" (by decide +kernel)) (steady_insertRow _ _)
    |>.snoc (.connect rfl) (hother (.inr (.inr rfl)))
    |>.snoc (.session noExtras (.readOldest rfl) nofun) (steady_session rfl nofun nofun)
    |>.snoc (.session noExtras (.readCurrent rfl) nofun) (steady_session rfl nofun nofun)
    |>.snoc (.session noExtras (.positionMissed rfl rfl) nofun) (steady_session rfl nofun nofun)
    |>.snoc (.session noExtras (.coldUnavailable rfl) nofun) (steady_session rfl nofun nofun)
    |>.snoc (.session noExtras (.selectMode rfl) nofun)
      (steady_session rfl (fun _ _ _ => nofun) nofun)
    |>.snoc (.session noExtras (.catchUp rfl) nofun) (steady_session rfl nofun nofun)
    |>.snoc (.session noExtras (.sendCatchUp rfl) nofun) (steady_session rfl nofun nofun)
    |>.snoc (.receive rfl) (hother (.inl rfl))
    |>.snoc (.receive rfl) (hother (.inl rfl))
  exact ⟨_, by decide +kernel, by decide +kernel, by decide +kernel,
    reconnect_keeps_replica plainWire _ (by decide) (by decide) _ (by decide) [] nofun _ _ h⟩

end Link

end Laredo
