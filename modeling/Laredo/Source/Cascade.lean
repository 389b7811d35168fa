import Laredo.Client.Listener

/-!
# Cascade

The handoff of the cascading source (`source/fanout/fanout.go`) from `Baseline` to
`Stream`, next to a client that keeps applying messages.
-/

namespace Laredo

open Client Transition Listening List Option

variable {V : Type} [GoValue V]

namespace FanoutSource

def foldEvent (rows : Store V) (e : ChangeEvent String V) : Store V :=
  match e.action with
  | .insert | .update =>
      match e.newValues with
      | some row => KeyedMap.put rowKey rows row
      | none => rows
  | .delete =>
      match e.oldValues with
      | some row => rows.erase (rowKey row)
      | none => rows
  | .truncate => ∅

lemma foldEvent_toEvent (table : TableIdentifier) (rows : Store V) (rec : Notification V) :
    foldEvent rows (toEvent table rec) = rec.fold rows := by
  obtain ⟨old, new, position⟩ := rec
  cases old <;> cases new <;> rfl

/-- `fromStr != "" && s.cfg.cmp(rec.position, fromStr) <= 0`: the record is passed over. -/
def skips (cmp : Comparator String) (fromStr : String) (rec : Notification V) : Bool :=
  fromStr != "" && decide (cmp.cmp rec.position fromStr ≤ 0)

variable {cmp : Comparator String} {fromStr : String} {rec : Notification V}

omit [GoValue V] in
lemma skips_iff : skips cmp fromStr rec = true ↔ fromStr ≠ "" ∧ cmp.Le rec.position fromStr := by
  simp [skips, Comparator.Le]

end FanoutSource

def ReplicationJournalEntry.Vacant (entry : ReplicationJournalEntry V) : Prop :=
  match entry.action with
  | .insert | .update => entry.newValues = none
  | .delete => entry.oldValues = none
  | .truncate => False

lemma ReplicationJournalEntry.Vacant.silent {entry : ReplicationJournalEntry V}
    (h : entry.Vacant) (c : Client V) : (c.applyJournalEntry entry).2 = none := by
  unfold Vacant at h
  unfold applyJournalEntry applyChange
  cases hact : entry.action with
  | truncate => simp [hact] at h
  | insert | update | delete =>
    simp only [hact] at h
    simp [h]

lemma Client.position_notified {c : Client V} {entry : ReplicationJournalEntry V}
    {n : Notification V} (h : (c.applyJournalEntry entry).2 = some n) :
    n.position = (c.applyJournalEntry entry).1.lastSourcePosition := by
  rw [lastSourcePosition_applyJournalEntry]
  show n.position = (c.advance entry).lastSourcePosition
  unfold applyJournalEntry applyChange at h
  cases hact : entry.action with
  | truncate =>
    simp only [hact, some.injEq] at h
    rw [← h]
  | insert | update =>
    cases hnew : entry.newValues with
    | none => simp [hact, hnew] at h
    | some row =>
      simp only [hact, hnew, some.injEq] at h
      rw [← h]
  | delete =>
    cases hold : entry.oldValues with
    | none => simp [hact, hold] at h
    | some row =>
      simp only [hact, hold, some.injEq] at h
      rw [← h]

namespace Cascade

inductive Telling (V : Type)
  | idle
  | enqueue (rec : Notification V)
  | wake

def Telling.records : Telling V → List (Notification V)
  | .enqueue rec => [rec]
  | _ => []

def Telling.of : Option (Notification V) → Telling V
  | some rec => .enqueue rec
  | none => .idle

section

omit [GoValue V]

@[simp] lemma Telling.records_idle : (idle : Telling V).records = [] := rfl

@[simp] lemma Telling.records_enqueue (rec : Notification V) : (enqueue rec).records = [rec] :=
  rfl

@[simp] lemma Telling.records_wake : (wake : Telling V).records = [] := rfl

@[simp] lemma Telling.records_of (told : Option (Notification V)) :
    (Telling.of told).records = told.toList := by
  cases told <;> rfl

end

inductive Loop (V : Type)
  | top
  | records (pending : List (Notification V))
  | select

inductive Stage (V : Type)
  | connecting
  | connected
  | rowsRead
  | baselined (pos : String)
  | streaming (fromStr : String) (loop : Loop V)
  | stopped

def Stage.pending : Stage V → List (Notification V)
  | .streaming _ (.records pending) => pending
  | _ => []

def Stage.position : Stage V → Option String
  | .baselined pos => some pos
  | .streaming fromStr _ => some fromStr
  | _ => none

def Stage.opening : Stage V → Bool
  | .connecting | .connected => true
  | _ => false

inductive Event (V : Type)
  | message (msg : SyncResponse V)
  | enqueue
  | wake
  | awaitReady
  | readRows (rows : List (Row V))
  | readPosition
  | stream
  | take
  | skip
  | onChange
  | onChangeFails
  | park
  | signalled
  | cancelled
  | pause
  | resume
  | nudge

end Cascade

open FanoutSource (toEvent foldEvent skips skips_iff foldEvent_toEvent)

structure Cascade (V : Type) [GoValue V] where
  client : Client V
  telling : Cascade.Telling V
  queue : List (Notification V)
  paused : Bool
  signal : Bool
  nudges : Nat
  stage : Cascade.Stage V
  down : Store V

namespace Cascade

def start (c : Client V) : Cascade V := ⟨c, .idle, [], false, false, 0, .connecting, ∅⟩

inductive Step (table : TableIdentifier) (cmp : Comparator String) (s : Cascade V) :
    Event V → Cascade V → Prop
  | message (msg : SyncResponse V) (hlock : s.telling = .idle) :
      Step table cmp s (.message msg)
        { s with
          client := (s.client.applyMessage msg).1
          telling := .of (s.client.applyMessage msg).2.1 }
  | enqueue (rec : Notification V) (htelling : s.telling = .enqueue rec) :
      Step table cmp s .enqueue { s with queue := s.queue ++ [rec], telling := .wake }
  | wake (htelling : s.telling = .wake) :
      Step table cmp s .wake { s with signal := true, telling := .idle }
  | awaitReady (hstage : s.stage = .connecting) (hlock : s.telling = .idle)
      (hready : s.client.ready = true) :
      Step table cmp s .awaitReady { s with stage := .connected }
  | readRows (rows : List (Row V)) (hstage : s.stage = .connected) (hlock : s.telling = .idle)
      (hrows : Fanout.Target.Iterates rows s.client.store) :
      Step table cmp s (.readRows rows)
        { s with stage := .rowsRead, down := KeyedMap.load rowKey ∅ rows }
  | readPosition (hstage : s.stage = .rowsRead) (hlock : s.telling = .idle) :
      Step table cmp s .readPosition
        { s with stage := .baselined s.client.lastSourcePosition }
  | stream (pos : String) (hstage : s.stage = .baselined pos) :
      Step table cmp s .stream { s with stage := .streaming pos .top, paused := false }
  | take (fromStr : String) (hstage : s.stage = .streaming fromStr .top) :
      Step table cmp s .take
        { s with
          stage := .streaming fromStr (.records (if s.paused then [] else s.queue))
          queue := if s.paused then s.queue else [] }
  | skip (fromStr : String) (rec : Notification V) (rest : List (Notification V))
      (hstage : s.stage = .streaming fromStr (.records (rec :: rest)))
      (hskips : skips cmp fromStr rec = true) :
      Step table cmp s .skip { s with stage := .streaming fromStr (.records rest) }
  | onChange (fromStr : String) (rec : Notification V) (rest : List (Notification V))
      (hstage : s.stage = .streaming fromStr (.records (rec :: rest)))
      (hskips : skips cmp fromStr rec = false) :
      Step table cmp s .onChange
        { s with
          stage := .streaming fromStr (.records rest)
          down := foldEvent s.down (toEvent table rec) }
  | onChangeFails (fromStr : String) (rec : Notification V) (rest : List (Notification V))
      (hstage : s.stage = .streaming fromStr (.records (rec :: rest)))
      (hskips : skips cmp fromStr rec = false) :
      Step table cmp s .onChangeFails { s with stage := .stopped }
  | park (fromStr : String) (hstage : s.stage = .streaming fromStr (.records [])) :
      Step table cmp s .park { s with stage := .streaming fromStr .select }
  | signalled (fromStr : String) (hstage : s.stage = .streaming fromStr .select)
      (hsignal : s.signal = true) :
      Step table cmp s .signalled
        { s with stage := .streaming fromStr .top, signal := false }
  | cancelled (fromStr : String) (hstage : s.stage = .streaming fromStr .select) :
      Step table cmp s .cancelled { s with stage := .stopped }
  | pause : Step table cmp s .pause { s with paused := true }
  | resume : Step table cmp s .resume { s with paused := false, nudges := s.nudges + 1 }
  | nudge (hnudges : 0 < s.nudges) :
      Step table cmp s .nudge { s with signal := true, nudges := s.nudges - 1 }

def waiting (s : Cascade V) : List (Notification V) :=
  s.stage.pending ++ s.queue ++ s.telling.records

/-- Those of them `Stream` will forward when it was called with this position. -/
def due (cmp : Comparator String) (fromStr : String) (s : Cascade V) : List (Notification V) :=
  s.waiting.filter fun rec => !skips cmp fromStr rec

def Rising (cmp : Comparator String) (s : Cascade V) : Event V → Prop
  | .message (.journalEntry entry) => entry.sourcePosition ≠ "" ∧
      (s.client.lastSourcePosition ≠ "" →
        cmp.Lt s.client.lastSourcePosition entry.sourcePosition)
  | _ => True

/-- What the handoff takes, next to positions that rise: between the two reads of
`Baseline` no entry brings a change; the snapshot is loaded before `Baseline` and before
the listener is told of a change; and a delete finds its row. -/
def Undisturbed (s : Cascade V) : Event V → Prop
  | .message (.journalEntry entry) =>
      s.client.DeleteHeld entry ∧ (s.stage = .rowsRead → entry.Vacant)
  | .message (.snapshotBegin _ _ _) => s.stage.opening = true ∧ s.queue = []
  | .message (.snapshotRow (some _)) => s.stage.opening = true ∧ s.queue = []
  | _ => True

/-- `Stream` is to be started, or was, from this position: the client is not before it,
and the consumer will have the client's rows once what is due is forwarded. -/
structure Owes (cmp : Comparator String) (fromStr : String) (s : Cascade V) : Prop where
  reached : fromStr ≠ "" → s.client.lastSourcePosition ≠ "" ∧
    cmp.Le fromStr s.client.lastSourcePosition
  rows : (s.due cmp fromStr).foldl Notification.fold s.down = s.client.store

/-- What carries the handoff: the client's position covers every change that waits, and the
rows are accounted for from the moment `Baseline` has read them. -/
structure InHand (cmp : Comparator String) (s : Cascade V) : Prop where
  covered : ∀ rec ∈ s.waiting, skips cmp s.client.lastSourcePosition rec = true
  read : s.stage = .rowsRead → s.down = s.client.store
  owes : ∀ fromStr, s.stage.position = some fromStr → s.Owes cmp fromStr

lemma inHand_start (cmp : Comparator String) (c : Client V) : (start c).InHand cmp where
  covered := nofun
  read := nofun
  owes := nofun

variable {cmp : Comparator String}

omit [GoValue V] in
lemma rising_skips {last pos : String} (hpos : pos ≠ "") (hrising : last ≠ "" → cmp.Lt last pos) :
    (∀ rec : Notification V, skips cmp last rec = true → skips cmp pos rec = true) ∧
    (∀ fromStr, (fromStr ≠ "" → last ≠ "" ∧ cmp.Le fromStr last) →
      (fromStr ≠ "" → cmp.Le fromStr pos) ∧
      ∀ rec : Notification V, rec.position = pos → skips cmp fromStr rec = false) := by
  refine ⟨fun rec hrec => ?_, fun fromStr hrd => ⟨fun hfrom => ?_, fun rec hrec => ?_⟩⟩
  · obtain ⟨hlast, hle⟩ := skips_iff.mp hrec
    exact skips_iff.mpr ⟨hpos, hle.trans (hrising hlast).le⟩
  · obtain ⟨hlast, hle⟩ := hrd hfrom
    exact hle.trans (hrising hlast).le
  · rw [← Bool.not_eq_true, skips_iff]
    rintro ⟨hfrom, hle⟩
    obtain ⟨hlast, hfromLe⟩ := hrd hfrom
    rw [hrec] at hle
    exact (hfromLe.trans_lt (hrising hlast)).not_le hle

namespace InHand

variable {cmp : Comparator String} {table : TableIdentifier} {s s' : Cascade V}

lemma frame (h : s.InHand cmp) (hst : s'.client.store = s.client.store)
    (hpos : s'.client.lastSourcePosition = s.client.lastSourcePosition)
    (hdown : s'.down = s.down) (hwait : s'.waiting = s.waiting)
    (hread : s'.stage = .rowsRead → s.stage = .rowsRead)
    (hstg : s'.stage.position = s.stage.position) : s'.InHand cmp where
  covered := by
    rw [hwait, hpos]
    exact h.covered
  read hs := by
    rw [hdown, hst]
    exact h.read (hread hs)
  owes fromStr hs := by
    rw [hstg] at hs
    have howes := h.owes fromStr hs
    refine ⟨by rw [hpos]; exact howes.reached, ?_⟩
    unfold due
    rw [hwait, hdown, hst]
    exact howes.rows

lemma loading (hopening : s.stage.opening = true) (hq : s.queue = [])
    (htell : s.telling = .idle) : s.InHand cmp := by
  unfold Stage.opening at hopening
  refine ⟨?_, ?_, ?_⟩
  · unfold waiting
    rw [hq, htell]
    cases hstg : s.stage <;> simp [hstg] at hopening <;> simp [Stage.pending]
  · intro hread
    simp [hread] at hopening
  · intro fromStr hs
    cases hstg : s.stage <;> simp [hstg] at hopening <;> simp [hstg, Stage.position] at hs

section

variable (h : s.InHand cmp)
include h

lemma entry {entry : ReplicationJournalEntry V} (hlock : s.telling = .idle)
    (hrising : s.Rising cmp (.message (.journalEntry entry)))
    (hok : s.Undisturbed (.message (.journalEntry entry))) :
    InHand cmp { s with
        client := (s.client.applyJournalEntry entry).1
        telling := .of (s.client.applyJournalEntry entry).2 } := by
  obtain ⟨hpos, hlt⟩ := hrising
  obtain ⟨hhl, hvacant⟩ := hok
  obtain ⟨hskips, hlater⟩ := rising_skips (V := V) hpos hlt
  have hposi : (s.client.applyJournalEntry entry).1.lastSourcePosition = entry.sourcePosition := by
    rw [lastSourcePosition_applyJournalEntry, if_pos hpos]
  have htold : ∀ rec ∈ (s.client.applyJournalEntry entry).2.toList,
      rec.position = entry.sourcePosition := by
    intro rec hrec
    rw [position_notified (mem_toList.mp hrec), hposi]
  have hwait : ({ s with
      client := (s.client.applyJournalEntry entry).1
      telling := .of (s.client.applyJournalEntry entry).2 } : Cascade V).waiting =
        s.waiting ++ (s.client.applyJournalEntry entry).2.toList := by
    simp [waiting, hlock]
  refine ⟨fun rec hrec => ?_, fun hread => ?_, fun fromStr hs => ?_⟩
  · rw [hwait, mem_append] at hrec
    rw [hposi]
    rcases hrec with hrec | hrec
    · exact hskips rec (h.covered rec hrec)
    · rw [skips_iff, htold rec hrec]
      exact ⟨hpos, Comparator.Le.refl cmp _⟩
  · -- between the two reads the client ignores the entry
    rw [store_of_silent ((hvacant hread).silent s.client)]
    exact h.read hread
  · have howes := h.owes fromStr hs
    obtain ⟨hrd, hdue⟩ := hlater fromStr howes.reached
    refine ⟨fun hfrom => ?_, ?_⟩
    · rw [hposi]
      exact ⟨hpos, hrd hfrom⟩
    · have hall : (s.client.applyJournalEntry entry).2.toList.filter
          (fun rec => !skips cmp fromStr rec) = (s.client.applyJournalEntry entry).2.toList := by
        rw [filter_eq_self]
        intro rec hrec
        simp [hdue rec (htold rec hrec)]
      unfold due
      rw [hwait, filter_append, hall, foldl_append]
      show List.foldl Notification.fold ((s.due cmp fromStr).foldl Notification.fold s.down) _ = _
      rw [howes.rows]
      exact fold_told hhl

lemma message {msg : SyncResponse V} (hlock : s.telling = .idle)
    (hrising : s.Rising cmp (.message msg)) (hok : s.Undisturbed (.message msg)) :
    InHand cmp { s with
        client := (s.client.applyMessage msg).1
        telling := .of (s.client.applyMessage msg).2.1 } := by
  have hsame : s.waiting = s.stage.pending ++ s.queue ++ (Telling.of none).records := by
    unfold waiting
    rw [hlock]
    rfl
  cases msg with
  | journalEntry entry => exact h.entry hlock hrising hok
  | snapshotBegin id seq count => exact loading hok.1 hok.2 rfl
  | snapshotRow row =>
    cases row with
    | some row => exact loading hok.1 hok.2 rfl
    | none => exact h.frame rfl rfl rfl hsame.symm id rfl
  | handshake shake columns | snapshotEnd seq sent | heartbeat seq | schemaChange | goAway =>
    exact h.frame rfl rfl rfl hsame.symm id rfl

lemma readPosition (hstg : s.stage = .rowsRead) :
    InHand cmp { s with stage := .baselined s.client.lastSourcePosition } := by
  have hwait : ({ s with stage := .baselined s.client.lastSourcePosition } :
      Cascade V).waiting = s.waiting := by
    unfold waiting
    rw [hstg]
    rfl
  refine ⟨?_, nofun, fun fromStr hs => ?_⟩
  · rw [hwait]
    exact h.covered
  · cases hs
    refine ⟨fun hfrom => ⟨hfrom, Comparator.Le.refl cmp _⟩, ?_⟩
    have hnone : s.waiting.filter (fun rec => !skips cmp s.client.lastSourcePosition rec) = [] := by
      rw [filter_eq_nil_iff]
      intro rec hrec
      simp [h.covered rec hrec]
    unfold due
    rw [hwait, hnone]
    exact h.read hstg

lemma handled {fromStr : String} {rec : Notification V} {rest : List (Notification V)}
    {down : Store V}
    (hstg : s.stage = .streaming fromStr (.records (rec :: rest)))
    (hdown : down = if skips cmp fromStr rec then s.down else rec.fold s.down) :
    InHand cmp { s with stage := .streaming fromStr (.records rest), down := down } := by
  have hwait : s.waiting = rec :: ({ s with
      stage := .streaming fromStr (.records rest), down := down } : Cascade V).waiting := by
    unfold waiting
    rw [hstg]
    rfl
  refine ⟨fun rec' hrec => ?_, nofun, fun fromStr' hs => ?_⟩
  · refine h.covered rec' ?_
    rw [hwait]
    exact mem_cons_of_mem _ hrec
  · cases hs
    have howes := h.owes fromStr (by rw [hstg]; rfl)
    refine ⟨howes.reached, ?_⟩
    have hrows := howes.rows
    unfold due at hrows
    rw [hwait] at hrows
    cases hskips : skips cmp fromStr rec with
    | true | false => simpa [due, hskips, hdown] using hrows

lemma stopped : InHand cmp { s with stage := .stopped } := by
  refine ⟨fun rec hrec => h.covered rec ?_, nofun, nofun⟩
  unfold waiting at hrec ⊢
  rw [append_assoc]
  exact mem_append_right _ hrec

lemma step {e : Event V} (hrising : s.Rising cmp e)
    (hok : s.Undisturbed e) (hs : Step table cmp s e s') : s'.InHand cmp := by
  cases hs with
  | message msg hlock => exact h.message hlock hrising hok
  | enqueue rec htell | wake htell =>
    refine h.frame rfl rfl rfl ?_ id rfl
    simp [waiting, htell]
  | awaitReady hstg hlock hready | stream pos hstg | park fromStr hstg
  | signalled fromStr hstg hsignal =>
    refine h.frame rfl rfl rfl ?_ nofun ?_
    · simp [waiting, hstg, Stage.pending]
    · simp [hstg, Stage.position]
  | readRows rows hstg hlock hrows =>
    refine ⟨?_, fun _ => KeyedMap.load_values s.client.keyed hrows, nofun⟩
    have hcov := h.covered
    unfold waiting at hcov
    rw [hstg] at hcov
    exact hcov
  | readPosition hstg hlock => exact h.readPosition hstg
  | take fromStr hstg =>
    refine h.frame rfl rfl rfl ?_ nofun ?_
    · cases hpau : s.paused <;> simp [waiting, hstg, Stage.pending]
    · simp [hstg, Stage.position]
  | skip fromStr rec rest hstg hskips => exact h.handled hstg (by simp [hskips])
  | onChange fromStr rec rest hstg hskips =>
    refine h.handled hstg ?_
    simp [hskips, foldEvent_toEvent]
  | onChangeFails fromStr rec rest hstg hskips | cancelled fromStr hstg => exact h.stopped
  | pause | resume | nudge hnudges => exact h.frame rfl rfl rfl rfl id rfl

end

lemma run {c : Client V} (hrch : Reach (Step table cmp)
    (fun s e => s.Rising cmp e ∧ s.Undisturbed e) (start c) s) : s.InHand cmp := by
  refine hrch.invariant (InHand cmp) (inHand_start cmp c) ?_
  intro s₁ s₂ e h hok hs
  exact h.step hok.1 hok.2 hs

lemma down_eq (h : s.InHand cmp) {fromStr : String} {loop : Loop V}
    (hstg : s.stage = .streaming fromStr loop) (hwait : s.waiting = []) :
    s.down = s.client.store := by
  have hrows := (h.owes fromStr (by rw [hstg]; rfl)).rows
  unfold due at hrows
  rw [hwait] at hrows
  exact hrows

end InHand

/-- **The handoff loses nothing when no change comes between the two reads.** When the positions
rise, the rows of `Baseline` with the forwarded events folded in are the client's whenever `Stream`
runs and no record is left. -/
theorem handoff_without_loss (table : TableIdentifier) (cmp : Comparator String) (c : Client V)
    {s : Cascade V}
    (hreach : Reach (Step table cmp)
      (fun s e => s.Rising cmp e ∧ s.Undisturbed e) (start c) s)
    {fromStr : String} {loop : Loop V} (hstage : s.stage = .streaming fromStr loop)
    (hpending : s.stage.pending = []) (hqueue : s.queue = [])
    (htelling : s.telling.records = []) : s.down = s.client.store := by
  refine (InHand.run hreach).down_eq hstage ?_
  unfold waiting
  rw [hpending, hqueue, htelling]
  rfl

def accounts : TableIdentifier := ⟨"public", "accounts"⟩

def insertEntry (seq : Int) (pos id : String) : SyncResponse Text :=
  .journalEntry ⟨seq, .insert, pos, some (rowOf id), none⟩

/-- Row 2 is inserted at 0/2 after `Baseline` has read the rows and before it reads the position:
`Stream` passes over its record, and the consumer never gets row 2. -/
theorem change_between_reads_is_skipped : ∃ s : Cascade Text,
      Reach (Step accounts (.ofOrd String)) (Rising (.ofOrd String))
        (start (new [])) s ∧
      s.stage = .streaming "0/2" .select ∧ s.queue = [] ∧ s.telling = .idle ∧
      s.client.store.keys = ["1", "2"] ∧ s.down.keys = ["1"] := by
  have h : Reach (Step accounts (.ofOrd String)) (Rising (.ofOrd String))
      (start (new [] : Client Text)) _ := .refl _
  have h := h
    |>.snoc (.message (.snapshotBegin "fanout-1-0" 1 1) rfl)
    |>.snoc (.message (.snapshotRow (some (rowOf "1"))) rfl)
    |>.snoc (.message (.snapshotEnd 1 1) rfl)
    |>.snoc (.awaitReady rfl rfl rfl)
    |>.snoc (.readRows [rowOf "1"] rfl rfl (by decide +kernel))
    |>.snoc (.message (insertEntry 2 "0/2" "2") rfl)
    |>.snoc (.enqueue _ rfl)
    |>.snoc (.wake rfl)
    |>.snoc (.readPosition rfl rfl)
    |>.snoc (.stream _ rfl)
    |>.snoc (.take _ rfl)
    |>.snoc (.skip _ _ _ rfl (by decide +kernel))
    |>.snoc (.park _ rfl)
  exact ⟨_, h, rfl, rfl, rfl, by decide +kernel, by decide +kernel⟩

theorem handoff_without_loss_run : ∃ s : Cascade Text, Reach (Step accounts (.ofOrd String))
        (fun s e => s.Rising (.ofOrd String) e ∧ s.Undisturbed e) (start (new [])) s ∧
      s.stage = .streaming "0/2" .select ∧ s.queue = [] ∧ s.telling = .idle ∧
      s.client.store.keys = ["1", "2", "3"] ∧ s.down = s.client.store := by
  have h : Reach (Step accounts (.ofOrd String))
      (fun s e => s.Rising (.ofOrd String) e ∧ s.Undisturbed e)
      (start (new [] : Client Text)) _ := .refl _
  have h := h
    |>.snoc (.message (.snapshotBegin "fanout-1-0" 1 1) rfl)
    |>.snoc (.message (.snapshotRow (some (rowOf "1"))) rfl)
    |>.snoc (.message (.snapshotEnd 1 1) rfl)
    |>.snoc (.awaitReady rfl rfl rfl)
    |>.snoc (.message (insertEntry 2 "0/2" "2") rfl)
    |>.snoc (.enqueue _ rfl)
    |>.snoc (.wake rfl)
    |>.snoc (.readRows [rowOf "1", rowOf "2"] rfl rfl (by decide +kernel))
    |>.snoc (.readPosition rfl rfl)
    |>.snoc (.stream _ rfl)
    |>.snoc .pause
    |>.snoc (.take _ rfl)
    |>.snoc (.park _ rfl)
    |>.snoc (.message (insertEntry 3 "0/3" "3") rfl)
    |>.snoc (.enqueue _ rfl)
    |>.snoc (.wake rfl)
    |>.snoc .resume
    |>.snoc (.signalled _ rfl rfl)
    |>.snoc (.take _ rfl)
    |>.snoc (.skip _ _ _ rfl (by decide +kernel))
    |>.snoc (.onChange _ _ _ rfl (by decide +kernel))
    |>.snoc (.park _ rfl)
  exact ⟨_, h, rfl, rfl, rfl, by decide +kernel,
    handoff_without_loss accounts (.ofOrd String) (new []) h rfl rfl rfl rfl⟩

end Cascade

end Laredo
