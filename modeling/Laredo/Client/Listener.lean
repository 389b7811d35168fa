import Laredo.Source.Fanout
import Laredo.Snapshotter.Buffer

/-!
# Listener

What a listener of the fan-out client can know.
-/

namespace Laredo

open Client Option

variable {V : Type} [GoValue V]

def Notification.fold (rows : Store V) (n : Notification V) : Store V :=
  match n.old, n.new with
  | none, none => ∅
  | none, some new => KeyedMap.put rowKey rows new
  | some _, some new => KeyedMap.put rowKey rows new
  | some old, none => rows.erase (rowKey old)

namespace Client

def DeleteHeld (c : Client V) (entry : ReplicationJournalEntry V) : Prop :=
  entry.action = .delete → ∀ row, entry.oldValues = some row → c.store[rowKey row]?.isSome

variable {c : Client V} {entry : ReplicationJournalEntry V}

lemma store_of_silent (h : (c.applyJournalEntry entry).2 = none) :
    (c.applyJournalEntry entry).1.store = c.store := by
  rw [store_applyJournalEntry]
  unfold applyJournalEntry applyChange at h
  unfold applyRows
  cases hact : entry.action with
  | truncate => simp [hact] at h
  | delete =>
    cases hold : entry.oldValues with
    | none => rfl
    | some row => simp [hact, hold] at h
  | insert | update =>
    cases hnew : entry.newValues with
    | none => rfl
    | some row => simp [hact, hnew] at h

variable {n : Notification V}

lemma notified_cases (h : (c.applyJournalEntry entry).2 = some n) :
    (∃ row, entry.newValues = some row ∧ n.new = some row ∧
      (entry.action = .insert ∨ entry.action = .update)) ∨
    (∃ row, entry.oldValues = some row ∧ n.new = none ∧ n.old = c.store[rowKey row]? ∧
      entry.action = .delete) ∨
    (n.old = none ∧ n.new = none ∧ entry.action = .truncate) := by
  unfold applyJournalEntry applyChange at h
  cases hact : entry.action with
  | insert =>
    cases hnew : entry.newValues with
    | none => simp [hact, hnew] at h
    | some row =>
      simp only [hact, hnew, some.injEq] at h
      exact .inl ⟨row, rfl, by rw [← h], .inl rfl⟩
  | update =>
    cases hnew : entry.newValues with
    | none => simp [hact, hnew] at h
    | some row =>
      simp only [hact, hnew, some.injEq] at h
      exact .inl ⟨row, rfl, by rw [← h], .inr rfl⟩
  | delete =>
    cases hold : entry.oldValues with
    | none => simp [hact, hold] at h
    | some row =>
      simp only [hact, hold, some.injEq] at h
      exact .inr (.inl ⟨row, rfl, by rw [← h], by rw [← h]; rfl, rfl⟩)
  | truncate =>
    simp only [hact, some.injEq] at h
    exact .inr (.inr ⟨by rw [← h], by rw [← h], rfl⟩)

lemma fold_notified (h : (c.applyJournalEntry entry).2 = some n) (hhl : c.DeleteHeld entry) :
    n.fold c.store = (c.applyJournalEntry entry).1.store := by
  rw [store_applyJournalEntry]
  unfold Notification.fold applyRows
  rcases notified_cases h with ⟨row, hnew, hn, hact⟩ | ⟨row, hold, hn, ho, hact⟩ | ⟨ho, hn, hact⟩
  · have hput : ∀ old : Option (Row V), (match old, some row with
        | none, none => ∅
        | none, some new => KeyedMap.put rowKey c.store new
        | some _, some new => KeyedMap.put rowKey c.store new
        | some old, none => c.store.erase (rowKey old)) = KeyedMap.put rowKey c.store row := by
      intro old
      cases old <;> rfl
    rw [hn, hput n.old]
    rcases hact with hact | hact <;> rw [hact, hnew]
  · -- the row the replica held sits under the key it was looked up with
    obtain ⟨held, hget⟩ := isSome_iff_exists.mp (hhl hact row hold)
    rw [hn, ho, hget, hact, hold]
    show c.store.erase (rowKey held) = c.store.erase (rowKey row)
    rw [c.keyed _ _ hget]
  · rw [hn, ho, hact]

lemma fold_told (hhl : c.DeleteHeld entry) :
    (c.applyJournalEntry entry).2.toList.foldl Notification.fold c.store =
      (c.applyJournalEntry entry).1.store := by
  cases htold : (c.applyJournalEntry entry).2 with
  | none => exact (store_of_silent htold).symm
  | some n => exact fold_notified htold hhl

lemma nil_pair_cases
    (h : (c.applyJournalEntry entry).2 = some n) (hold : n.old = none) (hnew : n.new = none) :
    entry.action = .truncate ∨ entry.action = .delete ∧ ¬ c.DeleteHeld entry := by
  rcases notified_cases h with ⟨row, -, hn, -⟩ | ⟨row, hrow, -, ho, hact⟩ | ⟨-, -, hact⟩
  · rw [hn] at hnew
    cases hnew
  · refine .inr ⟨hact, fun hhl => ?_⟩
    have hsome := hhl hact row hrow
    rw [← ho, hold] at hsome
    cases hsome
  · exact .inl hact

def applyEntries (c : Client V) :
    List (ReplicationJournalEntry V) →
      Client V × List (ReplicationJournalEntry V × Notification V)
  | [] => (c, [])
  | entry :: entries =>
      let r := c.applyJournalEntry entry
      let rest := r.1.applyEntries entries
      (rest.1, r.2.toList.map (entry, ·) ++ rest.2)

def DeletesHeld (c : Client V) : List (ReplicationJournalEntry V) → Prop
  | [] => True
  | entry :: entries =>
      c.DeleteHeld entry ∧ (c.applyJournalEntry entry).1.DeletesHeld entries

/-- What the consumers of entries rely on: folding the pairs over the rows before gives the rows
after, and only a truncate is reported as a pair of nil rows or taken for a truncate. -/
structure Faithful (c : Client V) (entries : List (ReplicationJournalEntry V)) : Prop where
  fold : (c.applyEntries entries).2.foldl (fun rows n => n.2.fold rows) c.store =
    (c.applyEntries entries).1.store
  nilPair : ∀ e n, (e, n) ∈ (c.applyEntries entries).2 →
    n.old = none ∧ n.new = none → e.action = .truncate
  event : ∀ e n, (e, n) ∈ (c.applyEntries entries).2 → ∀ table,
    (FanoutSource.toEvent table n).action = .truncate → e.action = .truncate
  change : ∀ e n, (e, n) ∈ (c.applyEntries entries).2 → ∀ keyFields,
    (Snapshotter.Change.of keyFields n.old n.new).action = .truncate → e.action = .truncate

lemma fold_applyEntries {es : List (ReplicationJournalEntry V)} (h : c.DeletesHeld es) :
    (c.applyEntries es).2.foldl (fun rows n => n.2.fold rows) c.store =
      (c.applyEntries es).1.store := by
  induction es generalizing c with
  | nil => rfl
  | cons entry es ih =>
    show ((c.applyJournalEntry entry).2.toList.map (entry, ·) ++
      ((c.applyJournalEntry entry).1.applyEntries es).2).foldl _ c.store = _
    rw [List.foldl_append, List.foldl_map]
    rw [fold_told h.1]
    exact ih h.2

lemma nilPair_iff (c : Client V) (entries : List (ReplicationJournalEntry V)) :
    (∀ e n, (e, n) ∈ (c.applyEntries entries).2 →
      n.old = none ∧ n.new = none → e.action = .truncate) ↔ c.DeletesHeld entries := by
  induction entries generalizing c with
  | nil => exact iff_of_true (fun e n h => by cases h) trivial
  | cons entry entries ih =>
    have hmem : ∀ e n, (e, n) ∈ (c.applyEntries (entry :: entries)).2 ↔
        (e = entry ∧ (c.applyJournalEntry entry).2 = some n) ∨
          (e, n) ∈ ((c.applyJournalEntry entry).1.applyEntries entries).2 := by
      intro e n
      show (e, n) ∈ (c.applyJournalEntry entry).2.toList.map (entry, ·) ++
        ((c.applyJournalEntry entry).1.applyEntries entries).2 ↔ _
      simp [eq_comm, and_comm]
    constructor
    · intro h
      refine ⟨?_, (ih _).mp fun e n he => h e n ((hmem e n).mpr (.inr he))⟩
      -- a delete that finds nothing is reported as a pair of nil rows
      intro hact row hold
      by_contra hmiss
      have hnone : c.store[rowKey row]? = none := by simpa using hmiss
      have hpair : (c.applyJournalEntry entry).2 =
          some ⟨none, none, (c.advance entry).lastSourcePosition⟩ := by
        simp [applyJournalEntry, applyChange, hact, hold, hnone]
      have htr := h entry _ ((hmem entry _).mpr (.inl ⟨rfl, hpair⟩)) ⟨rfl, rfl⟩
      rw [hact] at htr
      cases htr
    · intro h e n he hnil
      rcases (hmem e n).mp he with ⟨rfl, hn⟩ | hrest
      · rcases nil_pair_cases hn hnil.1 hnil.2 with htr | ⟨-, hmiss⟩
        · exact htr
        · exact absurd h.1 hmiss
      · exact (ih _).mpr h.2 e n hrest hnil

/-- **The listeners are told the truth**, and no deletion reads as a truncate, exactly when each
delete that names a row finds a row under its key. -/
theorem notifications_faithful_iff (c : Client V) (entries : List (ReplicationJournalEntry V)) :
    c.Faithful entries ↔ c.DeletesHeld entries := by
  constructor
  · intro h
    exact (nilPair_iff c entries).mp h.nilPair
  · intro h
    have hnil := (nilPair_iff c entries).mpr h
    exact {
      fold := fold_applyEntries h
      nilPair := hnil
      event := fun e n he table htr =>
        hnil e n he ((FanoutSource.toEvent_truncate_iff table n).mp htr)
      change := fun e n he keyFields htr =>
        hnil e n he ((Snapshotter.Change.of_truncate_iff keyFields n.old n.new).mp htr) }

def holdsTwo : Client Text := (new []).put (.ofList [("id", some "2")])

def deleteEntry (id : String) : ReplicationJournalEntry Text :=
  ⟨7, .delete, "0/7", none, some (.ofList [("id", some id)])⟩

/-- The delete of a row that is not there is reported as a pair of nil rows: the cascading
source makes a truncate of it and so does the snapshot writer, while the replica keeps its
row. -/
theorem missing_delete_reads_as_truncate :
    (holdsTwo.applyEntries [deleteEntry "1"]).1.store.size = 1 ∧
      (holdsTwo.applyEntries [deleteEntry "1"]).2.map (fun n =>
        ((n.2.fold holdsTwo.store).size, (FanoutSource.toEvent ⟨"public", "t"⟩ n.2).action,
          (Snapshotter.Change.of ["id"] n.2.old n.2.new).action)) =
            [(0, .truncate, .truncate)] := by
  decide +kernel

theorem held_delete_is_faithful : holdsTwo.Faithful [deleteEntry "2"] := by
  refine (notifications_faithful_iff holdsTwo [deleteEntry "2"]).mpr ⟨?_, trivial⟩
  intro _ row hrow
  cases hrow
  decide +kernel

end Client

structure Listening (V : Type) [GoValue V] where
  client : Client V
  rows : Option (Store V)
  inBlock : Bool
  held : Store V

namespace Listening

inductive Event (V : Type)
  | connect
  | message (msg : SyncResponse V)

def readAll (c : Client V) : Store V :=
  KeyedMap.load rowKey ∅ (c.store.toList.map Prod.snd)

def consume (rows : Option (Store V)) (c : Client V) (told : Option (Notification V)) :
    Option (Store V) :=
  match rows, told with
  | some rows, some n => some (n.fold rows)
  | some rows, none => some rows
  | none, _ => if c.ready then some (readAll c) else none

def receive (s : Listening V) (msg : SyncResponse V) : Listening V :=
  let r := s.client.applyMessage msg
  { client := r.1
    rows := consume s.rows r.1 r.2.1
    inBlock := match msg with
      | .snapshotBegin _ _ _ => true
      | .snapshotEnd _ _ => false
      | _ => s.inBlock
    held := match msg with
      | .snapshotBegin _ _ _ => if s.inBlock then s.held else s.client.store
      | _ => s.held }

inductive Step (s : Listening V) : Event V → Listening V → Prop
  | connect : Step s .connect { s with inBlock := false }
  | message (msg : SyncResponse V) : Step s (.message msg) (s.receive msg)

def start (c : Client V) : Listening V := ⟨c, none, false, c.store⟩

def Reloaded (s : Listening V) : Prop :=
  s.rows.isSome → s.inBlock = true → s.client.store = s.held

/-- What keeps a consumer in step: a block that begins after the consumer has started
ends, or is cut, with the rows the client held before it; snapshot rows come inside of
blocks and entries outside; and a delete finds its row. -/
def Unsurprising (s : Listening V) : Event V → Prop
  | .connect => s.Reloaded
  | .message (.snapshotEnd _ _) => s.Reloaded
  | .message (.snapshotRow _) => s.rows.isSome → s.inBlock = true
  | .message (.journalEntry entry) => s.inBlock = false ∧ s.client.DeleteHeld entry
  | .message _ => True

def expected (s : Listening V) : Store V := if s.inBlock then s.held else s.client.store

structure InStep (s : Listening V) : Prop where
  waiting : s.rows = none → s.client.ready = false
  rows : ∀ rows, s.rows = some rows → rows = s.expected

lemma readAll_eq (c : Client V) : readAll c = c.store := KeyedMap.load_values c.keyed (.refl _)

lemma Reloaded.expected_eq {s : Listening V} (h : s.Reloaded) (hrows : s.rows.isSome) :
    s.expected = s.client.store := by
  unfold expected
  cases hblk : s.inBlock with
  | false => rfl
  | true => exact (h hrows hblk).symm

namespace InStep

variable {s : Listening V}

lemma silent (h : s.InStep) {msg : SyncResponse V}
    (htold : (s.client.applyMessage msg).2.1 = none)
    (hready : (s.client.applyMessage msg).1.ready = s.client.ready)
    (hexpe : s.rows.isSome → (s.receive msg).expected = s.expected) :
    (s.receive msg).InStep := by
  have hrows : (s.receive msg).rows = s.rows := by
    show consume s.rows (s.client.applyMessage msg).1 (s.client.applyMessage msg).2.1 = s.rows
    cases hrows : s.rows with
    | none => simp [consume, hready, h.waiting hrows]
    | some rows => simp [consume, htold]
  refine ⟨fun hnone => ?_, fun rows hsome => ?_⟩
  · rw [hrows] at hnone
    exact hready.trans (h.waiting hnone)
  · rw [hrows] at hsome
    rw [hexpe (by simp [hsome])]
    exact h.rows rows hsome

lemma readied {msg : SyncResponse V} (hready : (s.client.applyMessage msg).1.ready = true)
    (hout : (s.receive msg).inBlock = false)
    (hfold : ∀ rows, s.rows = some rows →
      consume (some rows) (s.client.applyMessage msg).1 (s.client.applyMessage msg).2.1 =
        some (s.client.applyMessage msg).1.store) :
    (s.receive msg).InStep := by
  have hexpe : (s.receive msg).expected = (s.client.applyMessage msg).1.store := by
    unfold expected
    rw [hout]
    rfl
  have hrows : (s.receive msg).rows = some (s.client.applyMessage msg).1.store := by
    show consume s.rows (s.client.applyMessage msg).1 (s.client.applyMessage msg).2.1 = _
    cases hrows : s.rows with
    | none => simp [consume, hready, readAll_eq]
    | some rows => exact hfold rows hrows
  refine ⟨fun hnone => ?_, fun rows hsome => ?_⟩
  · rw [hrows] at hnone
    cases hnone
  · rw [hrows] at hsome
    rw [hexpe, some.inj hsome]

lemma entry (h : s.InStep) {entry : ReplicationJournalEntry V} (hout : s.inBlock = false)
    (hhl : s.client.DeleteHeld entry) : (s.receive (.journalEntry entry)).InStep := by
  refine readied rfl hout ?_
  intro rows hrows
  have hst : rows = s.client.store := by
    rw [h.rows rows hrows, expected, hout]
    rfl
  show consume (some rows) (s.client.applyJournalEntry entry).1
    (s.client.applyJournalEntry entry).2 = some (s.client.applyJournalEntry entry).1.store
  cases htold : (s.client.applyJournalEntry entry).2 with
  | none => rw [store_of_silent htold, hst]; rfl
  | some n => rw [← fold_notified htold hhl, hst]; rfl

lemma step {s' : Listening V} {e : Event V} (h : s.InStep) (hok : s.Unsurprising e)
    (hs : Step s e s') : s'.InStep := by
  cases hs with
  | connect =>
    refine ⟨h.waiting, fun rows hrows => ?_⟩
    have hsome : s.rows.isSome := by simp [show s.rows = some rows from hrows]
    rw [h.rows rows hrows, Reloaded.expected_eq hok hsome]
    rfl
  | message msg =>
    cases msg with
    | snapshotBegin id seq count =>
      refine h.silent rfl rfl fun _ => ?_
      show (if s.inBlock then s.held else s.client.store) = s.expected
      rfl
    | snapshotRow row =>
      cases row with
      | none => exact h.silent rfl rfl fun _ => rfl
      | some row =>
        refine h.silent rfl rfl fun hsome => ?_
        have hblk : s.inBlock = true := hok hsome
        show (if s.inBlock then s.held else _) = s.expected
        simp only [expected, hblk, if_true]
    | snapshotEnd seq sent =>
      refine readied rfl rfl fun rows hrows => ?_
      rw [h.rows rows hrows, Reloaded.expected_eq hok (by simp [hrows])]
      rfl
    | journalEntry entry => exact h.entry hok.1 hok.2
    | handshake shake columns | heartbeat seq | schemaChange | goAway =>
      exact h.silent rfl rfl fun _ => rfl

end InStep

/-- **A consumer of the listener stays in step while snapshots bring nothing new**: its rows are
the client's at every message boundary outside of a snapshot block. -/
theorem listener_in_step (c : Client V) (hready : c.ready = false) {s : Listening V}
    (hreach : Transition.Reach Step Unsurprising (start c) s)
    (hclient : s.client.ready = true) (hout : s.inBlock = false) :
    s.rows = some s.client.store := by
  have hinv : s.InStep := by
    refine hreach.invariant InStep ⟨fun _ => hready, fun rows hrows => by cases hrows⟩ ?_
    intro s₁ s₂ e h hok hs
    exact h.step hok hs
  cases hrows : s.rows with
  | none =>
    rw [hinv.waiting hrows] at hclient
    cases hclient
  | some rows =>
    rw [hinv.rows rows hrows, expected, hout]
    rfl

def rowOf (id : String) : Row Text := .ofList [("id", some id)]

/-- A client that has fallen behind the journal is sent a snapshot again. Row 1 was
deleted in the meantime and row 2 is new; the consumer is told nothing and keeps row 1. -/
theorem listener_misses_second_snapshot : ∃ s : Listening Text,
      Transition.Run Step (start (new [])) s ∧
      s.client.ready = true ∧ s.inBlock = false ∧
      s.client.store.keys = ["2"] ∧ s.rows.map (·.keys) = some ["1"] := by
  have h : Transition.Run Step
      (start (new [] : Client Text)) _ := .refl _
  have h := h.snoc .connect
  have h := h.snoc (.message (.snapshotBegin "fanout-1-0" 1 1))
  have h := h.snoc (.message (.snapshotRow (some (rowOf "1"))))
  have h := h.snoc (.message (.snapshotEnd 1 1))
  have h := h.snoc .connect
  have h := h.snoc (.message (.snapshotBegin "fanout-9-0" 9 1))
  have h := h.snoc (.message (.snapshotRow (some (rowOf "2"))))
  have h := h.snoc (.message (.snapshotEnd 9 1))
  exact ⟨_, h, rfl, rfl, by decide +kernel, by decide +kernel⟩

theorem listener_in_step_run : ∃ s : Listening Text,
      s.client.store.keys = ["1", "2"] ∧ s.rows = some s.client.store := by
  have h : Transition.Reach Step Unsurprising
      (start (new [] : Client Text)) _ := .refl _
  have h := h.snoc .connect
  have h := h.snoc (.message (.snapshotBegin "fanout-1-0" 1 1))
  have h := h.snoc (.message (.snapshotRow (some (rowOf "1"))))
  have h := h.snoc (.message (.snapshotEnd 1 1))
  have h := h.snoc .connect
  have h := h.snoc (.message (.snapshotBegin "fanout-1-0" 1 1))
  have h := h.snoc (.message (.snapshotRow (some (rowOf "1")))) fun _ => rfl
  have h := h.snoc (.message (.snapshotEnd 1 1)) fun _ _ => rfl
  have h := h.snoc (.message (.journalEntry ⟨2, .insert, "0/2", some (rowOf "2"), none⟩))
  exact ⟨_, by decide +kernel, listener_in_step (new []) rfl h rfl rfl⟩

end Listening

end Laredo
