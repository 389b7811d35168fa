import Laredo.Client.Delivered
import Laredo.Replication.ColdHandoff
import Laredo.Replication.Selection

/-!
# Interrupted

A cold replay that breaks off, and the stream after it.
-/

namespace Laredo

open Replication Fanout Replica Snapshotter Wire KeyedMap Target Reader List Option Manifest
open Snapshotter (Artifact Change Manifest Reader byFrom)

variable {B P V : Type}

def Replication.Call.matchChange (call : Call P V) (ch : Change V) : Bool :=
  match call.filter with
  | none => true
  | some matchRow =>
      match ch.action with
      | .delete => matchRow ch.old
      | .truncate => true
      | .insert | .update => matchRow ch.new

def Replication.Call.cold (call : Call P V) (fuel : Nat) (archive : Option (Archive B V))
    (j : Journal P V) : Option (Option (ColdReplay V)) :=
  match call.src with
  | none => some none
  | some src =>
      if call.lastKnownSourcePosition = "" then some none
      else planColdReplay fuel archive j src call.lastKnownSourcePosition

variable {call : Call P V} {fuel : Nat} {archive : Option (Archive B V)} {j : Journal P V}

lemma Replication.Call.cold_inv
    {cr : ColdReplay V} (h : call.cold fuel archive j = some (some cr)) :
    ∃ src, call.src = some src ∧ call.lastKnownSourcePosition ≠ "" ∧
      planColdReplay fuel archive j src call.lastKnownSourcePosition = some (some cr) := by
  unfold Call.cold at h
  cases hsrc : call.src with
  | none => simp [hsrc] at h
  | some src =>
    by_cases hemp : call.lastKnownSourcePosition = ""
    · simp [hsrc, hemp] at h
    · simp only [hsrc, if_neg hemp] at h
      exact ⟨src, rfl, hemp, h⟩

lemma Replication.Call.cold_unknown (h : call.lastKnownSourcePosition = "") :
    call.cold fuel archive j = some none := by
  unfold Call.cold
  cases call.src with
  | none => rfl
  | some src => simp [h]

lemma Replication.Call.positionResume_unknown
    (h : call.lastKnownSourcePosition = "") : call.positionResume j = none := by
  unfold Call.positionResume
  cases call.src with
  | none => rfl
  | some src => simp [h]

namespace Wire

variable (w : Wire P V)

def archiveChange (ch : Change V) (position : String) (seq : Int) : ReplicationJournalEntry V where
  sequence := seq
  action := ch.action
  sourcePosition := position
  newValues := ch.new.bind w.encode
  oldValues := ch.old.bind w.encode

def coldBase (call : Call P V) (cr : ColdReplay V) : List (SyncResponse V) :=
  match cr.snapshot with
  | none => []
  | some (id, rows) => w.snapshotMessages call ⟨id, cr.resumeSeq, rows.length, rows, 0⟩

def coldDiff (call : Call P V) (seq : Int) (d : ColdDiff V) : List (SyncResponse V) :=
  (d.changes.filter call.matchChange).map fun ch =>
    .journalEntry (w.archiveChange ch d.position seq)

def streamColdReplay (call : Call P V) (cr : ColdReplay V) : List (SyncResponse V) :=
  w.coldBase call cr ++ cr.diffs.flatMap (w.coldDiff call cr.resumeSeq)

def catchUp (call : Call P V) (t : Target P V) (seq : Int) : List (SyncResponse V) :=
  ((t.j.entriesSince seq).filter call.matchEntry).map fun e => .journalEntry (w.entry e)

def shake (t : Target P V) (choice : SyncMode × Int × String) : SyncResponse V :=
  .handshake ⟨choice.1, t.j.currentSequence, t.j.oldestSequence, choice.2.1, choice.2.2⟩ t.cols

/-- `Sync` on a target that does not change, up to the live loop; `none` if planning never
ends. -/
def sync (fuel : Nat) (archive : Option (Archive B V)) (t : Target P V) (env : SnapshotEnv V)
    (call : Call P V) : Option (List (SyncResponse V)) :=
  match call.positionResume t.j with
  | some seq => some (shake t (.delta, seq, "") :: w.catchUp call t seq)
  | none =>
      match call.cold fuel archive t.j with
      | none => none
      | some (some cr) =>
          some (shake t (.replayArchive, cr.resumeSeq, "") ::
            (w.streamColdReplay call cr ++ w.catchUp call t cr.resumeSeq))
      | some none =>
          match call.selectMode t.j.oldestSequence t.snapshots with
          | (.fullSnapshot, seq, id) =>
              some (shake t (.fullSnapshot, seq, id) ::
                (w.snapshotMessages call (t.capture env) ++
                  w.catchUp call t (t.capture env).sequence))
          | (mode, seq, id) => some (shake t (mode, seq, id) :: w.catchUp call t seq)

end Wire

section

variable [GoValue V] {w : Wire P V} {cols : List ColumnDefinition} {r : Replica V}

structure Replica.SameCoords (r r' : Replica V) : Prop where
  lastSeq : r'.client.lastSeq = r.client.lastSeq
  lastSnapshotID : r'.client.lastSnapshotID = r.client.lastSnapshotID
  lastSourcePosition : r'.client.lastSourcePosition = r.client.lastSourcePosition

lemma Replica.run_rows_coords (r : Replica V) (rows : List (Option (Row V))) :
    r.SameCoords (r.run (rows.map .snapshotRow)) := by
  induction rows generalizing r with
  | nil => exact ⟨rfl, rfl, rfl⟩
  | cons row rows ih =>
    obtain ⟨hseq, hid, hpos⟩ := ih (r.apply (.snapshotRow row))
    rw [map_cons, run_cons]
    cases row with
    | none | some row => exact ⟨hseq, hid, hpos⟩

lemma Replica.run_rows_store (r : Replica V) {rows : List (Row V)}
    (hrows : ∀ row ∈ rows, w.Carries row) :
    (r.run ((rows.map w.encode).map .snapshotRow)).client.store =
      load Client.rowKey r.client.store rows := by
  induction rows generalizing r with
  | nil => rfl
  | cons row rows ih =>
    rw [map_cons, map_cons, run_cons,
      ih (r.apply (.snapshotRow (w.encode row))) fun x hx => hrows x (mem_cons_of_mem _ hx),
      (hrows row mem_cons_self).encode]
    rfl

lemma load_rowKey_eq (hid : KeyedById cols) {rows : List (Row V)}
    (hrows : ∀ row ∈ rows, w.Carries row) (store : Store V) :
    load Client.rowKey store rows = load (buildKey cols) store rows := by
  induction rows generalizing store with
  | nil => rfl
  | cons row rows ih =>
    rw [load_cons, load_cons, ih fun x hx => hrows x (mem_cons_of_mem _ hx)]
    unfold put
    rw [buildKey_eq_rowKey hid (hrows row mem_cons_self).id]

variable {call : Call P V}

omit [GoValue V] in
lemma Wire.snapshotRows_unfiltered (hflt : call.filter = none)
    (snap : Snapshot V) : snapshotRows call snap = snap.rows := by
  simp [snapshotRows, hflt]

omit [GoValue V] in
lemma Wire.snapshotMessages_unfiltered (hflt : call.filter = none) (snap : Snapshot V) :
    w.snapshotMessages call snap = .snapshotBegin snap.id snap.sequence snap.rows.length ::
        ((snap.rows.map w.encode).map .snapshotRow ++
          [.snapshotEnd snap.sequence snap.rows.length]) := by
  simp [snapshotMessages, snapshotRows_unfiltered hflt, Function.comp_def]

lemma Replica.run_snapshotMessages (hid : KeyedById cols) (call : Call P V) (r : Replica V)
    (snap : Snapshot V) (hrows : ∀ row ∈ snapshotRows call snap, w.Carries row) :
    let r' := r.run (w.snapshotMessages call snap)
    r'.client.store = loadRows cols (snapshotRows call snap) ∧
      r'.client.lastSeq = snap.sequence ∧ r'.client.lastSnapshotID = snap.id ∧
      r'.client.lastSourcePosition = "" := by
  intro r'
  let rows := snapshotRows call snap
  let begun := r.apply (.snapshotBegin snap.id snap.sequence rows.length)
  have hrun : r' = (begun.run ((rows.map w.encode).map .snapshotRow)).apply
      (.snapshotEnd snap.sequence rows.length) := by
    show r.run (w.snapshotMessages call snap) = _
    unfold snapshotMessages
    rw [cons_append, run_cons, run_append, List.map_map]
    rfl
  have hcoords := run_rows_coords begun (rows.map w.encode)
  rw [hrun]
  refine ⟨?_, rfl, hcoords.lastSnapshotID, hcoords.lastSourcePosition⟩
  exact (run_rows_store _ hrows).trans (load_rowKey_eq hid hrows ∅)

lemma Replica.run_snapshot (hid : KeyedById cols) (call : Call P V) (hflt : call.filter = none)
    (r : Replica V) (snap : Snapshot V) (hrows : ∀ row ∈ snap.rows, w.Carries row) :
    let r' := r.run (w.snapshotMessages call snap)
    r'.client.store = loadRows cols snap.rows ∧ r'.client.lastSeq = snap.sequence ∧
      r'.client.lastSnapshotID = snap.id ∧ r'.client.lastSourcePosition = "" := by
  have hall := snapshotRows_unfiltered hflt snap
  have hrun := run_snapshotMessages hid call r snap (by rwa [hall])
  rwa [hall] at hrun

lemma Replica.run_entries_store (r : Replica V) (es : List (ReplicationJournalEntry V)) :
    (r.run (es.map .journalEntry)).client.store = es.foldl Client.applyRows r.client.store := by
  induction es generalizing r with
  | nil => rfl
  | cons e es ih =>
    rw [map_cons, run_cons, ih, foldl_cons]
    exact congrArg (es.foldl Client.applyRows) (r.client.store_applyJournalEntry e)

structure Wire.CarriesChange (w : Wire P V) (ch : Change V) : Prop where
  new : ∀ row, ch.new = some row → w.Carries row
  old : ∀ row, ch.old = some row → w.Carries row

section

variable (hid : KeyedById cols)
include hid

lemma Wire.applyRows_archiveChange {ch : Change V}
    (hch : w.CarriesChange ch) (pos : String) (seq : Int) (store : Store V) :
    Client.applyRows store (w.archiveChange ch pos seq) =
      (changeEdit ch).apply (buildKey cols) store := by
  have hent := applyRows_carried (w := w) hid
    (e := ⟨seq, 0, ch.action, ch.old, ch.new, none⟩) hch.new hch.old store
  rw [applyEntry_eq] at hent
  exact hent

lemma Replica.run_changes (r : Replica V) (pos : String) (seq : Int)
    {chs : List (Change V)} (hcarry : ∀ ch ∈ chs, w.CarriesChange ch) :
    let r' := r.run (chs.map fun ch => .journalEntry (w.archiveChange ch pos seq))
    r'.client.store = Replication.replayChanges cols r.client.store chs ∧
      r'.client.lastSnapshotID = r.client.lastSnapshotID ∧
      (chs ≠ [] → pos ≠ "" → r'.client.lastSeq = seq ∧ r'.client.lastSourcePosition = pos) := by
  induction chs generalizing r with
  | nil => exact ⟨rfl, rfl, fun h => absurd rfl h⟩
  | cons ch chs ih =>
    have hstep := ih (r.apply (.journalEntry (w.archiveChange ch pos seq)))
      fun x hx => hcarry x (mem_cons_of_mem _ hx)
    obtain ⟨hst, hsnap, hcoords⟩ := hstep
    rw [map_cons, run_cons]
    refine ⟨?_, hsnap.trans (r.client.lastSnapshotID_applyJournalEntry _), fun _ hpos => ?_⟩
    · rw [hst]
      show Replication.replayChanges cols (r.client.applyJournalEntry _).1.store chs = _
      rw [Client.store_applyJournalEntry, applyRows_archiveChange hid (hcarry ch mem_cons_self)]
      rfl
    · cases chs with
      | nil =>
        refine ⟨r.client.lastSeq_applyJournalEntry _, ?_⟩
        exact (r.client.lastSourcePosition_applyJournalEntry _).trans (if_pos hpos)
      | cons ch' chs => exact hcoords (cons_ne_nil _ _) hpos

lemma Replica.run_coldDiff
    (hflt : call.filter = none) (r : Replica V) (seq : Int) (d : ColdDiff V)
    (hcarry : ∀ ch ∈ d.changes, w.CarriesChange ch) :
    let r' := r.run (w.coldDiff call seq d)
    r'.client.store = Replication.replayChanges cols r.client.store d.changes ∧
      r'.client.lastSnapshotID = r.client.lastSnapshotID ∧
      (d.changes ≠ [] → d.position ≠ "" →
        r'.client.lastSeq = seq ∧ r'.client.lastSourcePosition = d.position) := by
  have hall : d.changes.filter call.matchChange = d.changes :=
    filter_eq_self.mpr fun ch _ => by simp [Call.matchChange, hflt]
  rw [coldDiff, hall]
  exact run_changes hid r d.position seq hcarry

lemma Replica.run_coldDiffs_store
    (hflt : call.filter = none) (r : Replica V) (seq : Int) (diffs : List (ColdDiff V))
    (hcarry : ∀ d ∈ diffs, ∀ ch ∈ d.changes, w.CarriesChange ch) :
    (r.run (diffs.flatMap (w.coldDiff call seq))).client.store =
      Replication.replayChanges cols r.client.store (diffs.flatMap ColdDiff.changes) := by
  induction diffs generalizing r with
  | nil => rfl
  | cons d diffs ih =>
    rw [flatMap_cons, run_append, flatMap_cons, Replication.replayChanges_append,
      ih _ fun x hx => hcarry x (mem_cons_of_mem _ hx),
      (run_coldDiff hid hflt r seq d (hcarry d mem_cons_self)).1]

lemma Replica.run_catchUp (hflt : call.filter = none) (r : Replica V) (t : Target P V) (seq : Int)
    (hcarry : ∀ e ∈ t.j.entries, (∀ row, e.newValues = some row → w.Carries row) ∧
      ∀ row, e.oldValues = some row → w.Carries row) :
    (r.run (w.catchUp call t seq)).client.store =
      replayEntries cols r.client.store (t.j.entriesSince seq) := by
  have hall : (t.j.entriesSince seq).filter call.matchEntry = t.j.entriesSince seq :=
    filter_eq_self.mpr fun e _ => by simp [Call.matchEntry, hflt]
  have hmem : ∀ e ∈ t.j.entriesSince seq, e ∈ t.j.entries := fun e he =>
    (Journal.mem_entriesSince.mp he).1
  have hmsgs : w.catchUp call t seq = ((t.j.entriesSince seq).map w.entry).map .journalEntry := by
    rw [catchUp, hall, List.map_map]
    rfl
  rw [hmsgs, run_entries_store]
  generalize t.j.entriesSince seq = entries at hmem
  generalize r.client.store = store
  induction entries generalizing store with
  | nil => rfl
  | cons e entries ih =>
    obtain ⟨hnew, hold⟩ := hcarry e (hmem e mem_cons_self)
    rw [map_cons, foldl_cons, applyRows_carried hid hnew hold]
    exact ih (fun x hx => hmem x (mem_cons_of_mem _ hx)) _

end

end

section

variable [GoValue V] {cols : List ColumnDefinition}

/-- A target that follows the table of a source, and an archive of that table which is not ahead
of it. Everything they hold survives the wire. -/
structure ColdServer (w : Wire P V) (src : SourceTable P V (buildKey cols))
    (positions : SourcePositions P) (tableAt : String → Store V) (a : Archive B V)
    (t : Target P V) (c : P) : Prop where
  source : w.src = some positions
  order : positions.order = src.order
  byId : KeyedById cols
  describes : Describes src t c
  holds : a.Holds cols tableAt
  applied : ∀ m, loadManifest a.destination = .ok m → ∀ art ∈ m.artifacts, ∀ pos,
    positions.positionFromString art.toPosition = some pos →
      ∃ p, pos = some p ∧ src.order.Le p c ∧ (t.j.entries = [] → src.order.Le c p) ∧
        tableAt art.toPosition = src.tableAt p
  stored : ∀ (k : String) (row : Row V), t.store[k]? = some row → w.Carries row
  journaled : ∀ e ∈ t.j.entries, (∀ row, e.newValues = some row → w.Carries row) ∧
    ∀ row, e.oldValues = some row → w.Carries row
  rows : ∀ m, loadManifest a.destination = .ok m → ∀ art ∈ m.artifacts, ∀ rows,
    a.reader.readSnapshot a.destination art = .ok rows → ∀ row ∈ rows, w.Carries row
  changes : ∀ m, loadManifest a.destination = .ok m → ∀ art ∈ m.artifacts, ∀ changes,
    a.reader.readDiff a.destination art = .ok changes → ∀ ch ∈ changes, w.CarriesChange ch
  ids : ∀ snap ∈ t.snapshots, ∃ seq ms, snap.id = snapshotID seq ms

structure Route (a : Archive B V) (t : Target P V) (positions : SourcePositions P) (fuel : Nat)
    (fromPos : String) (cr : ColdReplay V) (m : Manifest) (plan : ReplayPlan)
    (start : String) : Prop where
  manifest : loadManifest a.destination = .ok m
  planned : m.plan fuel fromPos positions.compareStrings = some (some plan)
  path : Links.Path (fun p => (byFrom m.artifacts)[p]?) Artifact.toPosition start plan.diffs
    plan.headPosition
  read : a.readDiffs plan.diffs = some cr.diffs
  base : plan.snapshot = none ∧ cr.snapshot = none ∧ start = fromPos ∨
    ∃ snap rows, plan.snapshot = some snap ∧ snap ∈ m.artifacts ∧ snap.kind = .snapshot ∧
      a.reader.readSnapshot a.destination snap = .ok rows ∧
      cr.snapshot = some ("archive-" ++ toString snap.epoch, rows) ∧ start = snap.toPosition
  covered : ∃ head, positions.positionFromString plan.headPosition = some head ∧
    t.j.resumeSeqForPosition head positions.order.comparePositions = (cr.resumeSeq, true)
  materialized : a.materialize plan cr.resumeSeq = some cr

namespace ColdServer

variable {w : Wire P V} {src : SourceTable P V (buildKey cols)} {positions : SourcePositions P}
variable {tableAt : String → Store V} {a : Archive B V} {t : Target P V} {c : P}
variable {fuel : Nat} {fromPos start : String} {cr : ColdReplay V} {m : Manifest}
variable {plan : ReplayPlan} {call : Call P V} {r : Replica V}

section

variable (h : ColdServer w src positions tableAt a t c)
include h

lemma route (hcr : planColdReplay fuel (some a) t.j positions fromPos = some (some cr)) :
    ∃ m plan start, Route a t positions fuel fromPos cr m plan start := by
  obtain ⟨a', plan, head, seq, harchive, hplan, hhead, hseq, hmat⟩ := planColdReplay_inv hcr
  cases harchive
  obtain ⟨rfl, hread, hbase⟩ := Archive.materialize_inv hmat
  unfold Archive.plan at hplan
  cases hm : loadManifest a.destination with
  | error e => simp [hm] at hplan
  | ok m =>
    simp only [hm] at hplan
    obtain ⟨start, hpath, hshape⟩ := plan_inv hplan (h.holds.named m hm)
    refine ⟨m, plan, start, hm, hplan, hpath, hread, ?_, ⟨head, hhead, hseq⟩, hmat⟩
    rcases hshape with ⟨hnone, rfl⟩ | ⟨snap, hlat, hsnap, rfl⟩
    · rcases hbase with ⟨-, hbase⟩ | ⟨art, -, hsome, -⟩
      · exact .inl ⟨hnone, hbase, rfl⟩
      · simp [hnone] at hsome
    · rcases hbase with ⟨hnone, -⟩ | ⟨art, rows, hsome, hrows, hbase⟩
      · simp [hsnap] at hnone
      · obtain rfl : art = snap := some.inj (hsome.symm.trans hsnap)
        have hspec := m.latestSnapshot_isLatest
        rw [hlat] at hspec
        exact .inr ⟨art, rows, hsnap, hspec.1, hspec.2.1, hrows, hbase, rfl⟩

lemma bridge
    (hm : loadManifest a.destination = .ok m) {art : Artifact} (hart : art ∈ m.artifacts)
    {pos : Option P} (hpos : positions.positionFromString art.toPosition = some pos) {seq : Int}
    (hseq : t.j.resumeSeqForPosition pos positions.order.comparePositions = (seq, true)) :
    replayEntries cols (tableAt art.toPosition) (t.j.entriesSince seq) = t.store := by
  obtain ⟨p, rfl, hle, hemp, htab⟩ := h.applied m hm art hart pos hpos
  rw [h.order] at hseq
  rw [htab]
  exact h.describes.resume hle hemp hseq

lemma bridge_head (hrt : Route a t positions fuel fromPos cr m plan start) :
    replayEntries cols (tableAt plan.headPosition) (t.j.entriesSince cr.resumeSeq) = t.store := by
  obtain ⟨head, hhead, hseq⟩ := hrt.covered
  obtain ⟨art, hart, hto⟩ := plan_head_listed hrt.planned (h.holds.named m hrt.manifest)
  rw [← hto] at hhead ⊢
  exact h.bridge hrt.manifest hart hhead hseq

lemma carries_changes (hrt : Route a t positions fuel fromPos cr m plan start) :
    ∀ d ∈ cr.diffs, ∀ ch ∈ d.changes, w.CarriesChange ch := by
  intro d hd
  obtain ⟨art, hart, hread⟩ := Archive.readDiffs_mem hrt.read hd
  obtain ⟨k, hnext⟩ := hrt.path.exists_next hart
  obtain ⟨l, l', hspl, -⟩ := getElem?_byFrom_eq_some.mp hnext
  exact h.changes m hrt.manifest art (by simp [hspl]) d.changes hread

lemma run_base (hflt : call.filter = none)
    (hrt : Route a t positions fuel fromPos cr m plan start)
    (hhl : r.client.store = tableAt fromPos) :
    (r.run (w.coldBase call cr)).client.store = tableAt start := by
  unfold coldBase
  rcases hrt.base with ⟨-, hnone, rfl⟩ | ⟨snap, rows, -, hsnap, hkind, hrows, hbase, rfl⟩
  · rw [hnone]
    exact hhl
  · rw [hbase]
    refine (run_snapshot h.byId call hflt r _ ?_).1.trans ?_
    · exact h.rows m hrt.manifest snap hsnap rows hrows
    · exact h.holds.snapshot m hrt.manifest snap hsnap hkind rows hrows

lemma run_replay (hflt : call.filter = none)
    (hcr : planColdReplay fuel (some a) t.j positions fromPos = some (some cr))
    (hhl : r.client.store = tableAt fromPos) :
    (r.run (w.streamColdReplay call cr ++ w.catchUp call t cr.resumeSeq)).client.store =
      t.store := by
  obtain ⟨m, plan, start, hrt⟩ := h.route hcr
  unfold streamColdReplay
  rw [run_append, run_append, run_catchUp h.byId hflt _ _ _ h.journaled,
    run_coldDiffs_store h.byId hflt _ _ _ (h.carries_changes hrt),
    h.run_base hflt hrt hhl, h.holds.readDiffs hrt.manifest hrt.path hrt.read]
  exact h.bridge_head hrt

lemma run_full (hflt : call.filter = none)
    {env : SnapshotEnv V} (henv : Iterates env.rows t.store) :
    (r.run (w.snapshotMessages call (t.capture env) ++
      w.catchUp call t (t.capture env).sequence)).client.store = t.store := by
  have hkd : Keyed (buildKey cols) t.store := by
    rw [h.describes.store]
    exact src.keyed_tableAt c
  have hrows : ∀ row ∈ (t.capture env).rows, w.Carries row := fun row hrow =>
    h.stored _ row ((mem_values hkd henv row).mp hrow)
  have hnothing : t.j.entriesSince (t.capture env).sequence = [] := by
    refine eq_nil_iff_forall_not_mem.mpr fun e he => ?_
    obtain ⟨hmem, hlt⟩ := Journal.mem_entriesSince.mp he
    have hbd := (Journal.mem_bounds hmem).2
    have hseq : (t.capture env).sequence = t.j.nextSeq - 1 := rfl
    omega
  rw [run_append, run_catchUp h.byId hflt _ _ _ h.journaled, hnothing,
    (run_snapshot h.byId call hflt r _ hrows).1]
  exact load_values hkd henv

end

end ColdServer

end

inductive SafeCut (w : Wire P V) (call : Call P V) (j : Journal P V) (cr : ColdReplay V) :
    List (SyncResponse V) → Prop
  | nothing : SafeCut w call j cr []
  | insideBase {received rest : List (SyncResponse V)}
      (hsplit : w.coldBase call cr = received ++ rest) (hne : received ≠ []) (hrest : rest ≠ [])
      (hold : ¬ (0 < call.lastKnownSequence ∧ j.oldestSequence ≤ call.lastKnownSequence)) :
      SafeCut w call j cr received
  | afterBase (hbase : cr.snapshot.isSome)
      (hok : cr.diffs.flatMap ColdDiff.changes = [] ∨
        ¬ (0 < cr.resumeSeq ∧ j.oldestSequence ≤ cr.resumeSeq)) :
      SafeCut w call j cr (w.coldBase call cr)
  | afterDiff {before after : List (ColdDiff V)} {d : ColdDiff V}
      (hsplit : cr.diffs = before ++ d :: after) (hne : d.changes ≠ []) :
      SafeCut w call j cr
        (w.coldBase call cr ++ (before ++ [d]).flatMap (w.coldDiff call cr.resumeSeq))

section

variable [GoValue V] {cols : List ColumnDefinition} {w : Wire P V}
variable {src : SourceTable P V (buildKey cols)} {positions : SourcePositions P}
variable {tableAt : String → Store V} {a : Archive B V} {t : Target P V} {c : P}
variable {fuel : Nat} {cr : ColdReplay V} {r : Replica V} {env : SnapshotEnv V}

/-- The call of a client after a break. -/
abbrev redial (w : Wire P V) (clientID : String) (r : Replica V) : Call P V :=
  w.call (r.client.dial clientID false)

variable {call : Call P V}

lemma Replica.run_partial_base (hflt : call.filter = none) (r : Replica V)
    (snap : Snapshot V) {received rest : List (SyncResponse V)}
    (hspl : w.snapshotMessages call snap = received ++ rest) (hne : received ≠ [])
    (hrest : rest ≠ []) :
    (r.run received).client.lastSeq = r.client.lastSeq ∧
      (r.run received).client.lastSnapshotID = snap.id ∧
      (r.run received).client.lastSourcePosition = "" := by
  rw [snapshotMessages_unfiltered hflt] at hspl
  cases received with
  | nil => exact absurd rfl hne
  | cons msg received =>
    rw [cons_append] at hspl
    obtain ⟨rfl, htail⟩ := List.cons.inj hspl
    -- the end marker is among what was not received
    obtain ⟨last, rest', rfl⟩ : ∃ last rest', rest = rest' ++ [last] :=
      ⟨_, _, (dropLast_append_getLast hrest).symm⟩
    rw [← append_assoc] at htail
    obtain ⟨hrows, -⟩ := append_inj' htail rfl
    obtain ⟨l₁, l₂, -, hl₁, -⟩ := map_eq_append_iff.mp hrows
    obtain ⟨hseq, hid, hpos⟩ := run_rows_coords
      (r.apply (.snapshotBegin snap.id snap.sequence snap.rows.length)) l₁
    rw [run_cons, ← hl₁]
    exact ⟨hseq, hid, hpos⟩

variable {epoch : Nat}

lemma snapshotID_ne_archive {seq ms : Int} :
    snapshotID seq ms ≠ "archive-" ++ toString epoch := by
  intro h
  have hhead := congrArg (fun s => s.toList.head?) h
  simp [snapshotID, String.toList_append] at hhead

omit [GoValue V] in
lemma Wire.sync_full (h : ∀ snap ∈ t.snapshots, ∃ seq ms, snap.id = snapshotID seq ms)
    (hpos : call.lastKnownSourcePosition = "")
    (hid : call.lastSnapshotId = "archive-" ++ toString epoch)
    (hseq : ¬ (0 < call.lastKnownSequence ∧ t.j.oldestSequence ≤ call.lastKnownSequence)) :
    w.sync fuel (some a) t env call = some (shake t (.fullSnapshot, 0, "") ::
      (w.snapshotMessages call (t.capture env) ++ w.catchUp call t (t.capture env).sequence)) := by
  have hmode : call.selectMode t.j.oldestSequence t.snapshots = (.fullSnapshot, 0, "") := by
    rcases call.selectMode_cases t.j.oldestSequence t.snapshots with
      ⟨hnew, hle, -⟩ | ⟨snap, hsnap, heq, -⟩ | hfull
    · exact absurd ⟨hnew, hle⟩ hseq
    · obtain ⟨seq, ms, hown⟩ := h snap hsnap
      rw [hown, hid] at heq
      exact absurd heq snapshotID_ne_archive
    · exact hfull
  simp only [sync, Call.positionResume_unknown hpos, Call.cold_unknown hpos, hmode]

omit [GoValue V] in
lemma Wire.sync_covered {seq : Int} (h : call.positionResume t.j = some seq) :
    w.sync fuel (some a) t env call =
      some (shake t (.delta, seq, "") :: w.catchUp call t seq) := by
  simp only [sync, h]

omit [GoValue V] in
lemma Wire.sync_cold (h : call.positionResume t.j = none)
    (hcold : call.cold fuel (some a) t.j = some (some cr)) :
    w.sync fuel (some a) t env call = some (shake t (.replayArchive, cr.resumeSeq, "") ::
      (w.streamColdReplay call cr ++ w.catchUp call t cr.resumeSeq)) := by
  simp only [sync, h, hcold]

omit [GoValue V] in
lemma Wire.sync_sequence (hpos : call.lastKnownSourcePosition = "")
    (hseq : 0 < call.lastKnownSequence ∧ t.j.oldestSequence ≤ call.lastKnownSequence) :
    w.sync fuel (some a) t env call = some (shake t (.delta, call.lastKnownSequence, "") ::
        w.catchUp call t call.lastKnownSequence) := by
  simp only [sync, Call.positionResume_unknown hpos, Call.cold_unknown hpos, Call.selectMode,
    if_pos hseq]

variable {clientID : String}

lemma ColdServer.plan_of_cold (h : ColdServer w src positions tableAt a t c)
    (hcold : (redial w clientID r).cold fuel (some a) t.j = some (some cr)) :
    planColdReplay fuel (some a) t.j positions r.client.lastSourcePosition = some (some cr) := by
  obtain ⟨src', hsrc, -, hplan⟩ := Call.cold_inv hcold
  obtain rfl : positions = src' := some.inj (h.source.symm.trans hsrc)
  exact hplan

lemma ColdServer.converges_full (h : ColdServer w src positions tableAt a t c)
    (hpos : r.client.lastSourcePosition = "")
    (hid : r.client.lastSnapshotID = "archive-" ++ toString epoch)
    (hseq : ¬ (0 < r.client.lastSeq ∧ t.j.oldestSequence ≤ r.client.lastSeq))
    (henv : Iterates env.rows t.store) :
    ∃ msgs, w.sync fuel (some a) t env (redial w clientID r) = some msgs ∧
      (r.run msgs).client.store = t.store :=
  ⟨_, sync_full h.ids hpos hid hseq, h.run_full rfl henv⟩

variable {fromPos start : String} {m : Manifest} {plan : ReplayPlan}
  {before after : List (ColdDiff V)}

section

variable (h : ColdServer w src positions tableAt a t c)
include h

lemma ColdServer.station (hrt : Route a t positions fuel fromPos cr m plan start)
    {d : ColdDiff V} (hspl : cr.diffs = before ++ d :: after) :
    ∃ done rest, ∃ art ∈ m.artifacts, art.toPosition = d.position ∧ d.position ≠ "" ∧
      plan.diffs = done ++ rest ∧ a.readDiffs rest = some after ∧
      Links.Path (fun p => (byFrom m.artifacts)[p]?) Artifact.toPosition start done d.position ∧
      (rest = [] → d.position = plan.headPosition) ∧
      Replication.replayChanges cols (tableAt start) ((before ++ [d]).flatMap ColdDiff.changes) =
        tableAt d.position := by
  have hread := hrt.read
  rw [hspl, ← singleton_append, ← append_assoc] at hread
  obtain ⟨done, rest, hdiffs, hdone, hrest⟩ := Archive.readDiffs_split hread
  obtain ⟨done', last, rfl, -, hlast⟩ := Archive.readDiffs_split hdone
  obtain ⟨art, rfl, hto⟩ := Archive.readDiffs_singleton hlast
  have hpath := hrt.path
  rw [hdiffs] at hpath
  obtain ⟨q, hpathDone, hpathRest⟩ := hpath.split
  obtain ⟨q', -, hnext, rfl⟩ := hpathDone.split
  obtain ⟨l, l', harts, hfrom, -⟩ := getElem?_byFrom_eq_some.mp hnext
  have hart : art ∈ m.artifacts := by simp [harts]
  have hne := h.holds.named m hrt.manifest art hart hfrom.1
  have hhl := h.holds.readDiffs hrt.manifest hpathDone hdone
  rw [hto] at hpathDone hpathRest hne hhl
  refine ⟨_, rest, art, hart, hto, hne, hdiffs, hrest, hpathDone, ?_, hhl⟩
  rintro rfl
  exact hpathRest

lemma ColdServer.replans
    (hrt : Route a t positions fuel fromPos cr m plan start) {done rest : List Artifact}
    {p : String} (hdiffs : plan.diffs = done ++ rest)
    (hmore : rest ≠ []) (hrest : a.readDiffs rest = some after)
    (hpath : Links.Path (fun p => (byFrom m.artifacts)[p]?) Artifact.toPosition start done p) :
    ∃ cr', planColdReplay fuel (some a) t.j positions p = some (some cr') := by
  have hst0 : plan.snapshot = none ∧ start = fromPos ∨
      ∃ snap, plan.snapshot = some snap ∧ start = snap.toPosition := by
    rcases hrt.base with ⟨hnone, -, hfrom⟩ | ⟨snap, -, hsnap, -, -, -, -, hfrom⟩
    · exact .inl ⟨hnone, hfrom⟩
    · exact .inr ⟨snap, hsnap, hfrom⟩
  obtain ⟨head, hhead, hseq⟩ := hrt.covered
  rcases plan_resume hrt.planned (h.holds.named m hrt.manifest) hdiffs hmore
    hpath hst0 with hplan | hplan
  · exact ⟨cr, by simp [planColdReplay, Archive.plan, hrt.manifest, hplan, hhead, hseq,
      hrt.materialized]⟩
  · exact ⟨⟨none, after, cr.resumeSeq⟩, by simp [planColdReplay, Archive.plan,
      hrt.manifest, hplan, hhead, hseq, Archive.materialize, hrest]⟩

lemma ColdServer.converges_diff (hrt : Route a t positions fuel fromPos cr m plan start)
    {d : ColdDiff V} (hspl : cr.diffs = before ++ d :: after)
    (hpos : r.client.lastSourcePosition = d.position)
    (hhl : r.client.store = tableAt d.position) :
    ∃ msgs, w.sync fuel (some a) t env (redial w clientID r) = some msgs ∧
      (r.run msgs).client.store = t.store := by
  obtain ⟨done, rest, art, hart, hto, hne, hdiffs, hrest, hpath, hlast, -⟩ := h.station hrt hspl
  have hcall : (redial w clientID r).lastKnownSourcePosition = d.position := hpos
  have hsource : (redial w clientID r).src = some positions := h.source
  cases hrsm : (redial w clientID r).positionResume t.j with
  | some seq =>
    refine ⟨_, sync_covered hrsm, ?_⟩
    obtain ⟨src', pos, hsrc, -, hprs, hseq⟩ := Call.positionResume_inv hrsm
    obtain rfl : positions = src' := some.inj (h.source.symm.trans hsrc)
    rw [hcall, ← hto] at hprs
    rw [run_cons, run_catchUp h.byId rfl _ _ _ h.journaled]
    show replayEntries cols r.client.store _ = _
    rw [hhl, ← hto]
    exact h.bridge hrt.manifest hart hprs hseq
  | none =>
    -- the end of the route is covered, so there is more to come
    have hmore : rest ≠ [] := by
      rintro rfl
      obtain ⟨head, hhead, hseq⟩ := hrt.covered
      rw [← hlast rfl] at hhead
      simp only [Call.positionResume, hcall, if_neg hne] at hrsm
      simp [hsource, hhead, hseq] at hrsm
    obtain ⟨cr', hcr'⟩ := h.replans hrt hdiffs hmore hrest hpath
    have hcold : (redial w clientID r).cold fuel (some a) t.j = some (some cr') := by
      simp only [Call.cold, hsource, hcall, if_neg hne]
      exact hcr'
    rw [← hpos] at hcr' hhl
    refine ⟨_, sync_cold hrsm hcold, ?_⟩
    rw [run_cons]
    exact h.run_replay rfl hcr' hhl

lemma ColdServer.converges_base (hflt : call.filter = none)
    (hrt : Route a t positions fuel fromPos cr m plan start)
    (hhl : r.client.store = tableAt fromPos) (hbase : cr.snapshot.isSome)
    (hok : cr.diffs.flatMap ColdDiff.changes = [] ∨
      ¬ (0 < cr.resumeSeq ∧ t.j.oldestSequence ≤ cr.resumeSeq))
    (henv : Iterates env.rows t.store) :
    ∃ msgs, w.sync fuel (some a) t env (redial w clientID (r.run (w.coldBase call cr))) =
        some msgs ∧
      ((r.run (w.coldBase call cr)).run msgs).client.store = t.store := by
  have hst := h.run_base hflt hrt hhl
  obtain ⟨epoch, hseq, hid, hpos⟩ : ∃ epoch : Nat,
      (r.run (w.coldBase call cr)).client.lastSeq = cr.resumeSeq ∧
      (r.run (w.coldBase call cr)).client.lastSnapshotID = "archive-" ++ toString epoch ∧
      (r.run (w.coldBase call cr)).client.lastSourcePosition = "" := by
    rcases hrt.base with ⟨-, hnone, -⟩ | ⟨snap, rows, -, hsnap, -, hrows, hbase, -⟩
    · simp [hnone] at hbase
    · simp only [coldBase, hbase]
      exact ⟨snap.epoch, (run_snapshot h.byId call hflt r _
        (h.rows m hrt.manifest snap hsnap rows hrows)).2⟩
  generalize r.run (w.coldBase call cr) = r' at hst hseq hid hpos ⊢
  by_cases hrsm : 0 < cr.resumeSeq ∧ t.j.oldestSequence ≤ cr.resumeSeq
  · -- a delta from the resume sequence: all of the replay has arrived
    have hend := h.holds.readDiffs hrt.manifest hrt.path hrt.read
    rw [hok.resolve_right (not_not_intro hrsm)] at hend
    rw [← hseq] at hrsm
    refine ⟨_, sync_sequence hpos hrsm, ?_⟩
    rw [run_cons, run_catchUp h.byId rfl _ _ _ h.journaled]
    show replayEntries cols r'.client.store (t.j.entriesSince r'.client.lastSeq) = _
    rw [hseq, hst, ← h.bridge_head hrt]
    exact congrArg (replayEntries cols · _) hend
  · exact h.converges_full hpos hid (by rw [hseq]; exact hrsm) henv

end

/-- **A replay that broke off in a safe place converges**: the call made after any of the messages
that `SafeCut` lists brings the client to the rows of the server. -/
theorem interrupted_replay_converges (h : ColdServer w src positions tableAt a t c)
    (clientID : String) (r : Replica V)
    (hheld : r.client.store = tableAt r.client.lastSourcePosition)
    (hmissed : (redial w clientID r).positionResume t.j = none)
    (hcold : (redial w clientID r).cold fuel (some a) t.j = some (some cr))
    {received : List (SyncResponse V)}
    (hcut : SafeCut w (redial w clientID r) t.j cr received)
    (henv : Iterates env.rows t.store) :
    ∃ msgs, w.sync fuel (some a) t env (redial w clientID (r.run received)) = some msgs ∧
      ((r.run received).run msgs).client.store = t.store := by
  have hplan := h.plan_of_cold hcold
  obtain ⟨m, plan, start, hrt⟩ := h.route hplan
  cases hcut with
  | nothing => exact ⟨_, sync_cold hmissed hcold, h.run_replay rfl hplan hheld⟩
  | insideBase hspl hne hrest hold =>
    rcases hrt.base with ⟨-, hnone, -⟩ | ⟨snap, rows, -, -, -, -, hbase, -⟩
    · simp [coldBase, hnone, hne] at hspl
    simp only [coldBase, hbase] at hspl
    obtain ⟨hseq, hid, hpos⟩ := run_partial_base rfl r _ hspl hne hrest
    exact h.converges_full hpos hid (by rw [hseq]; exact hold) henv
  | afterBase hbase hok => exact h.converges_base rfl hrt hheld hbase hok henv
  | @afterDiff before after d hspl hne =>
    have hcarry := h.carries_changes hrt
    obtain ⟨-, -, -, -, -, hnamed, -, -, -, -, hstation⟩ := h.station hrt hspl
    rw [run_append]
    refine h.converges_diff hrt hspl ?_ ?_
    · rw [flatMap_append, run_append, flatMap_singleton]
      exact ((run_coldDiff h.byId rfl _ cr.resumeSeq d
        (hcarry d (by simp [hspl]))).2.2 hne hnamed).2
    · rw [run_coldDiffs_store h.byId rfl _ _ _ fun x hx => hcarry x ?_,
        h.run_base rfl hrt hheld, hstation]
      simp only [hspl, mem_append, mem_cons] at hx ⊢
      tauto

end

def decimals : SourcePositions Int where
  positionFromString q :=
    if q = "5" then some (some 5) else if q = "10" then some (some 10)
    else if q = "20" then some (some 20) else if q = "30" then some (some 30)
    else if q = "40" then some (some 40) else if q = "50" then some (some 50) else none
  order := .ofInt

def decimalWire : Wire Int Text where
  src := some decimals
  positionToString p :=
    if p = 10 then "10" else if p = 20 then "20" else if p = 30 then "30"
    else if p = 40 then "40" else "50"
  encode := some
  parses := by
    intro s p hs
    cases hs
    split_ifs <;> rfl

def fedTarget : Target Int Text :=
  fiveInserts.changes.foldl
    (fun t ch => (changeOp ch.2).apply (t.setChangePosition (some ch.1)) ⟨0, 0, []⟩) (emptyTarget 2)

def diffOf (start stop : String) : Artifact := ⟨.diff, 1, some start, stop, ["plain"]⟩

def insertOf (id : String) : Change Text :=
  ⟨.insert, id, none, some (rowWithId id)⟩

def archiveOf (diffs : List (Artifact × List (Change Text))) :
    Archive (Payload Text) Text where
  reader := plainReader
  destination :=
    { objects := diffs.foldl
        (fun objects d => objects.insert
          (artifactObjectKey plainReader.keyPrefix d.1 ".plain")
          (.changes d.2)) archiveAtTwenty.destination.objects
      manifest := some ⟨1, 1, "40", snapshotAtTwenty :: diffs.map Prod.fst⟩
      rev := 1 }

def oneDiff : List (Artifact × List (Change Text)) :=
  [(diffOf "20" "40", [insertOf "3", insertOf "4"])]

def twoDiffs : List (Artifact × List (Change Text)) :=
  [(diffOf "20" "30", [insertOf "3"]), (diffOf "30" "40", [insertOf "4"])]

def tableAtDecimal (q : String) : Store Text :=
  match decimals.positionFromString q with
  | some (some p) => fiveInserts.tableAt p
  | _ => ∅

lemma fedTarget_describes : Describes fiveInserts fedTarget 50 := by
  have h : Describes fiveInserts (emptyTarget 2) 0 := (Remembers.restored _ (by decide)).describes
  have h := h.change (show fiveInserts.IsNext 0 (10, .insert (rowWithId "1")) from
    ⟨mem_cons_self, by decide, by decide⟩) trivial ⟨0, 0, []⟩
  have h := h.change (show fiveInserts.IsNext 10 (20, .insert (rowWithId "2")) from
    ⟨by simp [fiveInserts], by decide, by decide⟩) trivial ⟨0, 0, []⟩
  have h := h.change (show fiveInserts.IsNext 20 (30, .insert (rowWithId "3")) from
    ⟨by simp [fiveInserts], by decide, by decide⟩) trivial ⟨0, 0, []⟩
  have h := h.change (show fiveInserts.IsNext 30 (40, .insert (rowWithId "4")) from
    ⟨by simp [fiveInserts], by decide, by decide⟩) trivial ⟨0, 0, []⟩
  exact h.change (show fiveInserts.IsNext 40 (50, .insert (rowWithId "5")) from
    ⟨by simp [fiveInserts], by decide, by decide⟩) trivial ⟨0, 0, []⟩

variable {diffs : List (Artifact × List (Change Text))}

lemma archived_artifact (hdiffs : diffs = oneDiff ∨ diffs = twoDiffs) {m : Manifest}
    (hm : loadManifest (archiveOf diffs).destination = .ok m) {art : Artifact}
    (hart : art ∈ m.artifacts) :
    diffs = oneDiff ∧ (art = snapshotAtTwenty ∨ art = diffOf "20" "40") ∨ diffs = twoDiffs ∧
        (art = snapshotAtTwenty ∨ art = diffOf "20" "30" ∨ art = diffOf "30" "40") := by
  cases hm
  rcases hdiffs with rfl | rfl
  · exact .inl ⟨rfl, by simpa [oneDiff] using hart⟩
  · exact .inr ⟨rfl, by simpa [twoDiffs] using hart⟩

lemma decimalWire_carries (id : String) : decimalWire.Carries (rowWithId id) :=
  ⟨rfl, rfl⟩

lemma decimalWire_carriesInsert (id : String) : decimalWire.CarriesChange (insertOf id) where
  new _ hrow := some.inj hrow ▸ decimalWire_carries id
  old := nofun

lemma coldServer_fed (hdiffs : diffs = oneDiff ∨ diffs = twoDiffs) :
    ColdServer decimalWire fiveInserts decimals tableAtDecimal (archiveOf diffs) fedTarget 50 where
  source := rfl
  order := rfl
  byId := by decide
  describes := fedTarget_describes
  holds := by
    refine ⟨?_, ?_, ?_⟩
    · intro m hm art hart hkind rows hrows
      rcases archived_artifact hdiffs hm hart with ⟨rfl, rfl | rfl⟩ | ⟨rfl, rfl | rfl | rfl⟩ <;>
        cases hkind <;> cases hrows <;> rfl
    · rintro m hm art hart start ⟨hkind, hst0⟩ changes hchs
      rcases archived_artifact hdiffs hm hart with ⟨rfl, rfl | rfl⟩ | ⟨rfl, rfl | rfl | rfl⟩ <;>
        cases hkind <;> cases hst0 <;> cases hchs <;> rfl
    · intro m hm art hart hkind
      rcases archived_artifact hdiffs hm hart with ⟨rfl, rfl | rfl⟩ | ⟨rfl, rfl | rfl | rfl⟩ <;>
        cases hkind <;> decide
  applied := by
    intro m hm art hart pos hpos
    obtain ⟨p, rfl, hle⟩ : ∃ p, pos = some p ∧ fiveInserts.order.Le p 50 := by
      simp only [decimals] at hpos
      split_ifs at hpos <;> cases hpos <;> exact ⟨_, rfl, by decide⟩
    exact ⟨p, rfl, hle, fun hnil => absurd hnil (by decide), by simp only [tableAtDecimal, hpos]⟩
  stored := by
    intro k row hrow
    have hmem : (k, row) ∈ fedTarget.store.toList :=
      Std.ExtTreeMap.mem_toList_iff_getElem?_eq_some.mpr hrow
    have hall : ∀ kr ∈ fedTarget.store.toList, kr.2["id"]?.isSome := by decide +kernel
    exact ⟨hall _ hmem, rfl⟩
  journaled := by
    have hall : ∀ e ∈ fedTarget.j.entries, (∀ row ∈ e.newValues, row["id"]?.isSome) ∧
        e.oldValues = none := by decide +kernel
    intro e he
    obtain ⟨hnew, hold⟩ := hall e he
    exact ⟨fun row hrow => ⟨hnew row hrow, rfl⟩, fun row hrow => by simp [hold] at hrow⟩
  rows := by
    intro m hm art hart rows hrows
    rcases archived_artifact hdiffs hm hart with ⟨rfl, rfl | rfl⟩ | ⟨rfl, rfl | rfl | rfl⟩ <;>
      cases hrows <;> simp [decimalWire_carries]
  changes := by
    intro m hm art hart changes hchs
    rcases archived_artifact hdiffs hm hart with ⟨rfl, rfl | rfl⟩ | ⟨rfl, rfl | rfl | rfl⟩ <;>
      cases hchs <;> simp [decimalWire_carriesInsert]
  ids := nofun

def replicaAtFive : Replica Text where
  client := ⟨∅, Keyed.empty, ∅, true, 0, "", "5", []⟩
  loading := false

def replayOf (diffs : List (ColdDiff Text)) : ColdReplay Text :=
  ⟨some ("archive-1", [rowWithId "1", rowWithId "2"]), diffs, 4⟩

def snapshotNow : SnapshotEnv Text := ⟨0, 0, 0, fedTarget.store.toList.map Prod.snd⟩

/-- The stream breaks between the two changes of a diff. The change that arrived has the end
position of the diff on it, from which the journal goes on: the other one, row 4, is never
sent. -/
theorem cut_inside_diff_loses_row :
    ∃ (cr : ColdReplay Text) (received rest msgs : List (SyncResponse Text)),
      ColdServer decimalWire fiveInserts decimals tableAtDecimal (archiveOf oneDiff) fedTarget 50 ∧
      replicaAtFive.client.store = tableAtDecimal replicaAtFive.client.lastSourcePosition ∧
      (redial decimalWire "replica-1" replicaAtFive).positionResume fedTarget.j = none ∧
      (redial decimalWire "replica-1" replicaAtFive).cold 2 (some (archiveOf oneDiff)) fedTarget.j =
        some (some cr) ∧
      decimalWire.streamColdReplay (redial decimalWire "replica-1" replicaAtFive) cr =
        received ++ rest ∧
      (replicaAtFive.run received).client.lastSourcePosition = "40" ∧
      decimalWire.sync 2 (some (archiveOf oneDiff)) fedTarget snapshotNow
        (redial decimalWire "replica-1" (replicaAtFive.run received)) = some msgs ∧
      ((replicaAtFive.run received).run msgs).client.store["4"]? = none ∧
      fedTarget.store["4"]? = some (rowWithId "4") := by
  exact ⟨replayOf [⟨"40", [insertOf "3", insertOf "4"]⟩],
    (decimalWire.streamColdReplay (redial decimalWire "replica-1" replicaAtFive)
      (replayOf [⟨"40", [insertOf "3", insertOf "4"]⟩])).take 5, _, _,
      coldServer_fed (.inl rfl), rfl,
    rfl, rfl, (take_append_drop 5 _).symm, rfl, rfl, rfl, rfl⟩

theorem interrupted_replay_resumes : ∃ (received msgs : List (SyncResponse Text)),
      received.length = 5 ∧
      (replicaAtFive.run received).client.lastSourcePosition = "30" ∧
      decimalWire.sync 3 (some (archiveOf twoDiffs)) fedTarget snapshotNow
        (redial decimalWire "replica-1" (replicaAtFive.run received)) = some msgs ∧
      ((replicaAtFive.run received).run msgs).client.store = fedTarget.store := by
  have hcold : (redial decimalWire "replica-1" replicaAtFive).cold 3 (some (archiveOf twoDiffs))
      fedTarget.j = some (some (replayOf [⟨"30", [insertOf "3"]⟩, ⟨"40", [insertOf "4"]⟩])) := rfl
  have hcut : SafeCut decimalWire (redial decimalWire "replica-1" replicaAtFive) fedTarget.j
      (replayOf [⟨"30", [insertOf "3"]⟩, ⟨"40", [insertOf "4"]⟩]) _ :=
    .afterDiff (rfl : _ = [] ++ _ :: _) nofun
  have henv : Iterates snapshotNow.rows fedTarget.store := List.Perm.refl _
  obtain ⟨msgs, hsync, hst⟩ := interrupted_replay_converges (coldServer_fed (.inr rfl))
    "replica-1" replicaAtFive rfl rfl hcold hcut henv
  exact ⟨_, msgs, rfl, rfl, hsync, hst⟩

end Laredo
