import Laredo.Client.Replica

/-!
# Handoff

The overlapping handoff of `client/fanout/client.go` (`run`, `drainInBackground`, `catchUp`): after
a GoAway the client applies the old stream and the new one side by side.
-/

namespace Laredo

open Replication Fanout KeyedMap List Option Journal Client

variable {P V : Type}

structure SourceChange (P V : Type) where
  position : P
  action : ChangeAction
  newValues : Option (Row V)
  oldValues : Option (Row V)

/-- The changes of a source in the order of their positions, and how positions are
printed. -/
structure SharedLog (P V : Type) where
  src : SourcePositions P
  positionToString : P → String
  printed : ∀ p, positionToString p ≠ ""
  round : ∀ p, src.positionFromString (positionToString p) = some (some p)
  changes : List (SourceChange P V)
  sorted : changes.Pairwise (fun a b => src.order.Le a.position b.position)

namespace SharedLog

variable (log : SharedLog P V)

/-- The change with index `i`, as sent by an instance that journaled the change with
index `first` as its first one. -/
def entry (first i : Nat) (ch : SourceChange P V) : ReplicationJournalEntry V where
  sequence := i - first + 1
  action := ch.action
  sourcePosition := log.positionToString ch.position
  newValues := ch.newValues
  oldValues := ch.oldValues

/-- An instance has journaled the changes from `first` up to `last`, and still retains
those from `oldest` on. -/
structure Journaled (first oldest last : Nat) (j : Journal P V) : Prop where
  first_le : first ≤ oldest
  oldest_le : oldest ≤ last
  last_le : last ≤ log.changes.length
  nextSeq : j.nextSeq = last - first + 1
  entries : j.entries.map (fun e => (e.position, e.action, e.newValues, e.oldValues)) =
    ((log.changes.take last).drop oldest).map
      fun ch => (some ch.position, ch.action, ch.newValues, ch.oldValues)

def call (req : SyncRequest) : Call P V where
  clientID := req.clientID
  lastKnownSequence := req.lastKnownSequence
  lastSnapshotId := req.lastSnapshotId
  lastKnownSourcePosition := req.lastKnownSourcePosition
  src := some log.src
  filter := none

lemma Journaled.resume_index {log : SharedLog P V} {first oldest last : Nat} {j : Journal P V}
    (hj : log.Journaled first oldest last j) {p : P} {seq : Int}
    (hseq : j.resumeSeqForPosition (some p) log.src.order.comparePositions = (seq, true)) :
    first + seq.toNat ≤ oldest ∨ ∃ i ch, first + seq.toNat = i + 1 ∧ i < last ∧
      log.changes[i]? = some ch ∧ log.src.order.Le ch.position p := by
  have hfst := hj.first_le
  have holdest := hj.oldest_le
  have hlast := hj.last_le
  have hlength : j.entries.length = last - oldest := by
    have hlen := congrArg List.length hj.entries
    rw [length_map, length_map, length_drop, length_take] at hlen
    omega
  have hst0 : j.firstSeq = oldest - first + 1 := by
    unfold Journal.firstSeq
    rw [hj.nextSeq, hlength]
    omega
  by_cases hne : j.entries = []
  · rw [resumeSeqForPosition_nil hne] at hseq
    obtain ⟨rfl⟩ := Prod.mk.inj hseq
    have hemp : last = oldest := by
      rw [hne, length_nil] at hlength
      omega
    refine .inl ?_
    unfold currentSequence
    rw [hj.nextSeq]
    omega
  · rcases (resumeSeqForPosition_spec hne hseq).2 with hnone | ⟨e, he, hat, rfl⟩
    · refine .inl ?_
      omega
    · -- the entry's place in the journal is its change's place in the log
      obtain ⟨t, ht⟩ := getElem?_of_mem he
      have htlen := (List.getElem?_eq_some_iff.mp ht).1
      have hnum : e.sequence = j.firstSeq + t :=
        j.contiguous.getElem?_eq (by rw [List.getElem?_map, ht]; rfl)
      have hlog := congrArg (fun l => l[t]?) hj.entries
      simp only [List.getElem?_map, ht, getElem?_drop, map_some] at hlog
      rw [getElem?_take_of_lt (by omega)] at hlog
      obtain ⟨ch, hch, hcontent⟩ := map_eq_some_iff.mp hlog.symm
      have hpos : e.position = some ch.position := (congrArg Prod.fst hcontent).symm
      refine .inr ⟨oldest + t, ch, by omega, by omega, hch, ?_⟩
      have hle := hat.2
      rw [hpos, log.src.order.comparePositions_some] at hle
      exact hle

end SharedLog

def replayChanges [GoValue V] (rows : Store V) (changes : List (SourceChange P V)) : Store V :=
  changes.foldl (fun rows ch =>
    Client.applyRows rows ⟨0, ch.action, "", ch.newValues, ch.oldValues⟩) rows

structure Handoff (V : Type) [GoValue V] where
  client : Client V
  old : Option Nat
  new : Option Nat
  applied : List Nat

namespace Handoff

variable [GoValue V]

inductive Label
  | old
  /-- The client dials an instance that retains the changes from `oldest` and has journaled
  those up to `last`. -/
  | dial (oldest last : Nat)
  | new
  | drop

def start (c : Client V) : Handoff V := ⟨c, some 0, none, []⟩

inductive Step (log : SharedLog P V) (firstOld firstNew : Nat) (clientID : String)
    (s : Handoff V) : Label → Handoff V → Prop
  | old {i : Nat} {ch : SourceChange P V} (hi : s.old = some i)
      (hch : log.changes[i]? = some ch) :
      Step log firstOld firstNew clientID s .old
        { s with
          client := (s.client.applyMessage (.journalEntry (log.entry firstOld i ch))).1
          old := some (i + 1)
          applied := i :: s.applied }
  | dial {oldest last : Nat} {j : Journal P V} {seq : Int} (hnew : s.new = none)
      (hj : log.Journaled firstNew oldest last j)
      (hseq : (log.call (s.client.dial clientID true)).positionResume j = some seq) :
      Step log firstOld firstNew clientID s (.dial oldest last)
        { s with new := some (firstNew + seq.toNat) }
  | new {i : Nat} {ch : SourceChange P V} (hi : s.new = some i)
      (hch : log.changes[i]? = some ch) :
      Step log firstOld firstNew clientID s .new
        { s with
          client := (s.client.applyMessage (.journalEntry (log.entry firstNew i ch))).1
          new := some (i + 1)
          applied := i :: s.applied }
  | drop {n : Nat} (hnew : s.new = some n) :
      Step log firstOld firstNew clientID s .drop { s with old := none }

/-- The streams take their turns: an entry is applied only if no later change has been;
whatever the new instance will not send again has been applied when the client dials; and
the old stream is dropped once the new one has sent all that was applied. -/
def InTurn (log : SharedLog P V) (s : Handoff V) : Label → Prop
  | .old => ∀ i, s.old = some i → ∀ k ∈ s.applied, k ≤ i
  | .new => ∀ i, s.new = some i → ∀ k ∈ s.applied, k ≤ i
  | .dial oldest last => ∀ i ch, i < last → log.changes[i]? = some ch →
      i < oldest ∨ (∃ p, s.client.lastSourcePosition = log.positionToString p ∧
        log.src.order.Le ch.position p) → i ∈ s.applied
  | .drop => ∀ n, s.new = some n → ∀ k ∈ s.applied, k < n

lemma applyRows_idem (rows : Store V) (e : ReplicationJournalEntry V) :
    Client.applyRows (Client.applyRows rows e) e = Client.applyRows rows e := by
  have hput : ∀ row : Row V, put Client.rowKey
      (put Client.rowKey rows row) row = put Client.rowKey rows row := by
    intro row
    refine Std.ExtTreeMap.ext_getElem? fun k => ?_
    rw [getElem?_put, getElem?_put]
    by_cases hk : Client.rowKey row = k
    · rw [if_pos hk, if_pos hk]
    · rw [if_neg hk]
  unfold Client.applyRows
  cases e.action with
  | insert | update =>
    cases e.newValues with
    | none => rfl
    | some row => exact hput row
  | delete =>
    cases e.oldValues with
    | none => rfl
    | some row =>
      refine Std.ExtTreeMap.ext_getElem? fun k => ?_
      rw [getElem?_erase, getElem?_erase]
      by_cases hk : Client.rowKey row = k
      · rw [if_pos hk, if_pos hk]
      · rw [if_neg hk]
  | truncate => rfl

lemma applyRows_entry (log : SharedLog P V) (first i : Nat) (ch : SourceChange P V)
    (rows : Store V) : Client.applyRows rows (log.entry first i ch) =
      Client.applyRows rows ⟨0, ch.action, "", ch.newValues, ch.oldValues⟩ := rfl

lemma replayChanges_take_succ (rows : Store V) {chs : List (SourceChange P V)} {i : Nat}
    {ch : SourceChange P V} (hch : chs[i]? = some ch) :
    replayChanges rows (chs.take (i + 1)) = Client.applyRows (replayChanges rows (chs.take i))
        ⟨0, ch.action, "", ch.newValues, ch.oldValues⟩ := by
  unfold replayChanges
  rw [take_add_one, hch, foldl_append]
  rfl

/-- The first `reached` changes have been applied, in order, and neither stream is past
them. -/
structure Caught (log : SharedLog P V) (base : Store V) (s : Handoff V) (reached : Nat) :
    Prop where
  applied : ∀ k, k ∈ s.applied ↔ k < reached
  le : reached ≤ log.changes.length
  store : s.client.store = replayChanges base (log.changes.take reached)
  fresh : reached = 0 → s.client.lastSourcePosition = ""
  position : ∀ i ch, reached = i + 1 → log.changes[i]? = some ch →
    s.client.lastSourcePosition = log.positionToString ch.position
  old : ∀ i, s.old = some i → i ≤ reached
  new : ∀ i, s.new = some i → i ≤ reached
  dropped : s.old = none → s.new = some reached

variable {log : SharedLog P V} {base : Store V} {s : Handoff V} {reached : Nat}

lemma Caught.deliver (h : s.Caught log base reached) (first : Nat) {i : Nat} {ch : SourceChange P V}
    (hle : i ≤ reached) (hturn : ∀ k ∈ s.applied, k ≤ i) (hch : log.changes[i]? = some ch) :
    (s.client.applyMessage (.journalEntry (log.entry first i ch))).1.store =
        replayChanges base (log.changes.take (i + 1)) ∧
      (s.client.applyMessage (.journalEntry (log.entry first i ch))).1.lastSourcePosition =
        log.positionToString ch.position ∧
      (∀ k, k ∈ i :: s.applied ↔ k < i + 1) ∧ reached ≤ i + 1 ∧
      i + 1 ≤ log.changes.length := by
  have hlast : reached ≤ i + 1 := by
    by_contra hgt
    have hk := hturn (i + 1) ((h.applied _).mpr (by omega))
    omega
  refine ⟨?_, ?_, ?_, hlast, (List.getElem?_eq_some_iff.mp hch).1⟩
  · show (s.client.applyJournalEntry (log.entry first i ch)).1.store = _
    rw [store_applyJournalEntry, applyRows_entry, h.store, replayChanges_take_succ base hch]
    rcases Nat.lt_or_eq_of_le hle with hlt | rfl
    · obtain rfl : reached = i + 1 := by omega
      rw [replayChanges_take_succ base hch, applyRows_idem]
    · rfl
  · show (s.client.applyJournalEntry (log.entry first i ch)).1.lastSourcePosition = _
    rw [lastSourcePosition_applyJournalEntry]
    exact if_pos (log.printed ch.position)
  · intro k
    rw [mem_cons, h.applied]
    omega

lemma Caught.dial (h : s.Caught log base reached) {first oldest last : Nat} {j : Journal P V}
    {cid : String} {seq : Int} (hnew : s.new = none)
    (hj : log.Journaled first oldest last j)
    (hseq : (log.call (s.client.dial cid true)).positionResume j = some seq)
    (hok : s.InTurn log (.dial oldest last)) :
    Caught log base { s with new := some (first + seq.toNat) } reached := by
  obtain ⟨src, pos, hsrc, hne, hprs, hres⟩ := Call.positionResume_inv hseq
  obtain rfl : src = log.src := (some.inj hsrc).symm
  have hhl : s.client.lastSourcePosition ≠ "" := hne
  -- the client holds the position of the last change applied
  have hpos : reached ≠ 0 := fun hzero => hhl (h.fresh hzero)
  obtain ⟨i₀, rfl⟩ := Nat.exists_eq_succ_of_ne_zero hpos
  have hch₀ : log.changes[i₀]? = some _ := getElem?_eq_getElem h.le
  have hposi := h.position i₀ _ rfl hch₀
  have hread : log.src.positionFromString s.client.lastSourcePosition = some pos := hprs
  rw [hposi, log.round] at hread
  cases hread
  have hbd : first + seq.toNat ≤ i₀ + 1 := by
    rcases hj.resume_index hres with hbef | ⟨i, ch, hi, hilast, hch, hle⟩
    · by_contra hgt
      -- a change the new instance has dropped and the client lacks
      have holdest := hj.oldest_le
      have hlast := hj.last_le
      have hmem := hok (i₀ + 1) _ (by omega) (getElem?_eq_getElem (by omega)) (.inl (by omega))
      have hlt := (h.applied _).mp hmem
      omega
    · have hmem := hok i ch hilast hch (.inr ⟨_, hposi, hle⟩)
      have hlt := (h.applied _).mp hmem
      omega
  refine ⟨h.applied, h.le, h.store, h.fresh, h.position, h.old, ?_, ?_⟩
  · intro n hn
    cases hn
    exact hbd
  · intro hdrop
    have hsome := h.dropped hdrop
    rw [hnew] at hsome
    cases hsome

lemma Caught.step {s' : Handoff V} {l : Label} {firstOld firstNew : Nat} {cid : String}
    (h : s.Caught log base reached) (hok : s.InTurn log l)
    (hs : Step log firstOld firstNew cid s l s') :
    ∃ reached', s'.Caught log base reached' := by
  cases hs with
  | @old i ch hi hch =>
    obtain ⟨hst, hpos, happ, hge, hlen⟩ := h.deliver firstOld (h.old i hi) (hok i hi) hch
    refine ⟨i + 1, happ, hlen, hst, fun hz => absurd hz (by omega), ?_, ?_, ?_, nofun⟩
    · intro k ch' hk hch'
      obtain rfl : i = k := by omega
      rw [hch] at hch'
      cases hch'
      exact hpos
    · intro k hk
      cases hk
      exact Nat.le_refl _
    · intro k hk
      exact Nat.le_trans (h.new k hk) hge
  | dial hnew hj hseq => exact ⟨reached, h.dial hnew hj hseq hok⟩
  | @new i ch hi hch =>
    obtain ⟨hst, hpos, happ, hge, hlen⟩ := h.deliver firstNew (h.new i hi) (hok i hi) hch
    refine ⟨i + 1, happ, hlen, hst, fun hz => absurd hz (by omega), ?_, ?_, ?_, ?_⟩
    · intro k ch' hk hch'
      obtain rfl : i = k := by omega
      rw [hch] at hch'
      cases hch'
      exact hpos
    · intro k hk
      exact Nat.le_trans (h.old k hk) hge
    · intro k hk
      cases hk
      exact Nat.le_refl _
    · intro _
      rfl
  | @drop n hnew =>
    refine ⟨reached, h.applied, h.le, h.store, h.fresh, h.position, nofun, h.new, ?_⟩
    intro _
    have hle := h.new n hnew
    have hge : reached ≤ n := by
      by_contra hgt
      have hk := hok n hnew n ((h.applied n).mpr (by omega))
      omega
    rw [show reached = n by omega]
    exact hnew

lemma filter_eq_take {α : Type} {l : List α} {q : α → Bool} {n : Nat}
    (h : ∀ i x, l[i]? = some x → (i < n ↔ q x = true)) : l.filter q = l.take n := by
  induction l generalizing n with
  | nil => simp
  | cons x l ih =>
    have hx := h 0 x rfl
    cases n with
    | zero =>
      rw [take_zero, filter_eq_nil_iff]
      intro y hy hq
      obtain ⟨i, hi⟩ := getElem?_of_mem hy
      exact Nat.not_lt_zero i ((h i y hi).mpr hq)
    | succ n =>
      rw [take_succ_cons, filter_cons_of_pos (hx.mp (Nat.succ_pos n))]
      refine congrArg (x :: ·) (ih fun i y hi => ?_)
      rw [← h (i + 1) y hi]
      omega

/-- **A handoff is safe when the streams take their turns.** The client's position is never below
that of a change already applied; and once the new stream has delivered the changes up to `p`, the
rows are those after them. -/
theorem handoff_in_turn (log : SharedLog P V) (firstOld firstNew : Nat) (clientID : String)
    (c : Client V) (hfresh : c.lastSourcePosition = "") {s : Handoff V}
    (hreach : Transition.Reach (Step log firstOld firstNew clientID) (InTurn log) (start c) s) :
    (∀ k ∈ s.applied, ∀ ch, log.changes[k]? = some ch →
      ∃ p, s.client.lastSourcePosition = log.positionToString p ∧ log.src.order.Le ch.position p) ∧
    ∀ n p, s.old = none → s.new = some n →
      (∀ i ch, log.changes[i]? = some ch → (i < n ↔ log.src.order.Le ch.position p)) →
      s.client.store = replayChanges c.store
        (log.changes.filter fun ch => decide (log.src.order.Le ch.position p)) := by
  have hinv : ∃ reached, s.Caught log c.store reached := by
    have hst0 : (start c).Caught log c.store 0 := by
      refine ⟨by simp [start], Nat.zero_le _, rfl, fun _ => hfresh, nofun, ?_, nofun, nofun⟩
      intro i hi
      cases hi
      exact Nat.le_refl 0
    refine hreach.invariant (fun s => ∃ reached, s.Caught log c.store reached) ⟨0, hst0⟩ ?_
    intro s₁ s₂ l hinv hok hs
    obtain ⟨reached, h⟩ := hinv
    exact h.step hok hs
  obtain ⟨reached, h⟩ := hinv
  refine ⟨?_, ?_⟩
  · intro k hk ch hch
    have hlt := (h.applied k).mp hk
    obtain ⟨i, rfl⟩ := Nat.exists_eq_succ_of_ne_zero (show reached ≠ 0 by omega)
    have hlast : log.changes[i]? = some _ := getElem?_eq_getElem h.le
    refine ⟨_, h.position i _ rfl hlast, ?_⟩
    rcases Nat.lt_or_eq_of_le (Nat.le_of_lt_succ hlt) with hki | rfl
    · obtain ⟨hk', rfl⟩ := List.getElem?_eq_some_iff.mp hch
      exact pairwise_iff_getElem.mp log.sorted k i hk' h.le hki
    · rw [hch] at hlast
      rw [← some.inj hlast]
      exact Comparator.Le.refl _ _
  · intro n p hold hnew hspl
    have hn : n = reached := by
      have hdrop := h.dropped hold
      rw [hnew] at hdrop
      exact some.inj hdrop
    rw [h.store, ← hn, filter_eq_take (n := n)]
    intro i ch hch
    rw [hspl i ch hch, decide_eq_true_iff]

def lsns : SourcePositions (Fin 3) where
  positionFromString
    | "0/10" => some (some 0)
    | "0/20" => some (some 1)
    | "0/30" => some (some 2)
    | _ => none
  order :=
    { cmp := fun a b => (a.val : Int) - b.val
      swap := by omega
      trans := by omega
      comparePositions := fun a b =>
        match a, b with
        | some a, some b => (a.val : Int) - b.val
        | _, _ => 0
      comparePositions_some := fun _ _ => rfl }

def version (v : String) : Row Text := .ofList [("id", some "1"), ("v", some v)]

def versions : SharedLog (Fin 3) Text where
  src := lsns
  positionToString
    | 0 => "0/10"
    | 1 => "0/20"
    | 2 => "0/30"
  printed := by decide
  round := by decide
  changes := [⟨0, .insert, some (version "a"), none⟩,
    ⟨1, .update, some (version "b"), some (version "a")⟩,
    ⟨2, .update, some (version "c"), some (version "b")⟩]
  sorted := by decide

def versionsJournal : Journal (Fin 3) Text :=
  (((Journal.newJournal 0 0).append ⟨0, 0, []⟩ .insert none (some (version "a")) (some 0)).append
    ⟨0, 0, []⟩ .update (some (version "a")) (some (version "b")) (some 1)).append
    ⟨0, 0, []⟩ .update (some (version "b")) (some (version "c")) (some 2)

lemma versionsJournal_journaled : versions.Journaled 0 0 3 versionsJournal :=
  ⟨Nat.le_refl 0, by decide, by decide, rfl, rfl⟩

/-- The old stream delivers the second version after the new one has delivered all three: the row is
back to its second version, and so is the client's position. -/
theorem handoff_returns_to_older_version : ∃ s : Handoff Text,
      Transition.Run (Step versions 0 0 "replica-1") (start (Client.new [])) s ∧
      s.old = none ∧ s.new = some 3 ∧ 2 ∈ s.applied ∧
      s.client.lastSourcePosition = "0/20" ∧
      s.client.store["1"]?.map (·.get "v") = some (some "b") := by
  have h : Transition.Run (Step versions 0 0 "replica-1")
      (start (Client.new [])) _ := .refl _
  have h := h.snoc (.old rfl rfl)
  have h := h.snoc (.dial rfl versionsJournal_journaled
    (by decide +kernel : (versions.call _).positionResume _ = some 1))
  have h := h.snoc (.new rfl rfl)
  have h := h.snoc (.new rfl rfl)
  have h := h.snoc (.old rfl rfl)
  have h := h.snoc (.drop rfl)
  exact ⟨_, h, rfl, rfl, by decide, by decide +kernel, by decide +kernel⟩

theorem handoff_in_turn_run : ∃ s : Handoff Text,
      s.applied = [2, 1, 1, 0] ∧ s.old = none ∧ s.new = some 3 ∧
      (∀ k ∈ s.applied, ∀ ch, versions.changes[k]? = some ch →
        ∃ p, s.client.lastSourcePosition = versions.positionToString p ∧
          lsns.order.Le ch.position p) ∧
      s.client.store = replayChanges (∅ : Store Text)
        (versions.changes.filter fun ch => decide (lsns.order.Le ch.position 2)) := by
  have h : Transition.Reach (Step versions 0 0 "replica-1") (InTurn versions)
      (start (Client.new [])) _ := .refl _
  have h := h.snoc (.old rfl rfl)
  have h := h.snoc (.dial rfl versionsJournal_journaled
    (by decide +kernel : (versions.call _).positionResume _ = some 1)) ?_
  · have h := h.snoc (.old rfl rfl) fun i hi => by cases hi; decide
    have h := h.snoc (.new rfl rfl) fun i hi => by cases hi; decide
    have h := h.snoc (.new rfl rfl) fun i hi => by cases hi; decide
    have h := h.snoc (.drop rfl) fun i hi => by cases hi; decide
    have hall := handoff_in_turn versions 0 0 "replica-1" (Client.new []) rfl h
    refine ⟨_, rfl, rfl, rfl, hall.1, hall.2 3 2 rfl rfl ?_⟩
    intro i ch hch
    have hle : ∀ p : Fin 3, lsns.order.Le p 2 := by decide
    exact iff_of_true (List.getElem?_eq_some_iff.mp hch).1 (hle ch.position)
  · -- only the first change is at or before the client's position
    intro i ch hi hch hcase
    rcases hcase with hnone | ⟨p, hp, hle⟩
    · cases hnone
    · obtain rfl : p = 0 := by
        have hprints : ∀ p, "0/10" = versions.positionToString p → p = 0 := by decide
        refine hprints p ?_
        rw [← hp]
        decide +kernel
      have hfst : ∀ i : Fin 3, lsns.order.Le (versions.changes.get i).position 0 → i = 0 := by
        decide
      obtain ⟨hlen, rfl⟩ := List.getElem?_eq_some_iff.mp hch
      have hzero := congrArg Fin.val (hfst ⟨i, hi⟩ hle)
      rw [show i = 0 from hzero]
      exact mem_cons_self

end Handoff

end Laredo
