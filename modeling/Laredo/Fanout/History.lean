import Mathlib.Data.List.Forall2
import Laredo.Lib.Transition
import Laredo.Fanout.Clients
import Laredo.Fanout.Resume

/-!
# History

The journal of the fan-out target over whole sequences of calls (`target/fanout/journal.go`),
beside the list of everything that was ever appended.
-/

namespace Laredo.Fanout

open JournalEntry Transition Comparator List Option Journal

variable {P V : Type}

inductive JournalCall (P V : Type)
  | append (env : AppendEnv) (action : ChangeAction) (oldValues newValues : Option (Row V))
      (position : Option P)
  | pin (clientID : String) (seq : Int)
  | unpin (clientID : String)
  | backfillNilPositions (position : Option P)

structure Chronicle (P V : Type) where
  journal : Journal P V
  history : List (JournalEntry P V)

def Chronicle.new (maxEntries maxAge : Int) : Chronicle P V :=
  ⟨Journal.newJournal maxEntries maxAge, []⟩

def AppendEnv.Lists (env : AppendEnv) (j : Journal P V) : Prop :=
  ∀ seq, seq ∈ env.pinOrder ↔ ∃ id : String, j.pins[id]? = some seq

inductive JournalStep (h : Chronicle P V) : JournalCall P V → Chronicle P V → Prop
  | append (env : AppendEnv) (action : ChangeAction) (oldValues newValues : Option (Row V))
      (position : Option P) (hpins : env.Lists h.journal) :
      JournalStep h (.append env action oldValues newValues position)
        ⟨h.journal.append env action oldValues newValues position,
          h.history ++ [⟨h.journal.nextSeq, env.stamp, action, oldValues, newValues, position⟩]⟩
  | pin (clientID : String) (seq : Int) :
      JournalStep h (.pin clientID seq) { h with journal := h.journal.pin clientID seq }
  | unpin (clientID : String) :
      JournalStep h (.unpin clientID) { h with journal := h.journal.unpin clientID }
  | backfillNilPositions (position : Option P) :
      JournalStep h (.backfillNilPositions position)
        { h with journal := h.journal.backfillNilPositions position }

def Timely (h : Chronicle P V) : JournalCall P V → Prop
  | .append env _ _ _ _ => 0 < h.journal.maxAge → env.now - env.stamp < h.journal.maxAge
  | _ => True

namespace Journal

variable {minPin : Int} {e : JournalEntry P V}

lemma countExpired_snoc_le {cutoff : Int} (es : List (JournalEntry P V))
    (hyoung : cutoff ≤ e.timestamp) :
    countExpired cutoff minPin (es ++ [e]) ≤ es.length := by
  induction es with
  | nil =>
    rw [nil_append, countExpired, if_neg (by omega)]
    exact Nat.le_refl 0
  | cons e' es ih =>
    rw [cons_append, countExpired]
    split_ifs
    · exact Nat.zero_le _
    · exact Nat.succ_le_succ ih
    · exact Nat.zero_le _

lemma pruneByAge_snoc {maxAge now : Int} (es : List (JournalEntry P V))
    (hyoung : 0 < maxAge → now - maxAge ≤ e.timestamp) :
    pruneByAge maxAge minPin now (es ++ [e]) ≠ [] := by
  unfold pruneByAge
  split
  · next hage =>
      have hle : countExpired (now - maxAge) minPin (es ++ [e]) ≤ es.length :=
        countExpired_snoc_le es (hyoung hage)
      simpa using Nat.lt_succ_of_le hle
  · simp

lemma countBeforePin_add_le (maxEntries minPin : Int) (es : List (JournalEntry P V)) :
    countBeforePin maxEntries minPin es = 0 ∨
      countBeforePin maxEntries minPin es + maxEntries ≤ es.length := by
  induction es with
  | nil => exact .inl rfl
  | cons e es ih =>
    unfold countBeforePin
    split
    · next hgo =>
        right
        simp only [length_cons] at hgo ⊢
        omega
    · exact .inl rfl

lemma pruneEntries_snoc {maxEntries maxAge now : Int} (es : List (JournalEntry P V))
    (hyoung : 0 < maxAge → now - maxAge ≤ e.timestamp) :
    pruneEntries maxEntries maxAge minPin now (es ++ [e]) ≠ [] := by
  -- dropping the excess leaves the new entry in place
  have hdrop : 0 < maxEntries → maxEntries < (es ++ [e]).length → ∀ n,
      n ≤ ((es ++ [e]).length - maxEntries).toNat →
      pruneByAge maxAge minPin now ((es ++ [e]).drop n) ≠ [] := by
    intro hmax hlen n hn
    rw [drop_append_of_le_length (by simp at hn hlen; omega)]
    exact pruneByAge_snoc _ hyoung
  unfold pruneEntries
  dsimp only
  split_ifs with hsize
  · have hle := countBeforePin_add_le maxEntries minPin (es ++ [e])
    simp
    simp at hsize hle
    omega
  · exact hdrop hsize.1 hsize.2 _ (drainExcess_le _ _ _)
  · exact hdrop hsize.1 hsize.2 _ (Nat.le_refl _)
  · exact pruneByAge_snoc _ hyoung

variable {j : Journal P V} {env : AppendEnv} {action : ChangeAction}
  {old new : Option (Row V)} {pos : Option P}

lemma entries_append_ne_nil (htimely : 0 < j.maxAge → env.now - env.stamp < j.maxAge) :
    (j.append env action old new pos).entries ≠ [] := by
  rw [entries_append_eq, entries_push]
  exact pruneEntries_snoc _ fun hage => by
    have hlt := htimely hage
    show env.now - j.maxAge ≤ env.stamp
    omega

lemma length_append_le (hpins : env.pinOrder = []) (hmax : 0 < j.maxEntries) :
    ((j.append env action old new pos).entries.length : Int) ≤ j.maxEntries := by
  have hlen : ((j.append env action old new pos).entries.length : Int) =
      j.nextSeq + 1 - (j.append env action old new pos).firstSeq := by
    rw [firstSeq, nextSeq_append]
    omega
  rw [hlen]
  by_cases hfits : j.Fits
  · rw [firstSeq_append_of_fits j env action old new pos hfits, firstSeq]
    unfold Fits at hfits
    omega
  · rw [firstSeq_append_of_reached j env action old new pos hfits
      (by simp [hpins, lowestPin])]
    omega

end Journal

def JournalEntry.MadeFrom (appended e : JournalEntry P V) : Prop :=
  e = appended ∨ ∃ p, e = appended.backfill p

namespace JournalEntry

variable {appended : JournalEntry P V}

lemma MadeFrom.sequence {e : JournalEntry P V} (h : MadeFrom appended e) :
    e.sequence = appended.sequence := by
  rcases h with rfl | ⟨p, rfl⟩
  · rfl
  · simp

lemma backfill_backfill (e : JournalEntry P V) (p q : P) :
    (e.backfill p).backfill q = e.backfill p := by
  cases hpos : e.position <;> simp [backfill, hpos]

lemma MadeFrom.backfill {e : JournalEntry P V} (h : MadeFrom appended e) (q : P) :
    MadeFrom appended (e.backfill q) := by
  rcases h with rfl | ⟨p, rfl⟩
  · exact .inr ⟨q, rfl⟩
  · exact .inr ⟨p, backfill_backfill _ p q⟩

lemma eq_of_madeFrom {appended entries : List (JournalEntry P V)}
    (h : List.Forall₂ MadeFrom appended entries) (hsome : ∀ e ∈ appended, e.position.isSome) :
    appended = entries := by
  induction h with
  | nil => rfl
  | @cons a e appended entries hfrom _ ih =>
    have hsame : a = e := by
      rcases hfrom with rfl | ⟨p, rfl⟩
      · rfl
      · obtain ⟨q, hq⟩ := isSome_iff_exists.mp (hsome a mem_cons_self)
        simp [backfill, hq]
    rw [hsame, ih fun e he => hsome e (mem_cons_of_mem _ he)]

end JournalEntry

namespace Chronicle

variable {h h' : Chronicle P V} {call : JournalCall P V}

structure Kept (h : Chronicle P V) : Prop where
  numbered : Consec 1 (h.history.map (·.sequence))
  next : h.journal.nextSeq = h.history.length + 1
  retained : ∃ pruned kept, h.history = pruned ++ kept ∧
    List.Forall₂ MadeFrom kept h.journal.entries

lemma kept_new (maxEntries maxAge : Int) : (new maxEntries maxAge : Chronicle P V).Kept :=
  ⟨trivial, rfl, [], [], rfl, .nil⟩

lemma Kept.step (hk : h.Kept) (hstep : JournalStep h call h') : h'.Kept := by
  obtain ⟨pruned, kept, hhist, hmade⟩ := hk.retained
  cases hstep with
  | append env action old new pos hpins =>
    obtain ⟨k, -, heq⟩ := h.journal.entries_append env action old new pos
    refine ⟨?_, ?_, ?_⟩
    · rw [map_append]
      refine hk.numbered.snoc ?_
      have hnext := hk.next
      rw [length_map]
      show h.journal.nextSeq = _
      omega
    · show h.journal.nextSeq + 1 = _
      rw [hk.next, length_append, length_singleton]
      push_cast
      omega
    · let new : JournalEntry P V :=
        ⟨h.journal.nextSeq, env.stamp, action, old, new, pos⟩
      refine ⟨pruned ++ (kept ++ [new]).take k, (kept ++ [new]).drop k, ?_, ?_⟩
      · rw [append_assoc, take_append_drop, ← append_assoc, ← hhist]
      · rw [heq, Journal.entries_push]
        exact forall₂_drop k (rel_append hmade (.cons (.inl rfl) .nil))
  | pin id seq | unpin id => exact ⟨hk.numbered, hk.next, pruned, kept, hhist, hmade⟩
  | backfillNilPositions pos =>
    cases pos with
    | none => exact hk
    | some p =>
      refine ⟨hk.numbered, hk.next, pruned, kept, hhist, ?_⟩
      rw [Journal.backfillNilPositions, forall₂_map_right_iff]
      exact hmade.imp fun _ _ hfrom => hfrom.backfill p

variable {ok : Chronicle P V → JournalCall P V → Prop} {maxEntries maxAge : Int}

lemma kept_of_reach (hrun : Reach JournalStep ok (new maxEntries maxAge) h) : h.Kept :=
  hrun.invariant Kept (kept_new _ _) fun hk _ hstep => hk.step hstep

lemma Kept.firstSeq {pruned kept : List (JournalEntry P V)} (hk : h.Kept)
    (hhist : h.history = pruned ++ kept)
    (hmade : List.Forall₂ MadeFrom kept h.journal.entries) :
    h.journal.firstSeq = pruned.length + 1 := by
  have hlen := hmade.length_eq
  have hnext := hk.next
  rw [hhist, length_append] at hnext
  unfold Journal.firstSeq
  omega

lemma Kept.entriesSince (hk : h.Kept) {seq : Int} (hretains : h.journal.Retains seq) :
    List.Forall₂ MadeFrom
      (h.history.filter fun e => decide (seq < e.sequence)) (h.journal.entriesSince seq) := by
  obtain ⟨pruned, kept, hhist, hmade⟩ := hk.retained
  have hfst := hk.firstSeq hhist hmade
  unfold Journal.Retains at hretains
  have hkept : h.history.drop pruned.length = kept := by rw [hhist, drop_left]
  have hpast := Consec.filter_gt_drop (a := seq) (k := pruned.length)
    (fun e : JournalEntry P V => e.sequence) hk.numbered (by omega)
  rw [hkept] at hpast
  rw [← hpast]
  refine rel_filter ?_ hmade
  intro a b hfrom
  simp [MadeFrom.sequence hfrom]

lemma nonempty_step (hne : h.history ≠ [] → h.journal.entries ≠ []) (hok : Timely h call)
    (hstep : JournalStep h call h') : h'.history ≠ [] → h'.journal.entries ≠ [] := by
  cases hstep with
  | append env action old new pos hpins =>
    exact fun _ => Journal.entries_append_ne_nil hok
  | pin id seq => exact hne
  | unpin id => exact hne
  | backfillNilPositions pos =>
    cases pos with
    | none => exact hne
    | some p => simpa [Journal.backfillNilPositions] using hne

lemma nonempty_of_reach (htimely : ∀ h c, ok h c → Timely h c)
    (hrun : Reach JournalStep ok (new maxEntries maxAge) h) :
    h.history ≠ [] → h.journal.entries ≠ [] :=
  hrun.invariant (fun h => h.history ≠ [] → h.journal.entries ≠ []) (fun hne => absurd rfl hne)
    fun hne hok hstep => nonempty_step hne (htimely _ _ hok) hstep

lemma maxEntries_of_reach (hrun : Reach JournalStep ok (new maxEntries maxAge) h) :
    h.journal.maxEntries = maxEntries := by
  refine hrun.invariant (fun h => h.journal.maxEntries = maxEntries) rfl ?_
  intro h h' call hsame hok hstep
  cases hstep with
  | backfillNilPositions position => cases position <;> exact hsame
  | _ => exact hsame

end Chronicle

/-- **The journal is a contiguous bounded suffix of its history**, for every sequence of calls with
a clock that advances by less than the age limit within an append. -/
theorem journal_is_history_suffix {maxEntries maxAge : Int} {h : Chronicle P V}
    (hrun : Reach JournalStep Timely (.new maxEntries maxAge) h) :
    (∃ first, Consec first (h.journal.entries.map (·.sequence)) ∧
      first + h.journal.entries.length = h.journal.currentSequence + 1) ∧
    (Consec 1 (h.history.map (·.sequence)) ∧ (h.history.length : Int) = h.journal.currentSequence) ∧
    (∃ pruned kept, h.history = pruned ++ kept ∧
      List.Forall₂ MadeFrom kept h.journal.entries) ∧
    (∀ afterSeq, h.journal.oldestSequence - 1 ≤ afterSeq → List.Forall₂ MadeFrom
        (h.history.filter fun e => decide (afterSeq < e.sequence))
        (h.journal.entriesSince afterSeq)) ∧
    ∀ (env : AppendEnv) action oldValues newValues position, env.Lists h.journal →
      h.journal.pins = ∅ → 0 < maxEntries →
      ((h.journal.append env action oldValues newValues position).entries.length : Int) ≤
        maxEntries := by
  have hk := Chronicle.kept_of_reach hrun
  have hne := Chronicle.nonempty_of_reach (fun _ _ => id) hrun
  have hnext := hk.next
  refine ⟨⟨h.journal.firstSeq, h.journal.contiguous, ?_⟩, ⟨hk.numbered, ?_⟩, hk.retained, ?_, ?_⟩
  · unfold Journal.firstSeq currentSequence
    omega
  · unfold currentSequence
    omega
  · intro afterSeq haft
    by_cases hemp : h.journal.entries = []
    · have hhist : h.history = [] := by
        by_contra hhist
        exact hne hhist hemp
      simp [Journal.entriesSince, hemp, hhist]
    · rw [oldestSequence_eq_firstSeq hemp] at haft
      refine hk.entriesSince ?_
      unfold Journal.Retains
      omega
  · intro env action oldValues newValues position hlists hpins hmax
    have horder : env.pinOrder = [] := eq_nil_iff_forall_not_mem.mpr fun seq hseq => by
      obtain ⟨id, hid⟩ := (hlists seq).mp hseq
      simp [hpins] at hid
    have hlim := Chronicle.maxEntries_of_reach hrun
    rw [← hlim] at hmax ⊢
    exact Journal.length_append_le horder hmax

lemma AppendEnv.Lists.nil {j : Journal P V} (hpins : j.pins = ∅) (stamp now : Int) :
    (⟨stamp, now, []⟩ : AppendEnv).Lists j := by
  simp [AppendEnv.Lists, hpins]

theorem journal_is_history_suffix_run : ∃ h : Chronicle Int Text,
    Reach JournalStep Timely (.new 2 10) h ∧
    h.journal.entries.map (·.sequence) = [2, 3] ∧
    List.Forall₂ MadeFrom (h.history.filter fun e => decide (1 < e.sequence))
      (h.journal.entriesSince 1) := by
  have h : Reach JournalStep Timely (.new 2 10 : Chronicle Int Text) _ :=
    .refl _
  have h := h
    |>.snoc (.append ⟨1, 1, []⟩ .insert none (some ∅) none (.nil rfl 1 1))
    |>.snoc (.append ⟨2, 3, []⟩ .insert none (some ∅) none (.nil rfl 2 3))
    |>.snoc (.backfillNilPositions (some 2))
    |>.snoc (.append ⟨3, 3, []⟩ .delete (some ∅) none (some 3) (.nil rfl 3 3))
  exact ⟨_, h, rfl, (journal_is_history_suffix h).2.2.2.1 1 (by decide)⟩

def Ascending (order : PositionOrder P) (h : Chronicle P V) : JournalCall P V → Prop
  | .append _ _ _ _ position => ∃ p, position = some p ∧
      ∀ e ∈ h.history, ∀ q, e.position = some q → order.Le q p
  | _ => True

def JournalEntry.isPast (order : PositionOrder P) (p : P) (e : JournalEntry P V) : Bool :=
  e.position.any fun q => decide (order.Lt p q)

structure Chronicle.Sorted (order : PositionOrder P) (h : Chronicle P V) : Prop where
  isSome : ∀ e ∈ h.history, e.position.isSome
  sorted : h.history.Pairwise fun e e' =>
    ∀ q q', e.position = some q → e'.position = some q' → order.Le q q'

namespace Chronicle

variable {order : PositionOrder P} {h h' : Chronicle P V} {call : JournalCall P V}

lemma Sorted.step (hs : h.Sorted order) (hok : Ascending order h call)
    (hstep : JournalStep h call h') : h'.Sorted order := by
  cases hstep with
  | append env action old new pos hpins =>
    obtain ⟨p, rfl, hle⟩ := hok
    refine ⟨?_, pairwise_append.mpr ⟨hs.sorted, pairwise_singleton _ _, ?_⟩⟩
    · intro e he
      rcases mem_append.mp he with he | he
      · exact hs.isSome e he
      · obtain rfl := mem_singleton.mp he
        rfl
    · intro e he e' he' q q' hq hq'
      obtain rfl := mem_singleton.mp he'
      cases hq'
      exact hle e he q hq
  | _ => exact ⟨hs.isSome, hs.sorted⟩

lemma Sorted.history_eq (hs : h.Sorted order) (hk : h.Kept) :
    ∃ pruned, h.history = pruned ++ h.journal.entries := by
  obtain ⟨pruned, kept, hhist, hmade⟩ := hk.retained
  have hsome : ∀ e ∈ kept, e.position.isSome := by
    intro e he
    refine hs.isSome e ?_
    rw [hhist]
    exact mem_append_right _ he
  rw [eq_of_madeFrom hmade hsome] at hhist
  exact ⟨pruned, hhist⟩

variable {e : JournalEntry P V}

lemma Sorted.le_of_sequence_le (hs : h.Sorted order) (hk : h.Kept) {e' : JournalEntry P V}
    {q q' : P} (he : e ∈ h.history) (he' : e' ∈ h.history) (hq : e.position = some q)
    (hq' : e'.position = some q') (hle : e.sequence ≤ e'.sequence) : order.Le q q' := by
  have hlt := pairwise_map.mp hk.numbered.pairwise_lt
  refine List.Pairwise.forall_of_forall_of_flip
    (R := fun e e' : JournalEntry P V => e.sequence ≤ e'.sequence →
      ∀ q q', e.position = some q → e'.position = some q' → order.Le q q')
    ?_ (hs.sorted.imp ?_) ?_ he he' hle q q' hq hq'
  · intro e _ _ q q' hq hq'
    obtain rfl : q = q' := by simpa [hq] using hq'
    exact Le.refl _ _
  · intro e e' hle _
    exact hle
  · -- the other way round the numbers do not fit
    exact hlt.imp fun {a b} hlt (hle : b.sequence ≤ a.sequence) => absurd hlt (Int.not_lt.mpr hle)

lemma Sorted.mem_history (hs : h.Sorted order) (hk : h.Kept)
    (he : e ∈ h.journal.entries) : e ∈ h.history ∧ ∃ q, e.position = some q := by
  obtain ⟨pruned, hhist⟩ := hs.history_eq hk
  have hmem : e ∈ h.history := by
    rw [hhist]
    exact mem_append_right _ he
  exact ⟨hmem, isSome_iff_exists.mp (hs.isSome e hmem)⟩

lemma Sorted.lt_sequence_iff (hs : h.Sorted order) (hk : h.Kept) {p : P} {seq : Int}
    (hne : h.journal.entries ≠ [])
    (hrsm : h.journal.resumeSeqForPosition (some p) order.comparePositions = (seq, true))
    (he : e ∈ h.journal.entries) {q : P} (hq : e.position = some q) :
    seq < e.sequence ↔ order.Lt p q := by
  have hat : ∀ {e : JournalEntry P V} {q : P}, e.position = some q →
      (Journal.AtOrBefore order.comparePositions (some p) e ↔ order.Le q p) := by
    intro e q hq
    simp [Journal.AtOrBefore, hq, order.comparePositions_some, Le]
  obtain ⟨hall, hlast⟩ := resumeSeqForPosition_spec hne hrsm
  rw [← Int.not_le, ← not_le, not_iff_not]
  refine ⟨fun hle => ?_, fun hle => hall e he ((hat hq).mpr hle)⟩
  rcases hlast with hst0 | ⟨e', he', hbef, rfl⟩
  · have hbd := (mem_bounds he).1
    omega
  · -- the entry the scan stopped at is at or after this one
    obtain ⟨hmem', q', hq'⟩ := hs.mem_history hk he'
    have hle' := hs.le_of_sequence_le hk (hs.mem_history hk he).1 hmem' hq hq' hle
    exact hle'.trans ((hat hq').mp hbef)

lemma Sorted.filter_pruned (hs : h.Sorted order) {pruned : List (JournalEntry P V)}
    (hhist : h.history = pruned ++ h.journal.entries)
    (he : e ∈ h.journal.entries) {q p : P} (hq : e.position = some q) (hle : order.Le q p) :
    pruned.filter (isPast order p) = [] := by
  have hsrt := hs.sorted
  rw [hhist, pairwise_append] at hsrt
  rw [filter_eq_nil_iff]
  intro a ha
  obtain ⟨r, hr⟩ := isSome_iff_exists.mp
    (hs.isSome a (by rw [hhist]; exact mem_append_left _ ha))
  have hra := hsrt.2.2 a ha e he r q hr hq
  simpa [isPast, hr] using Comparator.not_lt.mpr (hra.trans hle)

end Chronicle

lemma Journal.covered_iff (order : PositionOrder P) {j : Journal P V} {oldest : JournalEntry P V}
    {rest : List (JournalEntry P V)} (hes : j.entries = oldest :: rest) {q : P}
    (hq : oldest.position = some q) (p : P) :
    (j.resumeSeqForPosition (some p) order.comparePositions).2 = true ↔ order.Le q p := by
  rw [resumeSeqForPosition_cons hes, hq, order.comparePositions_some]
  unfold Le
  split
  · next hpast => simpa using hpast.2
  · next hpast => simpa using hpast

/-- **A position splits the journal exactly**, when positions never go back: it is covered just
when the oldest retained entry is at or before it, or nothing was ever appended; and then all that
was appended past it comes after the sequence to resume from. -/
theorem position_splits_journal (order : PositionOrder P) {maxEntries maxAge : Int}
    {h : Chronicle P V}
    (hrun : Reach JournalStep (fun h call => Timely h call ∧ Ascending order h call)
      (.new maxEntries maxAge) h) (p : P) :
    ((h.journal.resumeSeqForPosition (some p) order.comparePositions).2 = true ↔
      h.history = [] ∨ ∃ oldest rest q, h.journal.entries = oldest :: rest ∧
        oldest.position = some q ∧ order.Le q p) ∧
    ((h.journal.resumeSeqForPosition (some p) order.comparePositions).2 = true →
      h.journal.entriesSince (h.journal.resumeSeqForPosition (some p) order.comparePositions).1 =
        h.history.filter (isPast order p)) := by
  have hk := Chronicle.kept_of_reach hrun
  have hne := Chronicle.nonempty_of_reach (fun _ _ => And.left) hrun
  have hs : h.Sorted order := hrun.invariant (Chronicle.Sorted order)
    ⟨by simp [Chronicle.new], .nil⟩ fun hs hok hstep => hs.step hok.2 hstep
  cases hes : h.journal.entries with
  | nil =>
    have hnothing : h.history = [] := by
      by_contra hsome
      exact hne hsome hes
    rw [resumeSeqForPosition_nil hes]
    simp [hnothing, Journal.entriesSince, hes]
  | cons oldest rest =>
    have hold : oldest ∈ h.journal.entries := by simp [hes]
    obtain ⟨hmem, q, hq⟩ := hs.mem_history hk hold
    have hcovered := covered_iff order hes hq p
    refine ⟨hcovered.trans ⟨fun hle => .inr ⟨oldest, rest, q, rfl, hq, hle⟩, ?_⟩, fun hcov => ?_⟩
    · rintro (hnothing | ⟨oldest', rest', q', heq, hq', hle⟩)
      · exact absurd hnothing (ne_nil_of_mem hmem)
      · cases heq
        obtain rfl : q = q' := by simpa [hq] using hq'
        exact hle
    · have hrsm : h.journal.resumeSeqForPosition (some p) order.comparePositions =
          ((h.journal.resumeSeqForPosition (some p) order.comparePositions).1, true) :=
        Prod.ext rfl hcov
      obtain ⟨pruned, hhist⟩ := hs.history_eq hk
      rw [hhist, filter_append,
        hs.filter_pruned hhist hold hq (hcovered.mp hcov), nil_append, Journal.entriesSince]
      refine filter_congr fun e he => ?_
      obtain ⟨-, r, hr⟩ := hs.mem_history hk he
      have hspl := hs.lt_sequence_iff hk (ne_nil_of_mem he) hrsm he hr
      simp only [isPast, hr, any_some, decide_eq_decide]
      exact hspl

theorem position_splits_journal_run : ∃ h : Chronicle Int Text,
    Reach JournalStep (fun h call => Timely h call ∧ Ascending .ofInt h call)
      (.new 3 0) h ∧
    h.journal.entries.map (·.sequence) = [2, 3, 4] ∧
    h.journal.resumeSeqForPosition (some 20) PositionOrder.ofInt.comparePositions = (3, true) ∧
    h.journal.entriesSince 3 = h.history.filter (isPast .ofInt 20) := by
  have h : Reach JournalStep (fun h call => Timely h call ∧ Ascending .ofInt h call)
    (.new 3 0 : Chronicle Int Text) _ := .refl _
  have h := h
    |>.snoc (.append ⟨1, 1, []⟩ .insert none (some ∅) (some 10) (.nil rfl 1 1))
      ⟨nofun, 10, rfl, by decide⟩
    |>.snoc (.append ⟨2, 2, []⟩ .insert none (some ∅) (some 20) (.nil rfl 2 2))
      ⟨nofun, 20, rfl, by decide⟩
    |>.snoc (.append ⟨3, 3, []⟩ .insert none (some ∅) (some 20) (.nil rfl 3 3))
      ⟨nofun, 20, rfl, by decide⟩
    |>.snoc (.append ⟨4, 4, []⟩ .insert none (some ∅) (some 30) (.nil rfl 4 4))
      ⟨nofun, 30, rfl, by decide⟩
  exact ⟨_, h, rfl, rfl, (position_splits_journal .ofInt h 20).2 rfl⟩

end Laredo.Fanout
