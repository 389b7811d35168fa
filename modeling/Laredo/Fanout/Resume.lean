import Laredo.Fanout.Target

/-!
# Resume

Resuming a client by source position (`resumeSeqForPosition` in `target/fanout/journal.go`).
-/

namespace Laredo.Fanout

open List Option

namespace Journal

variable {P V : Type}

def AtOrBefore (cmp : Option P → Option P → Int) (position : Option P)
    (e : JournalEntry P V) : Prop :=
  e.position.isSome ∧ cmp e.position position ≤ 0

instance (cmp : Option P → Option P → Int) (position : Option P) (e : JournalEntry P V) :
    Decidable (AtOrBefore cmp position e) :=
  inferInstanceAs (Decidable (_ ∧ _))

def resumeScan (cmp : Option P → Option P → Int) (position : Option P) (start : Int)
    (entries : List (JournalEntry P V)) : Int :=
  entries.foldl (fun seq e => if AtOrBefore cmp position e then e.sequence else seq) start

lemma resumeScan_cons (cmp : Option P → Option P → Int) (position : Option P) (start : Int)
    (e : JournalEntry P V) (es : List (JournalEntry P V)) :
    resumeScan cmp position start (e :: es) =
      resumeScan cmp position (if AtOrBefore cmp position e then e.sequence else start) es :=
  rfl

variable {cmp : Option P → Option P → Int} {position : Option P}

lemma resumeScan_spec {entries : List (JournalEntry P V)} {n start : Int}
    (hrun : Consec n (entries.map (·.sequence))) (hst0 : start < n) :
    start ≤ resumeScan cmp position start entries ∧
    (∀ e ∈ entries, AtOrBefore cmp position e →
      e.sequence ≤ resumeScan cmp position start entries) ∧
    (resumeScan cmp position start entries = start ∨ ∃ e ∈ entries, AtOrBefore cmp position e ∧
        e.sequence = resumeScan cmp position start entries) := by
  induction entries generalizing n start with
  | nil => exact ⟨Int.le_refl _, by simp, Or.inl rfl⟩
  | cons e es ih =>
    have hseq : e.sequence = n := hrun.1
    have hrest := hrun.2
    rw [resumeScan_cons]
    by_cases he : AtOrBefore cmp position e
    · -- the scan goes on from this entry
      have hst0' : e.sequence < n + 1 := by omega
      obtain ⟨hle, hall, hlast⟩ := ih hrest hst0'
      rw [if_pos he]
      refine ⟨by omega, ?_, Or.inr ?_⟩
      · intro e' he' hat
        rcases mem_cons.mp he' with rfl | htail
        · exact hle
        · exact hall e' htail hat
      · rcases hlast with heq | ⟨e', he', hat, heq⟩
        · exact ⟨e, mem_cons_self, he, heq.symm⟩
        · exact ⟨e', mem_cons_of_mem _ he', hat, heq⟩
    · have hst0' : start < n + 1 := by omega
      obtain ⟨hle, hall, hlast⟩ := ih hrest hst0'
      rw [if_neg he]
      refine ⟨hle, ?_, ?_⟩
      · intro e' he' hat
        rcases mem_cons.mp he' with rfl | htail
        · exact absurd hat he
        · exact hall e' htail hat
      · rcases hlast with heq | ⟨e', he', hat, heq⟩
        · exact Or.inl heq
        · exact Or.inr ⟨e', mem_cons_of_mem _ he', hat, heq⟩

variable {j : Journal P V}

lemma resumeSeqForPosition_nil (h : j.entries = [])
    (position : Option P) (cmp : Option P → Option P → Int) :
    j.resumeSeqForPosition position cmp = (j.currentSequence, true) := by
  rw [resumeSeqForPosition, h]
  rfl

lemma resumeSeqForPosition_cons {oldest : JournalEntry P V}
    {rest : List (JournalEntry P V)} (h : j.entries = oldest :: rest)
    (position : Option P) (cmp : Option P → Option P → Int) :
    j.resumeSeqForPosition position cmp =
      if oldest.position.isSome ∧ 0 < cmp oldest.position position then (0, false)
      else (resumeScan cmp position (j.firstSeq - 1) j.entries, true) := by
  have hfst : oldest.sequence = j.firstSeq := by
    have hold := oldestSequence_eq_firstSeq (j := j) (by simp [h])
    rwa [oldestSequence, h] at hold
  rw [resumeSeqForPosition, h, ← hfst]
  rfl

lemma resumeSeqForPosition_spec {seq : Int} (hne : j.entries ≠ [])
    (h : j.resumeSeqForPosition position cmp = (seq, true)) :
    (∀ e ∈ j.entries, AtOrBefore cmp position e → e.sequence ≤ seq) ∧
    (seq = j.firstSeq - 1 ∨ ∃ e ∈ j.entries, AtOrBefore cmp position e ∧ e.sequence = seq) := by
  obtain ⟨oldest, rest, hes⟩ := exists_cons_of_ne_nil hne
  rw [resumeSeqForPosition_cons hes] at h
  split at h
  · cases h
  · obtain ⟨rfl⟩ := Prod.mk.inj h
    exact (resumeScan_spec j.contiguous (by unfold firstSeq; omega)).2

lemma resumeSeqForPosition_bounds {seq : Int}
    (h : j.resumeSeqForPosition position cmp = (seq, true)) :
    j.firstSeq - 1 ≤ seq ∧ seq ≤ j.currentSequence := by
  have hfst : j.firstSeq ≤ j.nextSeq := by
    unfold firstSeq
    omega
  unfold currentSequence
  by_cases hne : j.entries = []
  · rw [resumeSeqForPosition_nil hne] at h
    obtain ⟨rfl⟩ := Prod.mk.inj h
    unfold currentSequence
    omega
  · rcases (resumeSeqForPosition_spec hne h).2 with hst0 | ⟨e, he, -, rfl⟩
    · omega
    · have hbounds := mem_bounds he
      omega

lemma resumeSeqForPosition_nonneg {seq : Int}
    (h : j.resumeSeqForPosition position cmp = (seq, true)) : 0 ≤ seq := by
  have hfst := j.first_pos
  have hbd := (resumeSeqForPosition_bounds h).1
  unfold firstSeq at hbd
  omega

lemma resumeSeqForPosition_of_split (hu : j.Unpruned) {n : Int} (hn : 1 ≤ n)
    (hle : n ≤ j.currentSequence) {pos : Option P}
    (hspl : ∀ e ∈ j.entries, AtOrBefore cmp pos e ↔ e.sequence ≤ n) :
    j.resumeSeqForPosition pos cmp = (n, true) := by
  -- the journal is unpruned, so every number up to the latest is there
  have hmem : ∀ m, 1 ≤ m → m ≤ j.currentSequence → ∃ e ∈ j.entries, e.sequence = m := by
    have hkept := keptSince_iff_retains.mpr (hu.retains (Int.le_refl 0))
    intro m hm hmle
    exact hkept m (by omega) hmle
  obtain ⟨first, hfst, hseq⟩ := hmem 1 (Int.le_refl 1) (by omega)
  have hne := ne_nil_of_mem hfst
  obtain ⟨oldest, rest, hes⟩ := exists_cons_of_ne_nil hne
  have hold : oldest.sequence = 1 := by
    have hfirs := oldestSequence_eq_firstSeq hne
    rwa [hu.first, oldestSequence, hes] at hfirs
  have hat : AtOrBefore cmp pos oldest := (hspl oldest (by simp [hes])).mpr (by omega)
  have hcov : (j.resumeSeqForPosition pos cmp).2 = true := by
    rw [resumeSeqForPosition_cons hes, if_neg]
    intro hpast
    have hle := hat.2
    omega
  obtain ⟨seq, hres⟩ : ∃ seq, j.resumeSeqForPosition pos cmp = (seq, true) := ⟨_, Prod.ext rfl hcov⟩
  obtain ⟨hall, hlast⟩ := resumeSeqForPosition_spec hne hres
  obtain ⟨e, he, hen⟩ := hmem n hn hle
  have hge : n ≤ seq := hen ▸ hall e he ((hspl e he).mpr (Int.le_of_eq hen))
  rw [hres]
  rcases hlast with hst0 | ⟨e', he', hat', rfl⟩
  · rw [hu.first] at hst0
    omega
  · have hle' := (hspl e' he').mp hat'
    rw [Int.le_antisymm hle' hge]

structure Positioned (ord : PositionOrder P) (j : Journal P V) : Prop where
  isSome : ∀ e ∈ j.entries, e.position.isSome
  sorted : j.entries.Pairwise (fun e e' => ord.comparePositions e.position e'.position ≤ 0)

lemma comparePositions_get (ord : PositionOrder P) {a b : Option P} (ha : a.isSome)
    (hb : b.isSome) :
    ord.comparePositions a b = ord.cmp (a.get ha) (b.get hb) := by
  conv_lhs => rw [← some_get ha, ← some_get hb]
  exact ord.comparePositions_some _ _

lemma comparePositions_self (ord : PositionOrder P) {a : Option P} (ha : a.isSome) :
    ord.comparePositions a a ≤ 0 := by
  rw [comparePositions_get ord ha ha]
  exact Comparator.Le.refl ord.toComparator _

lemma Positioned.covered {ord : PositionOrder P} (hpos : Positioned ord j)
    {s : JournalEntry P V} (hs : s ∈ j.entries) :
    (j.resumeSeqForPosition s.position ord.comparePositions).2 = true := by
  obtain ⟨oldest, rest, hes⟩ := exists_cons_of_ne_nil (ne_nil_of_mem hs)
  have hle : ord.comparePositions oldest.position s.position ≤ 0 := by
    have hsrt := hpos.sorted
    rw [hes] at hs hsrt
    rcases mem_cons.mp hs with rfl | hrest
    · exact comparePositions_self ord (hpos.isSome _ (hes ▸ mem_cons_self))
    · exact rel_of_pairwise_cons hsrt hrest
  rw [resumeSeqForPosition_cons hes, if_neg (by omega)]

/-- **When resuming at a cut loses nothing.** A client that applied the entries up to
`s` and presents the position of `s` is sent every entry after `s` exactly when no
later entry shares that position. -/
theorem resume_after_entry_complete_iff (ord : PositionOrder P) {j : Journal P V}
    (hpos : Positioned ord j) {s : JournalEntry P V} (hs : s ∈ j.entries) :
    ((j.resumeSeqForPosition s.position ord.comparePositions).2 = true ∧
      ∀ e ∈ j.entries, s.sequence < e.sequence →
        e ∈ j.entriesSince (j.resumeSeqForPosition s.position ord.comparePositions).1) ↔
    ∀ e ∈ j.entries, s.sequence < e.sequence → 0 < ord.comparePositions e.position s.position := by
  have hcov := hpos.covered hs
  obtain ⟨hall, hlast⟩ := resumeSeqForPosition_spec (ne_nil_of_mem hs)
    (Prod.ext rfl hcov : j.resumeSeqForPosition s.position ord.comparePositions =
      ((j.resumeSeqForPosition s.position ord.comparePositions).1, true))
  generalize hseq : (j.resumeSeqForPosition s.position ord.comparePositions).1 = seq at hall hlast ⊢
  have hself : s.sequence ≤ seq :=
    hall s hs ⟨hpos.isSome s hs, comparePositions_self ord (hpos.isSome s hs)⟩
  constructor
  · rintro ⟨-, hsent⟩ e he hlater
    -- an entry past `s` at or before its position would not be past `seq`
    by_contra hle
    have hskip := hall e he ⟨hpos.isSome e he, by omega⟩
    have hpast := (mem_entriesSince.mp (hsent e he hlater)).2
    omega
  · intro hgroup
    refine ⟨hcov, fun e he hlater => mem_entriesSince.mpr ⟨he, ?_⟩⟩
    rcases hlast with hst0 | ⟨e', he', ⟨-, hat⟩, heq⟩
    · have hfst := (mem_bounds hs).1
      omega
    · -- the entry the scan stopped at is `s` itself
      by_contra hle
      have haft := hgroup e' he' (by omega)
      omega

def twoRowTransaction : Journal Int Text :=
  let env : AppendEnv := ⟨0, 0, []⟩
  let row (id : String) : Option (Row Text) := some (.ofList [("id", some id)])
  (((newJournal 0 0).append env .insert none (row "1") (some 10)).append env .insert none
    (row "2") (some 20)).append env .insert none (row "3") (some 20)

lemma twoRowTransaction_positioned : Positioned .ofInt twoRowTransaction := ⟨by decide, by decide⟩

/-- Cutting after the first row of the transaction loses the second: the client that
has seen sequence 2 presents position 20 and is not sent sequence 3. -/
theorem resume_inside_transaction_loses_row : Positioned .ofInt twoRowTransaction ∧
    ∃ s ∈ twoRowTransaction.entries, ∃ e ∈ twoRowTransaction.entries, s.sequence < e.sequence ∧
      e ∉ twoRowTransaction.entriesSince (twoRowTransaction.resumeSeqForPosition s.position
        PositionOrder.ofInt.comparePositions).1 :=
  ⟨twoRowTransaction_positioned, by decide⟩

theorem resume_before_transaction_complete : (twoRowTransaction.resumeSeqForPosition (some 10)
      PositionOrder.ofInt.comparePositions).2 = true ∧
    ∀ e ∈ twoRowTransaction.entries, 1 < e.sequence →
      e ∈ twoRowTransaction.entriesSince (twoRowTransaction.resumeSeqForPosition (some 10)
        PositionOrder.ofInt.comparePositions).1 :=
  (resume_after_entry_complete_iff .ofInt twoRowTransaction_positioned
    (s := ⟨1, 0, .insert, none, some (.ofList [("id", some "1")]), some 10⟩)
    (by decide)).mpr (by decide)

end Journal

end Laredo.Fanout
