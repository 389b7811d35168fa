import Laredo.Fanout.History

/-!
# Pinned

Pruning and pins (`pin`, `unpin` and `pruneLocked` in `target/fanout/journal.go`), over whole
sequences of calls.
-/

namespace Laredo.Fanout

open Transition Journal Std List Option

variable {P V : Type}

namespace Journal

/-- No pin is zero, and when the new entry does not fit in, every pin is past the oldest entry. -/
def PinsHold (j : Journal P V) : Prop :=
  (∀ (id : String) (seq : Int), j.pins[id]? = some seq → 0 < seq) ∧
    (j.Fits ∨ ∀ (id : String) (seq : Int), j.pins[id]? = some seq → j.firstSeq < seq)

variable {j : Journal P V} {env : AppendEnv} {action : ChangeAction}
  {old new : Option (Row V)} {pos : Option P}

lemma mem_append_iff {e : JournalEntry P V} :
    e ∈ (j.append env action old new pos).entries ↔
      e ∈ (j.push env.stamp action old new pos).entries ∧
        (j.append env action old new pos).firstSeq ≤ e.sequence := by
  obtain ⟨k, hk, heq⟩ := j.entries_append env action old new pos
  have hlen := length_push j env action old new pos
  have hfst : (j.append env action old new pos).firstSeq = j.firstSeq + k := by
    rw [firstSeq, heq, nextSeq_append, length_drop, hlen, firstSeq]
    omega
  rw [heq, hfst]
  exact Consec.mem_drop_iff (fun e : JournalEntry P V => e.sequence)
    (contiguous_push j env action old new pos) (by omega)

lemma keepsFrom_iff {n : Int} :
    (∀ e ∈ (j.push env.stamp action old new pos).entries, n ≤ e.sequence →
      e ∈ (j.append env action old new pos).entries) ↔
    (j.append env action old new pos).firstSeq ≤ j.firstSeq ∨
      (j.append env action old new pos).firstSeq ≤ n := by
  have hrange := fun seq : Int => Consec.mem_iff (x := seq)
    (contiguous_push j env action old new pos)
  simp only [length_map, length_push, List.mem_map] at hrange
  have hend : (j.append env action old new pos).firstSeq ≤ j.nextSeq + 1 := by
    rw [firstSeq, nextSeq_append]
    omega
  simp only [mem_append_iff]
  constructor
  · intro h
    by_contra hprn
    -- the last number that was pruned
    obtain ⟨e, he, hseq⟩ := (hrange
      ((j.append env action old new pos).firstSeq - 1)).mpr (by
        unfold firstSeq at hprn hend ⊢
        omega)
    have hkept := (h e he (by omega)).2
    omega
  · intro h e he hn
    have hfst := ((hrange e.sequence).mp ⟨e, he, rfl⟩).1
    exact ⟨he, by omega⟩

lemma keepsFrom_pins_iff (hpins : env.Lists j) (action : ChangeAction)
    (old new : Option (Row V)) (pos : Option P) :
    (∀ (id : String) (seq : Int), j.pins[id]? = some seq →
      ∀ e ∈ (j.push env.stamp action old new pos).entries, seq ≤ e.sequence →
        e ∈ (j.append env action old new pos).entries) ↔
      j.NothingDue env ∨ j.PinsHold := by
  have hfst := j.first_pos
  have hdue_iff := firstSeq_append_le_iff j env action old new pos
  simp only [keepsFrom_iff]
  by_cases hdue : j.NothingDue env
  · exact iff_of_true (fun id seq hseq => .inl (hdue_iff.mpr hdue)) (.inl hdue)
  have hprn : j.firstSeq < (j.append env action old new pos).firstSeq :=
    Int.not_le.mp fun hle => hdue (hdue_iff.mp hle)
  rw [or_iff_right hdue]
  constructor
  · intro h
    have hkept : ∀ (id : String) (seq : Int), j.pins[id]? = some seq → j.firstSeq < seq := by
      intro id seq hseq
      have hle := h id seq hseq
      omega
    refine ⟨fun id seq hseq => ?_, .inr hkept⟩
    have hlt := hkept id seq hseq
    unfold firstSeq at hlt
    omega
  · intro hhold id seq hseq
    obtain ⟨hpos, hroom⟩ := hhold
    have hmem : seq ∈ env.pinOrder := (hpins seq).mpr ⟨id, hseq⟩
    have hall : ∀ n ∈ env.pinOrder, 0 < n := fun n hn => by
      obtain ⟨id', hid'⟩ := (hpins n).mp hn
      exact hpos id' n hid'
    obtain ⟨hlowest, hleast⟩ := lowestPin_spec hall (ne_nil_of_mem hmem)
    obtain ⟨id', hid'⟩ := (hpins _).mp hlowest
    have hle := hleast seq hmem
    have hrun := contiguous_push j env action old new pos
    by_cases hfits : j.Fits
    · have hxp := expired_le_pin (j := j) (hall _ hlowest) hrun
      rw [firstSeq_append_of_fits j env action old new pos hfits] at hprn ⊢
      omega
    · have hbef := (hroom.resolve_left hfits) id' _ hid'
      have hcount := countBeforePin_le_pin j.maxEntries (lowestPin env.pinOrder) hrun
      rw [(firstSeq_append_of_before j env action old new pos hfits
        (hall _ hlowest) hbef).1] at hprn ⊢
      omega

end Journal

/-- The pin of `id` stays where it is, and every append can keep what is pinned. -/
def KeepsPin (id : String) (h : Chronicle P V) : JournalCall P V → Prop
  | .append env _ _ _ _ => h.journal.NothingDue env ∨ h.journal.PinsHold
  | .pin id' _ => id' ≠ id
  | .unpin id' => id' ≠ id
  | .backfillNilPositions _ => True

lemma Journal.pins_backfillNilPositions (j : Journal P V) (position : Option P) :
    (j.backfillNilPositions position).pins = j.pins ∧
      (j.backfillNilPositions position).firstSeq = j.firstSeq := by
  cases position with
  | none => exact ⟨rfl, rfl⟩
  | some p => exact ⟨rfl, by simp [firstSeq, backfillNilPositions]⟩

lemma KeepsPin.step {id : String} {seq : Int} {h h' : Chronicle P V} {call : JournalCall P V}
    (hpin : h.journal.pins[id]? = some seq ∧ h.journal.Retains seq) (hok : KeepsPin id h call)
    (hstep : JournalStep h call h') :
    h'.journal.pins[id]? = some seq ∧ h'.journal.Retains seq := by
  obtain ⟨hhl, hretains⟩ := hpin
  cases hstep with
  | append env action old new pos hpins =>
    refine ⟨hhl, ?_⟩
    have hkept :=
      (keepsFrom_pins_iff hpins action old new pos).mpr hok id seq hhl
    rw [keepsFrom_iff] at hkept
    unfold Retains at hretains ⊢
    dsimp only
    omega
  | pin id' seq' =>
    have hne : ¬ id' = id := hok
    refine ⟨?_, hretains⟩
    simpa [pin, ExtTreeMap.getElem?_insert, hne] using hhl
  | unpin id' =>
    have hne : ¬ id' = id := hok
    refine ⟨?_, hretains⟩
    simpa [unpin, ExtTreeMap.getElem?_erase, hne] using hhl
  | backfillNilPositions pos =>
    obtain ⟨hpins, hfst⟩ := h.journal.pins_backfillNilPositions pos
    unfold Retains at hretains ⊢
    rw [hpins, hfst]
    exact ⟨hhl, hretains⟩

/-- **When pruning respects the pins.** An append removes no entry from a pinned sequence on just
when nothing is due, or no pin is zero and every pin is past the oldest entry if the new one does
not fit in; while all appends are like this, pinned entries stay. -/
theorem pinned_entries_stay_iff {maxEntries maxAge : Int} {h : Chronicle P V}
    (hrun : Run JournalStep (.new maxEntries maxAge) h) :
    (∀ (env : AppendEnv) action oldValues newValues position, env.Lists h.journal →
      ((∀ (id : String) (seq : Int), h.journal.pins[id]? = some seq →
        ∀ e ∈ (h.journal.push env.stamp action oldValues newValues position).entries,
          seq ≤ e.sequence →
            e ∈ (h.journal.append env action oldValues newValues position).entries) ↔
        h.journal.NothingDue env ∨ h.journal.PinsHold)) ∧
    ∀ (id : String) (seq : Int) (h' : Chronicle P V), h.journal.Retains seq →
      Reach JournalStep (KeepsPin id) { h with journal := h.journal.pin id seq } h' →
      List.Forall₂ JournalEntry.MadeFrom
        (h'.history.filter fun e => decide (seq < e.sequence)) (h'.journal.entriesSince seq) := by
  have hk := Chronicle.kept_of_reach hrun
  refine ⟨fun env action oldValues newValues position hpins =>
    keepsFrom_pins_iff hpins action oldValues newValues position, fun id seq h' hretains hhl => ?_⟩
  have hkept : h'.Kept := hhl.invariant Chronicle.Kept (hk.step (.pin id seq))
    fun hk _ hstep => hk.step hstep
  have hpin := hhl.invariant (fun h => h.journal.pins[id]? = some seq ∧ h.journal.Retains seq)
    ⟨by simp [pin], hretains⟩ fun hpin hok hstep => hok.step hpin hstep
  exact hkept.entriesSince hpin.2

lemma AppendEnv.Lists.single {j : Journal P V} (id : String) {seq : Int}
    (hpins : j.pins = (∅ : ExtTreeMap String Int).insert id seq) (stamp now : Int) :
    (⟨stamp, now, [seq]⟩ : AppendEnv).Lists j := by
  intro n
  rw [hpins]
  constructor
  · intro hn
    obtain rfl : n = seq := by simpa using hn
    exact ⟨id, by simp⟩
  · intro ⟨id', hid'⟩
    rw [ExtTreeMap.getElem?_insert] at hid'
    split at hid'
    · simp [some.inj hid']
    · simp at hid'

lemma Journal.PinsHold.single {j : Journal P V} (id : String) {seq : Int}
    (hpins : j.pins = (∅ : ExtTreeMap String Int).insert id seq) (hpos : 0 < seq)
    (hpast : j.firstSeq < seq) : j.PinsHold := by
  have heq : ∀ (id' : String) (n : Int), j.pins[id']? = some n → n = seq := by
    intro id' n hn
    rw [hpins, ExtTreeMap.getElem?_insert] at hn
    split at hn
    · exact (some.inj hn).symm
    · simp at hn
  refine ⟨fun id' n hn => ?_, .inr fun id' n hn => ?_⟩
  · rwa [heq id' n hn]
  · rwa [heq id' n hn]

theorem pinned_entries_stay_iff_run : ∃ h h' : Chronicle Int Text, Run JournalStep (.new 2 0) h ∧
    h.journal.pins["c"]? = some 3 ∧ JournalStep h (.append ⟨4, 4, [3]⟩ .insert none none none) h' ∧
    (∀ e ∈ h.journal.entries, 3 ≤ e.sequence → e ∈ h'.journal.entries) ∧
    h'.journal.entries.map (·.sequence) = [3, 4] := by
  have h : Run JournalStep
    (.new 2 0 : Chronicle Int Text) _ := .refl _
  have h := h
    |>.snoc (.append ⟨1, 1, []⟩ .insert none none none (.nil rfl 1 1))
    |>.snoc (.append ⟨2, 2, []⟩ .insert none none none (.nil rfl 2 2))
    |>.snoc (.append ⟨3, 3, []⟩ .insert none none none (.nil rfl 3 3))
    |>.snoc (.pin "c" 3)
  refine ⟨_, _, h, rfl, .append _ _ _ _ _ (.single "c" rfl 4 4), fun e he hseq => ?_, rfl⟩
  refine ((pinned_entries_stay_iff h).1 _ _ _ _ _ (.single "c" rfl 4 4)).mpr
    (.inr (.single "c" rfl (by decide) (by decide))) "c" 3 rfl e ?_ hseq
  exact mem_append_left _ he

/-- A snapshot of an empty journal pins 0, and the second append drops the first entry; a pin at 1
with entry 1 the oldest does not keep entry 2 from being dropped two appends later. -/
theorem pin_does_not_hold_entry : (∃ h h' : Chronicle Int Text, Run JournalStep (.new 1 0) h ∧
      h.journal.pins["c"]? = some 0 ∧ h.journal.entries.map (·.sequence) = [1] ∧
      JournalStep h (.append ⟨2, 2, [0]⟩ .insert none none none) h' ∧
      (h'.journal.entriesSince 0).map (·.sequence) = [2]) ∧
    ∃ h h' : Chronicle Int Text, Run JournalStep (.new 2 0) h ∧
      h.journal.pins["c"]? = some 1 ∧ h.journal.entries.map (·.sequence) = [1, 2] ∧
      Reach JournalStep (fun _ call => call ≠ .unpin "c") h h' ∧
      h'.journal.pins["c"]? = some 1 ∧ (h'.journal.entriesSince 1).map (·.sequence) = [3, 4] := by
  constructor
  · have h : Run JournalStep
      (.new 1 0 : Chronicle Int Text) _ := .refl _
    have h := h
      |>.snoc (.pin "c" 0)
      |>.snoc (.append ⟨1, 1, [0]⟩ .insert none none none (.single "c" rfl 1 1))
    exact ⟨_, _, h, rfl, rfl, .append _ _ _ _ _ (.single "c" rfl 2 2), rfl⟩
  · have h : Run JournalStep
      (.new 2 0 : Chronicle Int Text) _ := .refl _
    have h := h
      |>.snoc (.append ⟨1, 1, []⟩ .insert none none none (.nil rfl 1 1))
      |>.snoc (.append ⟨2, 2, []⟩ .insert none none none (.nil rfl 2 2))
      |>.snoc (.pin "c" 1)
    refine ⟨_, _, h, rfl, rfl, .snoc (.snoc (.refl _)
      (.append ⟨3, 3, [1]⟩ .insert none none none (.single "c" rfl 3 3)) nofun)
      (.append ⟨4, 4, [1]⟩ .insert none none none (.single "c" rfl 4 4)) nofun, rfl, rfl⟩

end Laredo.Fanout
