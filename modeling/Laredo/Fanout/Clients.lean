import Laredo.Fanout.Target

/-!
# Clients

What a fan-out target keeps for its clients, by their ids: the registry (`target/fanout/clients.go`)
and the journal's pins (`target/fanout/journal.go`).
-/

namespace Laredo.Fanout

open List Option

inductive ClientPhase
  | catchingUp
  | live
  | draining
  deriving DecidableEq, Repr

structure ClientState where
  id : String
  currentSequence : Int := 0
  connectedAt : Int
  state : ClientPhase := .catchingUp
  bufferDepth : Int := 0

structure ClientRegistry where
  clients : Std.ExtTreeMap String ClientState := ∅
  maxClients : Int

namespace ClientRegistry

/-- `register(clientID)`; `none` is false. The limit is looked at first, also for an id that is
there already. -/
def register (r : ClientRegistry) (now : Int) (clientID : String) : Option ClientRegistry :=
  if 0 < r.maxClients ∧ r.maxClients ≤ r.clients.size then none
  else some { r with clients := r.clients.insert clientID { id := clientID, connectedAt := now } }

def unregister (r : ClientRegistry) (clientID : String) : ClientRegistry :=
  { r with clients := r.clients.erase clientID }

def updateSequence (r : ClientRegistry) (clientID : String) (seq : Int) : ClientRegistry :=
  { r with clients := r.clients.modify clientID fun cs => { cs with currentSequence := seq } }

def setState (r : ClientRegistry) (clientID : String) (state : ClientPhase) : ClientRegistry :=
  { r with clients := r.clients.modify clientID fun cs => { cs with state := state } }

def count (r : ClientRegistry) : Int := r.clients.size

lemma register_inv {r r' : ClientRegistry} {now : Int} {cid : String}
    (h : r.register now cid = some r') :
    (0 < r.maxClients → r.count < r.maxClients) ∧
      r' = { r with clients := r.clients.insert cid { id := cid, connectedAt := now } } := by
  unfold register at h
  split at h
  · cases h
  · next hroom =>
      unfold count
      exact ⟨by omega, (some.inj h).symm⟩

end ClientRegistry

namespace Journal

variable {P V : Type}

/-- Every sequence number past `n` that the journal has, or that was given since, is there
after. -/
def KeepsPast (j j' : Journal P V) (n : Int) : Prop :=
  ∀ seq, n < seq → j.firstSeq ≤ seq → seq ≤ j'.currentSequence → ∃ e ∈ j'.entries, e.sequence = seq

lemma exists_entry_iff (j : Journal P V) (seq : Int) :
    (∃ e ∈ j.entries, e.sequence = seq) ↔ j.firstSeq ≤ seq ∧ seq < j.nextSeq := by
  rw [← List.mem_map, Consec.mem_iff j.contiguous, length_map, firstSeq]
  omega

lemma keepsPast_iff (j j' : Journal P V) (n : Int) :
    j.KeepsPast j' n ↔ j'.firstSeq ≤ j.firstSeq ∨ j'.firstSeq ≤ n + 1 := by
  have hfst : j'.firstSeq ≤ j'.nextSeq := by unfold firstSeq; omega
  unfold KeepsPast currentSequence
  simp only [exists_entry_iff]
  constructor
  · intro h
    by_contra hprn
    -- the last number that was pruned
    have hlast := h (j'.firstSeq - 1) (by omega) (by omega) (by omega)
    omega
  · intro h seq hn hseq hcur
    omega

lemma drainExcess_eq (entries : List (JournalEntry P V)) (minPin : Int) (excess : Nat) :
    drainExcess entries minPin excess =
      if entries.head?.any (·.sequence < minPin) then 0 else excess := by
  induction excess with
  | zero => simp [drainExcess]
  | succ excess ih =>
    rw [drainExcess, ih]
    split <;> rfl

variable {entries : List (JournalEntry P V)}

lemma countExpired_le_pin {cutoff minPin first : Int} (hpin : 0 < minPin)
    (h : Consec first (entries.map (·.sequence))) :
    countExpired cutoff minPin entries = 0 ∨
      first + countExpired cutoff minPin entries ≤ minPin := by
  induction entries generalizing first with
  | nil => exact .inl rfl
  | cons e entries ih =>
    obtain ⟨hseq, hrest⟩ : e.sequence = first ∧ Consec (first + 1) _ := h
    have hloop := ih hrest
    unfold countExpired
    split_ifs with hold hhl
    · exact .inl rfl
    · right
      push_cast
      omega
    · exact .inl rfl

lemma countExpired_eq_zero_iff {cutoff minPin : Int} {e : JournalEntry P V} :
    countExpired cutoff minPin (e :: entries) = 0 ↔
      cutoff ≤ e.timestamp ∨ 0 < minPin ∧ minPin ≤ e.sequence := by
  unfold countExpired
  split_ifs with hold hhl <;> simp <;> omega

lemma countBeforePin_le_pin (maxE minPin : Int) {first : Int}
    (h : Consec first (entries.map (·.sequence))) :
    countBeforePin maxE minPin entries = 0 ∨
      first + countBeforePin maxE minPin entries ≤ minPin := by
  induction entries generalizing first with
  | nil => exact .inl rfl
  | cons e entries ih =>
    obtain ⟨hseq, hrest⟩ : e.sequence = first ∧ Consec (first + 1) _ := h
    have hloop := ih hrest
    unfold countBeforePin
    split_ifs with hbef
    · right
      push_cast
      omega
    · exact .inl rfl

def Fits (j : Journal P V) : Prop := j.maxEntries ≤ 0 ∨ (j.entries.length : Int) < j.maxEntries

def expired (j : Journal P V) (env : AppendEnv) (entries : List (JournalEntry P V)) : Nat :=
  if 0 < j.maxAge then countExpired (env.now - j.maxAge) (lowestPin env.pinOrder) entries else 0

lemma length_pruneByAge (j : Journal P V) (env : AppendEnv) (entries : List (JournalEntry P V)) :
    ((pruneByAge j.maxAge (lowestPin env.pinOrder) env.now entries).length : Int) =
      entries.length - j.expired env entries := by
  unfold pruneByAge expired
  split
  · have hle := countExpired_le_length (env.now - j.maxAge) (lowestPin env.pinOrder) entries
    rw [length_drop]
    omega
  · simp

section

variable (j : Journal P V) (env : AppendEnv) (action : ChangeAction)
  (old new : Option (Row V)) (pos : Option P)

lemma entries_push : (j.push env.stamp action old new pos).entries =
    j.entries ++ [⟨j.nextSeq, env.stamp, action, old, new, pos⟩] := rfl

lemma length_push : (j.push env.stamp action old new pos).entries.length =
      j.entries.length + 1 := by
  simp [entries_push]

def oldestStamp : Int := (j.entries.head?.map (·.timestamp)).getD env.stamp

lemma exists_push_eq_cons :
    ∃ e es, (j.push env.stamp action old new pos).entries = e :: es ∧
      e.sequence = j.firstSeq ∧ e.timestamp = j.oldestStamp env := by
  have hrun := j.contiguous
  unfold firstSeq oldestStamp
  rw [entries_push]
  cases hes : j.entries with
  | nil => exact ⟨_, [], rfl, by simp, rfl⟩
  | cons e es =>
    rw [hes] at hrun
    exact ⟨e, _, rfl, hrun.1, rfl⟩

lemma entries_append_eq : (j.append env action old new pos).entries =
    pruneEntries j.maxEntries j.maxAge (lowestPin env.pinOrder) env.now
      (j.push env.stamp action old new pos).entries := rfl

lemma firstSeq_append_of_fits (hfits : j.Fits) :
    (j.append env action old new pos).firstSeq = j.firstSeq +
      j.expired env (j.push env.stamp action old new pos).entries := by
  have hlen := length_push j env action old new pos
  have hroom : ¬ (0 < j.maxEntries ∧ j.maxEntries <
      (j.push env.stamp action old new pos).entries.length) := by
    unfold Fits at hfits
    omega
  rw [firstSeq, entries_append_eq, pruneEntries, if_neg hroom, length_pruneByAge, nextSeq_append,
    firstSeq]
  omega

lemma firstSeq_append_of_before (hfits : ¬ j.Fits) (hpin : 0 < lowestPin env.pinOrder)
    (hbef : j.firstSeq < lowestPin env.pinOrder) :
    (j.append env action old new pos).firstSeq = j.firstSeq +
        countBeforePin j.maxEntries (lowestPin env.pinOrder)
          (j.push env.stamp action old new pos).entries ∧
      countBeforePin j.maxEntries (lowestPin env.pinOrder)
        (j.push env.stamp action old new pos).entries ≠ 0 := by
  obtain ⟨e, es, hpush, hseq, -⟩ := exists_push_eq_cons j env action old new pos
  have hlen := length_push j env action old new pos
  unfold Fits at hfits
  have hdue : 0 < j.maxEntries ∧ j.maxEntries <
      (j.push env.stamp action old new pos).entries.length := by omega
  have hdrn : ∀ excess, drainExcess (j.push env.stamp action old new pos).entries
      (lowestPin env.pinOrder) excess = 0 := by
    intro excess
    rw [drainExcess_eq, hpush]
    simp [hseq, hbef]
  have hle := countBeforePin_le_length j.maxEntries (lowestPin env.pinOrder)
    (j.push env.stamp action old new pos).entries
  refine ⟨?_, ?_⟩
  · rw [firstSeq, entries_append_eq, pruneEntries, if_pos hdue, if_pos hpin]
    simp only [hdrn, if_true, length_drop, nextSeq_append, firstSeq]
    omega
  · rw [hpush] at hdue ⊢
    rw [countBeforePin, if_pos ⟨by omega, hdue.2⟩]
    omega

lemma firstSeq_append_of_reached (hfits : ¬ j.Fits)
    (hrd : ¬ (0 < lowestPin env.pinOrder ∧ j.firstSeq < lowestPin env.pinOrder)) :
    (j.append env action old new pos).firstSeq = j.nextSeq + 1 - j.maxEntries +
      j.expired env ((j.push env.stamp action old new pos).entries.drop
        (j.entries.length + 1 - j.maxEntries).toNat) := by
  obtain ⟨e, es, hpush, hseq, -⟩ := exists_push_eq_cons j env action old new pos
  have hlen := length_push j env action old new pos
  unfold Fits at hfits
  have hdue : 0 < j.maxEntries ∧ j.maxEntries <
      (j.push env.stamp action old new pos).entries.length := by omega
  have hexcess : ((j.push env.stamp action old new pos).entries.length -
      j.maxEntries).toNat = (j.entries.length + 1 - j.maxEntries).toNat := by
    rw [hlen]
    rfl
  have hprn : (j.append env action old new pos).entries =
      pruneByAge j.maxAge (lowestPin env.pinOrder) env.now
        ((j.push env.stamp action old new pos).entries.drop
          (j.entries.length + 1 - j.maxEntries).toNat) := by
    rw [entries_append_eq, pruneEntries, if_pos hdue]
    by_cases hpin : 0 < lowestPin env.pinOrder
    · have hhead : (j.push env.stamp action old new pos).entries.head?.any
          (·.sequence < lowestPin env.pinOrder) = false := by
        rw [hpush]
        simp [hseq]
        omega
      simp only [if_pos hpin, drainExcess_eq, hhead, hexcess]
      rw [if_neg]
      · rfl
      · simp
        omega
    · simp only [if_neg hpin, hexcess]
  rw [firstSeq, hprn, length_pruneByAge, nextSeq_append, length_drop, hlen]
  omega

end

variable {pins : List Int}

lemma foldl_lowest (hpos : ∀ seq ∈ pins, 0 < seq) {acc : Int} (hacc : 0 < acc) :
    pins.foldl (fun minPin seq => if minPin = 0 ∨ seq < minPin then seq else minPin) acc =
      pins.foldl min acc := by
  induction pins generalizing acc with
  | nil => rfl
  | cons seq pins ih =>
    have hseq := hpos seq mem_cons_self
    have hstep : (if acc = 0 ∨ seq < acc then seq else acc) = min acc seq := by split_ifs <;> omega
    rw [foldl_cons, foldl_cons, hstep]
    exact ih (fun seq hmem => hpos seq (mem_cons_of_mem _ hmem)) (by omega)

lemma lowestPin_eq (hpos : ∀ seq ∈ pins, 0 < seq) : lowestPin pins = pins.min?.getD 0 := by
  cases pins with
  | nil => rfl
  | cons seq pins =>
    have hseq := hpos seq mem_cons_self
    rw [lowestPin, foldl_cons, if_pos (.inl rfl),
      foldl_lowest (fun seq hmem => hpos seq (mem_cons_of_mem _ hmem)) hseq]
    rfl

lemma lowestPin_spec (hpos : ∀ seq ∈ pins, 0 < seq) (hne : pins ≠ []) :
    lowestPin pins ∈ pins ∧ ∀ seq ∈ pins, lowestPin pins ≤ seq := by
  obtain ⟨least, hleast⟩ : ∃ least, pins.min? = some least :=
    isSome_iff_exists.mp (by simpa [isSome_min?_iff] using hne)
  rw [lowestPin_eq hpos, hleast]
  exact min?_eq_some_iff.mp hleast

section

variable {j : Journal P V} {env : AppendEnv} {action : ChangeAction}
  {old new : Option (Row V)} {pos : Option P}

def NothingDue (j : Journal P V) (env : AppendEnv) : Prop :=
  j.Fits ∧ (j.maxAge ≤ 0 ∨ env.now - j.maxAge ≤ j.oldestStamp env ∨
    0 < lowestPin env.pinOrder ∧ lowestPin env.pinOrder ≤ j.firstSeq)

def PinsFit (j : Journal P V) : Prop :=
  (∀ (id : String) (seq : Int), j.pins[id]? = some seq → 0 < seq) ∧
    (j.Fits ∨ ∀ (id : String) (seq : Int), j.pins[id]? = some seq →
      j.firstSeq < seq ∨ j.nextSeq ≤ seq + j.maxEntries)

lemma expired_eq_zero_iff (j : Journal P V) (env : AppendEnv) (action : ChangeAction)
    (old new : Option (Row V)) (pos : Option P) :
    j.expired env (j.push env.stamp action old new pos).entries = 0 ↔
      j.maxAge ≤ 0 ∨ env.now - j.maxAge ≤ j.oldestStamp env ∨
        0 < lowestPin env.pinOrder ∧ lowestPin env.pinOrder ≤ j.firstSeq := by
  obtain ⟨e, es, hpush, hseq, hstamp⟩ :=
    exists_push_eq_cons j env action old new pos
  unfold expired
  rw [hpush]
  split
  · next hage =>
      rw [countExpired_eq_zero_iff, hseq, hstamp]
      exact (or_iff_right (by omega)).symm
  · next hage => exact iff_of_true rfl (.inl (by omega))

lemma expired_le_pin (hpin : 0 < lowestPin env.pinOrder) {first : Int}
    {entries : List (JournalEntry P V)} (h : Consec first (entries.map (·.sequence))) :
    j.expired env entries = 0 ∨ first + j.expired env entries ≤ lowestPin env.pinOrder := by
  unfold expired
  split
  · exact countExpired_le_pin hpin h
  · exact .inl rfl

lemma contiguous_push (j : Journal P V) (env : AppendEnv) (action : ChangeAction)
    (old new : Option (Row V)) (pos : Option P) :
    Consec j.firstSeq
      ((j.push env.stamp action old new pos).entries.map (·.sequence)) := by
  have hrun := (j.push env.stamp action old new pos).contiguous
  rw [length_push] at hrun
  convert hrun using 1
  unfold firstSeq push
  push_cast
  omega

lemma firstSeq_append_le_of_room (action : ChangeAction)
    (old new : Option (Row V)) (pos : Option P) (hpin : 0 < lowestPin env.pinOrder)
    (hroom : j.Fits ∨ j.firstSeq < lowestPin env.pinOrder ∨
      j.nextSeq ≤ lowestPin env.pinOrder + j.maxEntries) :
    (j.append env action old new pos).firstSeq ≤ j.firstSeq ∨
      (j.append env action old new pos).firstSeq ≤ lowestPin env.pinOrder + 1 := by
  have hrun := contiguous_push j env action old new pos
  by_cases hfits : j.Fits
  · have hxp := expired_le_pin (j := j) hpin hrun
    rw [firstSeq_append_of_fits j env action old new pos hfits]
    omega
  by_cases hbef : j.firstSeq < lowestPin env.pinOrder
  · have hcount := countBeforePin_le_pin j.maxEntries (lowestPin env.pinOrder) hrun
    rw [(firstSeq_append_of_before j env action old new pos hfits hpin hbef).1]
    omega
  · -- the excess is dropped, and what is left starts past the pin
    have hnext := (hroom.resolve_left hfits).resolve_left hbef
    have hlen := length_push j env action old new pos
    have hdrop := hrun.drop (k := (j.entries.length + 1 - j.maxEntries).toNat) (by
      unfold Fits at hfits
      rw [length_map, hlen]
      omega)
    rw [← map_drop] at hdrop
    have hxp := expired_le_pin (j := j) hpin hdrop
    rw [firstSeq_append_of_reached j env action old new pos hfits
      fun h => hbef h.2]
    omega

lemma firstSeq_append_le_iff (j : Journal P V) (env : AppendEnv) (action : ChangeAction)
    (old new : Option (Row V)) (pos : Option P) :
    (j.append env action old new pos).firstSeq ≤ j.firstSeq ↔ j.NothingDue env := by
  unfold NothingDue
  by_cases hfits : j.Fits
  · rw [and_iff_right hfits, ← expired_eq_zero_iff j env action old new pos,
      firstSeq_append_of_fits j env action old new pos hfits]
    omega
  · refine iff_of_false (fun h => ?_) fun h => hfits h.1
    by_cases hpin : 0 < lowestPin env.pinOrder ∧ j.firstSeq < lowestPin env.pinOrder
    · obtain ⟨hfst, hprn⟩ :=
        firstSeq_append_of_before j env action old new pos hfits hpin.1 hpin.2
      omega
    · rw [firstSeq_append_of_reached j env action old new pos hfits hpin] at h
      unfold Fits at hfits
      unfold firstSeq at h
      omega

lemma append_keepsPast_iff
    (hpins : ∀ seq, seq ∈ env.pinOrder ↔ ∃ id : String, j.pins[id]? = some seq) :
    (∀ (id : String) (seq : Int), j.pins[id]? = some seq →
        j.KeepsPast (j.append env action old new pos) seq) ↔
      j.NothingDue env ∨ j.PinsFit := by
  have hfst := j.first_pos
  have hdue_iff := firstSeq_append_le_iff j env action old new pos
  simp only [keepsPast_iff]
  constructor
  · intro h
    by_contra hnot
    rw [not_or] at hnot
    obtain ⟨hdue, hfit⟩ := hnot
    have hkept : ∀ (id : String) (seq : Int), j.pins[id]? = some seq →
        (j.append env action old new pos).firstSeq ≤ seq + 1 :=
      fun id seq hseq => (h id seq hseq).resolve_left fun hle => hdue (hdue_iff.mp hle)
    have hprn : j.firstSeq < (j.append env action old new pos).firstSeq :=
      Int.not_le.mp fun hle => hdue (hdue_iff.mp hle)
    have hpos : ∀ (id : String) (seq : Int), j.pins[id]? = some seq → 0 < seq := by
      intro id seq hseq
      have hle := hkept id seq hseq
      unfold firstSeq at hprn hle
      omega
    refine hfit ⟨hpos, ?_⟩
    by_cases hfits : j.Fits
    · exact .inl hfits
    · refine .inr fun id seq hseq => ?_
      by_contra hover
      rw [not_or] at hover
      have hmem : seq ∈ env.pinOrder := (hpins seq).mpr ⟨id, hseq⟩
      have hleast := (lowestPin_spec (fun n hn => by
        obtain ⟨id', hid'⟩ := (hpins n).mp hn
        exact hpos id' n hid') (ne_nil_of_mem hmem)).2 seq hmem
      have hle := hkept id seq hseq
      rw [firstSeq_append_of_reached j env action old new pos hfits (by omega)] at hle
      omega
  · rintro (hdue | ⟨hpos, hroom⟩) id seq hseq
    · exact .inl (hdue_iff.mpr hdue)
    · have hmem : seq ∈ env.pinOrder := (hpins seq).mpr ⟨id, hseq⟩
      have hall : ∀ n ∈ env.pinOrder, 0 < n := fun n hn => by
        obtain ⟨id', hid'⟩ := (hpins n).mp hn
        exact hpos id' n hid'
      obtain ⟨hlowest, hleast⟩ := lowestPin_spec hall (ne_nil_of_mem hmem)
      obtain ⟨id', hid'⟩ := (hpins _).mp hlowest
      have hle := hleast seq hmem
      have hkept := firstSeq_append_le_of_room action old new pos (hall _ hlowest)
        (hroom.imp_right fun h => h id' _ hid')
      omega

end

end Journal

def Op.appends {P V : Type} : Op P V → Bool
  | .onBaselineComplete | .setChangePosition _ => false
  | _ => true

lemma Op.journal {P V : Type} [GoValue V] (t : Target P V) (env : AppendEnv) (op : Op P V) :
    (op.apply t env).j.pins = t.j.pins ∧
      ((op.appends = true ∧ ∃ action old new pos,
          (op.apply t env).j = t.j.append env action old new pos) ∨
        op.appends = false ∧ (op.apply t env).j.firstSeq = t.j.firstSeq) := by
  cases op with
  | onBaselineRow row | onInsert row | onUpdate row identity | onDelete identity | onTruncate =>
    exact ⟨rfl, .inl ⟨rfl, _, _, _, _, rfl⟩⟩
  | setChangePosition pos => exact ⟨rfl, .inr ⟨rfl, rfl⟩⟩
  | onBaselineComplete =>
    -- at most the positions are filled in
    show (t.j.backfillNilPositions t.curPos).pins = _ ∧ (_ ∨ _ ∧
      (t.j.backfillNilPositions t.curPos).firstSeq = _)
    cases t.curPos with
    | none => exact ⟨rfl, .inr ⟨rfl, rfl⟩⟩
    | some p => exact ⟨rfl, .inr ⟨rfl, by simp [Journal.firstSeq, Journal.backfillNilPositions]⟩⟩

end Laredo.Fanout
