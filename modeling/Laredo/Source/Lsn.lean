import Laredo.Snapshot.Store

/-!
# LSN

The texts of log sequence numbers (`source/pg/lsn.go`, `internal/lsn/lsn.go`).
-/

namespace Laredo.Lsn

open List

open SnapshotStore (cut cut_of_notMem hex lsnString)

/-- The value of a digit, with letters of either case up to `z`. -/
def digitValue (c : Char) : Option Nat :=
  let lower := c.toNat ||| 0x20
  if '0' ≤ c ∧ c ≤ '9' then some (c.toNat - '0'.toNat)
  else if 'a'.toNat ≤ lower ∧ lower ≤ 'z'.toNat then some (lower - 'a'.toNat + 10)
  else none

/-- One round of the loop of `ParseUint(s, 16, 32)`. -/
def addDigit (s : String) (n : Nat) (c : Char) : Except String Nat :=
  let failed reason := .error ("strconv.ParseUint: parsing " ++ s.quote ++ ": " ++ reason)
  match digitValue c with
  | none => failed "invalid syntax"
  | some d =>
      if 16 ≤ d then failed "invalid syntax"
      else if 2 ^ 32 ≤ n * 16 + d then failed "value out of range"
      else .ok (n * 16 + d)

/-- `ParseUint(s, 16, 32)` of a string that is not empty. -/
def parseUint (s : String) : Except String Nat := s.toList.foldlM (addDigit s) 0

def parseLSN (s : String) : Except String Pg.LSN :=
  match cut '/' s with
  | none => .error ("invalid LSN " ++ s.quote ++ ": expected format X/XXXXXXXX")
  | some (hi, lo) =>
      if hi = "" ∨ lo = "" then
        .error ("invalid LSN " ++ s.quote ++ ": expected format X/XXXXXXXX")
      else do
        let high ← (parseUint hi).mapError ("invalid LSN " ++ s.quote ++ ": bad high part: " ++ ·)
        let low ← (parseUint lo).mapError ("invalid LSN " ++ s.quote ++ ": bad low part: " ++ ·)
        return high <<< 32 ||| low

def parse (s : String) : Option Nat :=
  match cut '/' s with
  | none => none
  | some (hi, lo) =>
      if hi = "" ∨ lo = "" then none
      else
        match parseUint hi with
        | .error _ => none
        | .ok high =>
            match parseUint lo with
            | .error _ => none
            | .ok low => some (high <<< 32 ||| low)

def compare (a b : String) : Int :=
  match parse a, parse b with
  | none, none => 0
  | none, some _ => -1
  | some _, none => 1
  | some la, some lb => if la < lb then -1 else if la > lb then 1 else 0

lemma parse_eq_some_iff {s : String} {v : Nat} : parse s = some v ↔ parseLSN s = .ok v := by
  unfold parse parseLSN
  cases cut '/' s with
  | none => simp
  | some parts =>
    obtain ⟨hi, lo⟩ := parts
    by_cases hemp : hi = "" ∨ lo = ""
    · simp [hemp]
    · simp only [hemp, if_false]
      cases parseUint hi <;> cases parseUint lo <;>
        simp [Except.mapError, bind, Except.bind, pure, Except.pure]

lemma digitValue_toUpper {d : Nat} (h : d < 16) :
    digitValue (Nat.digitChar d).toUpper = some d := by
  revert d
  decide

lemma addDigit_digitChar (s : String) {n : Nat} (h : n < 2 ^ 32) :
    addDigit s (n / 16) (Nat.digitChar (n % 16)).toUpper = .ok n := by
  have hd : n % 16 < 16 := Nat.mod_lt n (by decide)
  have hn : n / 16 * 16 + n % 16 = n := by omega
  simp only [addDigit, digitValue_toUpper hd, hn]
  rw [if_neg (Nat.not_le.2 hd), if_neg (by omega)]

lemma foldlM_toDigits (s : String) {n : Nat} (h : n < 2 ^ 32) :
    ((Nat.toDigits 16 n).map Char.toUpper).foldlM (addDigit s) 0 = .ok n := by
  induction n using Nat.strongRecOn with
  | ind n ih =>
    by_cases hn : n < 16
    · rw [Nat.toDigits_of_lt_base hn]
      have hstep := addDigit_digitChar s h
      rw [Nat.div_eq_of_lt hn, Nat.mod_eq_of_lt hn] at hstep
      simp [hstep]
    · rw [Nat.toDigits_of_base_le (by decide) (Nat.not_lt.1 hn), map_append,
        foldlM_append, ih (n / 16) (by omega) (by omega)]
      have hstep := addDigit_digitChar s h
      simp [bind, Except.bind, hstep, pure, Except.pure]

lemma parseUint_hex (width : Nat) {n : Nat} (h : n < 2 ^ 32) :
    parseUint (hex width n) = .ok n := by
  have hzeros : ∀ (s : String) (k : Nat), (List.replicate k '0').foldlM (addDigit s) 0 = .ok 0 := by
    intro s k
    induction k with
    | zero => rfl
    | succ k ih => exact ih
  rw [parseUint, hex, String.toList_ofList, List.leftpad, foldlM_append, hzeros]
  exact foldlM_toDigits _ h

lemma of_parseUint {s : String} {n : Nat} (h : parseUint s = .ok n) : '/' ∉ s.toList := by
  have hfold : ∀ (l : List Char) (k : Nat), l.foldlM (addDigit s) k = .ok n → '/' ∉ l := by
    intro l
    induction l with
    | nil => simp
    | cons c l ih =>
      intro k hk
      rw [foldlM_cons] at hk
      cases hstep : addDigit s k c with
      | error err => simp [hstep, bind, Except.bind] at hk
      | ok k' =>
        rw [hstep] at hk
        refine not_mem_cons_of_ne_of_not_mem ?_ (ih k' hk)
        rintro rfl
        cases hstep
  exact hfold _ 0 h

lemma hex_ne_empty (width n : Nat) : hex width n ≠ "" := by
  intro h
  have hlen := congrArg (fun s : String => s.toList.length) h
  simp [hex, List.leftpad] at hlen

lemma parseLSN_lsnString (a : UInt64) : parseLSN (lsnString a.toNat) = .ok a.toNat := by
  have ha := a.toNat_lt
  have hhigh : a.toNat / 2 ^ 32 % 2 ^ 32 < 2 ^ 32 := Nat.mod_lt _ (by decide)
  have hlow : a.toNat % 2 ^ 32 < 2 ^ 32 := Nat.mod_lt _ (by decide)
  have hcut : cut '/' (lsnString a.toNat) =
      some (hex 0 (a.toNat / 2 ^ 32 % 2 ^ 32), hex 8 (a.toNat % 2 ^ 32)) :=
    cut_of_notMem (of_parseUint (parseUint_hex 0 hhigh)) (by simp [lsnString])
  have hsum : (a.toNat / 2 ^ 32 % 2 ^ 32) <<< 32 ||| a.toNat % 2 ^ 32 = a.toNat := by
    rw [← Nat.shiftLeft_add_eq_or_of_lt hlow, Nat.shiftLeft_eq]
    omega
  simp only [parseLSN, hcut, hex_ne_empty, or_self, if_false, parseUint_hex _ hhigh,
    parseUint_hex _ hlow]
  exact congrArg Except.ok hsum

/-- **LSN texts are faithful.** A printed LSN parses to itself, the two parsers agree, and `Compare`
is a total preorder on all strings, which is `CompareLSN` on texts of LSNs. -/
theorem lsn_text_is_faithful :
    (∀ a : UInt64, parseLSN (lsnString a.toNat) = .ok a.toNat) ∧
    (∀ a b : UInt64, compare (lsnString a.toNat) (lsnString b.toNat) =
      Pg.compareLSN (some a.toNat) (some b.toNat)) ∧
    (∀ s v, parse s = some v ↔ parseLSN s = .ok v) ∧
    (∀ s t, compare s t = -compare t s) ∧
    (∀ s t u, compare s t ≤ 0 → compare t u ≤ 0 → compare s u ≤ 0) ∧
    ∀ s t, parse s = none → (∀ v, parse t = some v → compare s t < 0) ∧
      (parse t = none → compare s t = 0) := by
  have hparse : ∀ a : UInt64, parse (lsnString a.toNat) = some a.toNat :=
    fun a => parse_eq_some_iff.2 (parseLSN_lsnString a)
  refine ⟨parseLSN_lsnString, fun a b => ?_, fun s v => parse_eq_some_iff, fun s t => ?_,
    fun s t u => ?_, fun s t hs => ?_⟩
  · simp [compare, hparse, Pg.compareLSN]
  · unfold compare
    cases parse s <;> cases parse t <;> grind
  · unfold compare
    cases parse s <;> cases parse t <;> cases parse u <;> grind
  · constructor
    · intro v ht
      simp [compare, hs, ht]
    · intro ht
      simp [compare, hs, ht]

end Laredo.Lsn
