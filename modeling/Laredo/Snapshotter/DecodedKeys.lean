import Laredo.Lib.Joined
import Laredo.Snapshot.Store
import Laredo.Snapshotter.Buffer

/-!
# Decoded keys

The keys of rows before and after an archive format (`snapshotter/keys.go`), with the text that `%v`
prints for a float with an integer value.
-/

namespace Laredo.Snapshotter

open List Function

open SnapshotStore (roundFloat64)

/-- `n` rounded to `digits` significant digits. -/
def rounded (n digits : Nat) : Nat :=
  let unit := 10 ^ ((Nat.toDigits 10 n).length - digits)
  (n + unit / 2) / unit * unit

/-- The number with the fewest digits that is read as the float `n`. -/
def shortest (n : Nat) : Nat :=
  (((List.range' 1 17).map (rounded n)).find? fun m => decide (roundFloat64 m = n)).getD n

def formatExp (m : Nat) : String :=
  let digits := Nat.toDigits 10 m
  let significant := (digits.reverse.dropWhile (· = '0')).reverse
  let exp := digits.length - 1
  String.ofList (significant.take 1) ++
    (if 1 < significant.length then "." ++ String.ofList (significant.drop 1) else "") ++
    ("e+" ++ (if exp < 10 then "0" else "") ++ toString exp)

/-- `FormatFloat(v, 'g', -1, 64)` of an integer: `%e` from the exponent 6 on. -/
def formatFloat (n : Int) : String :=
  let m := shortest n.natAbs
  (if n < 0 then "-" else "") ++ if m < 1000000 then toString m else formatExp m

example : [0, -17, 100000, 999999].map formatFloat = ["0", "-17", "100000", "999999"] := by
  decide +kernel

example : [1000000, 1234567, -12000000, 2 ^ 60].map formatFloat =
    ["1e+06", "1.234567e+06", "-1.2e+07", "1.152921504606847e+18"] := by
  decide +kernel

lemma roundFloat64_of_small {m : Nat} (h : m < 2 ^ 53) : roundFloat64 m = m := by
  rw [roundFloat64, if_pos h]

lemma lt_of_roundFloat64_lt {m : Nat} (h : roundFloat64 m < 2 ^ 53) : m < 2 ^ 53 := by
  by_contra hm
  have hlog : 53 ≤ m.log2 := (Nat.le_log2 (by omega)).2 (by omega)
  have hquot : 2 ^ 52 ≤ m / 2 ^ (m.log2 - 52) := by
    rw [Nat.le_div_iff_mul_le (Nat.two_pow_pos _), ← Nat.pow_add]
    have hpow := Nat.log2_self_le (n := m) (by omega)
    rwa [Nat.add_sub_cancel' (by omega)]
  have htwo : 2 ≤ 2 ^ (m.log2 - 52) := by
    simpa using Nat.pow_le_pow_right (n := 2) (by decide) (show 1 ≤ m.log2 - 52 by omega)
  have hmul := Nat.mul_le_mul hquot htwo
  refine absurd h (Nat.not_lt.2 (hmul.trans ?_))
  simp only [roundFloat64, hm, if_false]
  exact Nat.mul_le_mul_right _ (by split <;> omega)

lemma shortest_spec (n : Nat) : roundFloat64 (shortest n) = n ∨ shortest n = n := by
  unfold shortest
  cases hfind : ((List.range' 1 17).map (rounded n)).find? fun m => decide (roundFloat64 m = n) with
  | none => exact .inr rfl
  | some m => exact .inl (by simpa using find?_some hfind)

lemma shortest_of_small {n : Nat} (h : n < 1000000) : shortest n = n := by
  rcases shortest_spec n with hround | heq
  · have hsmall := lt_of_roundFloat64_lt (m := shortest n) (by omega)
    rwa [roundFloat64_of_small hsmall] at hround
  · exact heq

lemma le_shortest {n : Nat} (h : 1000000 ≤ n) : 1000000 ≤ shortest n := by
  by_contra hlt
  rcases shortest_spec n with hround | heq
  · rw [roundFloat64_of_small (by omega)] at hround
    omega
  · omega

/-- `float64(n)` -/
def toFloat64 (n : Int) : Int := n.sign * roundFloat64 n.natAbs

lemma toFloat64_of_small {n : Int} (h : n.natAbs < 1000000) : toFloat64 n = n := by
  rw [toFloat64, roundFloat64_of_small (by omega), Int.sign_mul_natAbs]

lemma le_natAbs_toFloat64 {n : Int} (h : 1000000 ≤ n.natAbs) : 1000000 ≤ (toFloat64 n).natAbs := by
  have hne : n ≠ 0 := by omega
  rw [toFloat64, Int.natAbs_mul, Int.natAbs_sign_of_ne_zero hne, Nat.one_mul, Int.natAbs_natCast]
  by_contra hlt
  have hround := roundFloat64_of_small (lt_of_roundFloat64_lt (m := n.natAbs) (by omega))
  omega

lemma formatFloat_of_small {n : Int} (h : n.natAbs < 1000000) :
    formatFloat (toFloat64 n) = toString n := by
  rw [toFloat64_of_small h]
  simp only [formatFloat, shortest_of_small h, if_pos h]
  cases n with
  | ofNat k =>
    rw [if_neg (Int.not_lt.2 (Int.natCast_nonneg k) : ¬ Int.ofNat k < 0), String.empty_append]
    rfl
  | negSucc k =>
    rw [if_pos (Int.negSucc_lt_zero k)]
    rfl

lemma e_mem_formatFloat {n : Int} (h : 1000000 ≤ n.natAbs) :
    'e' ∈ (formatFloat (toFloat64 n)).toList := by
  simp [formatFloat, Nat.not_lt.2 (le_shortest (le_natAbs_toFloat64 h)), formatExp]

lemma mem_toString {n : Int} {c : Char} (hc : c ∈ (toString n).toList) : c = '-' ∨ c.isDigit := by
  have hdigit : ∀ m : Nat, c ∈ m.repr.toList → c.isDigit := by
    intro m hm
    rw [Nat.toList_repr] at hm
    exact Nat.isDigit_of_mem_toDigits (by decide) (by decide) hm
  cases n with
  | ofNat n => exact .inr (hdigit n hc)
  | negSucc n =>
    have hc : c ∈ ("-" ++ (n + 1).repr).toList := hc
    rw [String.toList_append, mem_append] at hc
    rcases hc with hc | hc
    · exact .inl (by simpa using hc)
    · exact .inr (hdigit _ hc)

/-- The value of a key column. Integers of every Go type are one case, as are the `float64` with an
integer value; the other floats are of any type `F` that is printed. -/
inductive KeyValue (F : Type)
  | nil
  | str (s : String)
  | bool (b : Bool)
  | int (n : Int)
  | whole (n : Int)
  | float (x : F)
  deriving DecidableEq

section

variable {F : Type} [ToString F]

instance : GoValue (KeyValue F) where
  nil := .nil
  sprint
    | .nil => "<nil>"
    | .str s => s
    | .bool b => toString b
    | .int n => toString n
    | .whole n => formatFloat n
    | .float x => toString x
  sprint_nil := rfl

/-- What JSON and `structpb` make of a value. -/
def KeyValue.decode : KeyValue F → KeyValue F
  | .int n => .whole (toFloat64 n)
  | v => v

def decodeRow (row : Row (KeyValue F)) : Row (KeyValue F) := row.map fun _ v => v.decode

def KeyValue.Stable : KeyValue F → Prop
  | .int n => n.natAbs < 1000000
  | _ => True

lemma get_decodeRow (row : Row (KeyValue F)) (f : String) :
    (decodeRow row).get f = (row.get f).decode := by
  unfold Row.get decodeRow
  rw [Std.ExtTreeMap.getElem?_map]
  cases row[f]? <;> rfl

end

def numbered (id : Int) : Row (KeyValue String) := .ofList [("id", KeyValue.int id)]

end Laredo.Snapshotter
