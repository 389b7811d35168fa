import Laredo.Source.PgTuples

/-!
# PostgreSQL: keys

The keys of rows that come from PostgreSQL.
-/

namespace Laredo.Pg

open List Option

open Memory (IndexedTarget buildKey)

def NoNul (s : String) : Prop := '\x00' ∉ s.toList

instance (s : String) : Decidable (NoNul s) := inferInstanceAs (Decidable (_ ∉ _))

lemma NoNul.append {s t : String} (hs : NoNul s) (ht : NoNul t) : NoNul (s ++ t) := by
  simp only [NoNul, String.toList_append, mem_append, not_or]
  exact ⟨hs, ht⟩

lemma noNul_repr (n : Nat) : NoNul n.repr := by
  intro hmem
  rw [Nat.toList_repr] at hmem
  exact absurd (Nat.isDigit_of_mem_toDigits (by decide) (by decide) hmem) (by decide)

lemma noNul_toString (n : Int) : NoNul (toString n) := by
  cases n with
  | ofNat n => exact noNul_repr n
  | negSucc n => exact NoNul.append (s := "-") (by decide) (noNul_repr (n + 1))

lemma intercalate_nul_inj {ps parts' : List String} (hlen : ps.length = parts'.length)
    (hparts : ∀ part ∈ ps, NoNul part) (hparts' : ∀ part ∈ parts', NoNul part)
    (h : "\x00".intercalate ps = "\x00".intercalate parts') : ps = parts' := by
  by_cases hnil : ps = []
  · subst hnil
    exact (eq_nil_of_length_eq_zero hlen.symm).symm
  have hnil' : parts' ≠ [] := fun hparts' =>
    hnil (eq_nil_of_length_eq_zero (by simp [hlen, hparts']))
  have hlists := congrArg String.toList h
  rw [String.toList_intercalate, String.toList_intercalate] at hlists
  have hspl : List.splitOn '\x00' (['\x00'].intercalate (ps.map String.toList)) =
      List.splitOn '\x00' (['\x00'].intercalate (parts'.map String.toList)) :=
    congrArg (List.splitOn '\x00') hlists
  rw [splitOn_intercalate '\x00' (by simpa [NoNul] using hparts) (by simpa using hnil),
    splitOn_intercalate '\x00' (by simpa [NoNul] using hparts') (by simpa using hnil')] at hspl
  exact map_injective_iff.mpr (fun _ _ => String.toList_inj.mp) hspl

structure PgText where
  data : String
  noNul : NoNul data

structure Uuid where
  bytes : List (Fin 256)
  length : bytes.length = 16

/-- A finite time stamp with time zone: the parts that `time.Time` prints, with a blank between
them, and the text that PostgreSQL writes, with a blank before the time and perhaps one before the
era. -/
structure Timestamptz where
  date : String
  clock : String
  offset : String
  zone : String
  text : String
  noNul : ∀ part ∈ [date, clock, offset, zone, text], NoNul part
  blanks : text.toList.count ' ' ≤ 2

structure OtherValue where
  printed : String
  text : String
  noNul : NoNul printed ∧ NoNul text

inductive PgValue
  | integer (n : Int)
  | text (s : PgText)
  | bool (b : Bool)
  | uuid (u : Uuid)
  | timestamptz (t : Timestamptz)
  | other (o : OtherValue)

inductive Native
  | nil
  | string (s : String)
  | int (n : Int)
  | bool (b : Bool)
  | array (bytes : List (Fin 256))
  | time (t : Timestamptz)
  | other (o : OtherValue)

def formatValue : Native → String
  | .string s => s
  | .int n => toString n
  | .bool b => if b then "true" else "false"
  | .nil => "<nil>"
  | .array bytes => "[" ++ " ".intercalate (bytes.map fun b => b.val.repr) ++ "]"
  | .time t => " ".intercalate [t.date, t.clock, t.offset, t.zone]
  | .other o => o.printed

instance : GoValue Native where
  nil := .nil
  sprint := formatValue
  sprint_nil := rfl

def hexDigits (b : Fin 256) : String :=
  String.ofList [Nat.digitChar (b.val / 16), Nat.digitChar (b.val % 16)]

def uuidText (bytes : List (Fin 256)) : String :=
  String.join (bytes.mapIdx fun i b =>
    if i = 4 ∨ i = 6 ∨ i = 8 ∨ i = 10 then "-" ++ hexDigits b else hexDigits b)

namespace PgValue

def native : PgValue → Native
  | .integer n => .int n
  | .text s => .string s.data
  | .bool b => .bool b
  | .uuid u => .array u.bytes
  | .timestamptz t => .time t
  | .other o => .other o

def sent : PgValue → String
  | .integer n => toString n
  | .text s => s.data
  | .bool b => if b then "t" else "f"
  | .uuid u => uuidText u.bytes
  | .timestamptz t => t.text
  | .other o => o.text

def PrintsAsSent : PgValue → Prop
  | .integer _ | .text _ => True
  | .bool _ | .uuid _ | .timestamptz _ => False
  | .other o => o.printed = o.text

end PgValue

lemma noNul_hexDigits (b : Fin 256) : NoNul (hexDigits b) := by
  revert b
  decide +kernel

lemma noNul_uuidText (bytes : List (Fin 256)) : NoNul (uuidText bytes) := by
  unfold NoNul uuidText
  rw [String.toList_join, mem_flatMap]
  rintro ⟨part, hpart, hmem⟩
  obtain ⟨i, hi, rfl⟩ := mem_mapIdx.mp hpart
  split at hmem
  · exact NoNul.append (s := "-") (by decide) (noNul_hexDigits _) hmem
  · exact noNul_hexDigits _ hmem

lemma formatValue_array_ne (u : Uuid) : formatValue (.array u.bytes) ≠ uuidText u.bytes := by
  obtain ⟨bytes, hlen⟩ := u
  cases bytes with
  | nil => cases hlen
  | cons b bytes =>
    intro h
    have hhead := congrArg (fun s => s.toList.head?) h
    simp [formatValue, uuidText, hexDigits, mapIdx_cons] at hhead

lemma formatValue_time_ne (t : Timestamptz) : formatValue (.time t) ≠ t.text := by
  intro h
  have hprinted : 3 ≤ (formatValue (.time t)).toList.count ' ' := by
    simp [formatValue]
    omega
  rw [h] at hprinted
  exact absurd (hprinted.trans t.blanks) (by decide)

lemma PgValue.formatValue_native_eq_iff (v : PgValue) :
    formatValue v.native = v.sent ↔ v.PrintsAsSent := by
  cases v with
  | integer n | text s => exact iff_of_true rfl trivial
  | bool b => exact iff_of_false (by cases b <;> decide) id
  | uuid u => exact iff_of_false (formatValue_array_ne u) id
  | timestamptz t => exact iff_of_false (formatValue_time_ne t) id
  | other o => exact Iff.rfl

lemma PgValue.noNul_sent (v : PgValue) : NoNul v.sent := by
  cases v with
  | integer n => exact noNul_toString n
  | text s => exact s.noNul
  | bool b => cases b <;> decide
  | uuid u => exact noNul_uuidText u.bytes
  | timestamptz t => exact t.noNul t.text (by simp)
  | other o => exact o.noNul.2

lemma noNul_intercalate_blank {ps : List String} (h : ∀ part ∈ ps, NoNul part) :
    NoNul (" ".intercalate ps) := by
  induction ps with
  | nil => decide
  | cons part ps ih =>
    rw [forall_mem_cons] at h
    cases ps with
    | nil => simpa using h.1
    | cons part' ps =>
      rw [String.intercalate_cons_cons]
      exact (h.1.append (by decide)).append (ih h.2)

lemma PgValue.noNul_formatValue (v : PgValue) : NoNul (formatValue v.native) := by
  cases v with
  | integer n => exact noNul_toString n
  | text s => exact s.noNul
  | bool b => cases b <;> decide
  | uuid u =>
    refine ((NoNul.append (s := "[") (by decide) ?_).append (by decide))
    exact noNul_intercalate_blank fun part hpart => by
      obtain ⟨b, -, rfl⟩ := List.mem_map.mp hpart
      exact noNul_repr b.val
  | timestamptz t => exact noNul_intercalate_blank fun part hpart => t.noNul part (by
      simp only [mem_cons] at hpart ⊢
      tauto)
  | other o => exact o.noNul.1

def nativeOf : Option PgValue → Native
  | none => .nil
  | some v => v.native

def columnOf : Option PgValue → TupleColumn
  | none => .null
  | some v => .text v.sent

def baselineRow (colNames : List String) (values : List (Option PgValue)) : Row Native :=
  (colNames.zip values).foldl (fun row x => row.insert x.1 (nativeOf x.2)) ∅

def streamedRow (rel : RelationMessage) (values : List (Option PgValue)) : Row Native :=
  Row.orEmpty (tupleToRow .string rel (some (values.map columnOf)))

def valueAt (colNames : List String) (values : List (Option PgValue)) (name : String) :
    Option PgValue :=
  ((colNames.zip values).find? fun x => x.1 == name).bind Prod.snd

def PrintsAlike : Option PgValue → Prop
  | none => True
  | some v => v.PrintsAsSent

lemma get_baselineRow {cns : List String} (hnd : cns.Nodup)
    (vals : List (Option PgValue)) (name : String) :
    (baselineRow cns vals).get name = nativeOf (valueAt cns vals name) := by
  have hcells := getElem?_foldl_cells (fun x : String × Option PgValue => some (nativeOf x.2))
    (cns.zip vals) (nodup_zip_fst hnd vals) (∅ : Row Native) name
  simp only [elim_some] at hcells
  rw [Row.get, baselineRow, hcells, valueAt]
  cases (cns.zip vals).find? fun x => x.1 == name with
  | none => rfl
  | some x => rfl

variable {rel : RelationMessage}

lemma get_streamedRow (hnd : rel.columns.Nodup) (vals : List (Option PgValue)) (name : String) :
    (streamedRow rel vals).get name =
      (valueAt rel.columns vals name).elim .nil fun v => .string v.sent := by
  have hfind : ((rel.columns.zip (vals.map columnOf)).find? fun x => x.1 == name) =
      ((rel.columns.zip vals).find? fun x => x.1 == name).map (Prod.map id columnOf) := by
    rw [zip_map_right, find?_map]
    rfl
  rw [streamedRow, get_tupleToRow hnd, valueAt, hfind]
  cases (rel.columns.zip vals).find? fun x => x.1 == name with
  | none => rfl
  | some x =>
    obtain ⟨name', v⟩ := x
    cases v <;> rfl

lemma buildKey_eq_iff (hnd : rel.columns.Nodup)
    (vals : List (Option PgValue)) (pks : List String) :
    buildKey pks (baselineRow rel.columns vals) = buildKey pks (streamedRow rel vals) ↔
      ∀ col ∈ pks, PrintsAlike (valueAt rel.columns vals col) := by
  have hcl : ∀ col, GoValue.sprint ((baselineRow rel.columns vals).get col) =
      GoValue.sprint ((streamedRow rel vals).get col) ↔
      PrintsAlike (valueAt rel.columns vals col) := by
    intro col
    rw [get_baselineRow hnd, get_streamedRow hnd]
    cases valueAt rel.columns vals col with
    | none => exact iff_of_true rfl trivial
    | some v => exact v.formatValue_native_eq_iff
  have hbl : ∀ col, NoNul (GoValue.sprint ((baselineRow rel.columns vals).get col)) := by
    intro col
    rw [get_baselineRow hnd]
    cases valueAt rel.columns vals col with
    | none => decide
    | some v => exact v.noNul_formatValue
  have hstre : ∀ col, NoNul (GoValue.sprint ((streamedRow rel vals).get col)) := by
    intro col
    rw [get_streamedRow hnd]
    cases valueAt rel.columns vals col with
    | none => decide
    | some v => exact v.noNul_sent
  constructor
  · intro hkey col hcol
    have hparts := intercalate_nul_inj (by simp) (by simpa using fun col _ => hbl col)
      (by simpa using fun col _ => hstre col) hkey
    exact (hcl col).mp (map_inj_left.mp hparts col hcol)
  · intro halike
    unfold buildKey
    rw [map_inj_left.mpr fun col hcol => (hcl col).mpr (halike col hcol)]

def SameKey (colNames pkCols : List String) (values values' : List (Option PgValue)) : Prop :=
  ∀ col ∈ pkCols, valueAt colNames values' col = valueAt colNames values col

lemma SameKey.buildKey_eq (hnd : rel.columns.Nodup)
    {pks : List String} {vals values' : List (Option PgValue)}
    (h : SameKey rel.columns pks vals values') :
    buildKey pks (streamedRow rel values') = buildKey pks (streamedRow rel vals) := by
  unfold buildKey
  congr 1
  refine map_congr_left fun col hcol => ?_
  rw [get_streamedRow hnd, get_streamedRow hnd, h col hcol]

/-- **Baseline and stream.** The row has the same key in the stream, a delete takes it out, and an
update takes its place: each of these if and only if all key columns of the row print alike. -/
theorem streamed_rows_meet_baseline_iff {rel : RelationMessage} (hnodup : rel.columns.Nodup)
    {t : IndexedTarget Native} {values : List (Option PgValue)}
    (hheld : t.store[buildKey t.pkCols (baselineRow rel.columns values)]? =
      some (baselineRow rel.columns values)) :
    (buildKey t.pkCols (baselineRow rel.columns values) =
        buildKey t.pkCols (streamedRow rel values) ↔
      ∀ col ∈ t.pkCols, PrintsAlike (valueAt rel.columns values col)) ∧
    (∀ oldValues, SameKey rel.columns t.pkCols values oldValues →
      ((t.onDelete (some (streamedRow rel oldValues))).store[
          buildKey t.pkCols (baselineRow rel.columns values)]? = none ↔
        ∀ col ∈ t.pkCols, PrintsAlike (valueAt rel.columns values col))) ∧
    ∀ newValues, SameKey rel.columns t.pkCols values newValues → ∀ identity,
      ((t.onUpdate (streamedRow rel newValues) identity).store[
          buildKey t.pkCols (baselineRow rel.columns values)]? =
          some (streamedRow rel newValues) ↔
        ∀ col ∈ t.pkCols, PrintsAlike (valueAt rel.columns values col)) := by
  have hkey := buildKey_eq_iff hnodup values t.pkCols
  refine ⟨hkey, fun oldValues hsame => ?_, fun newValues hsame identity => ?_⟩
  · rw [← hkey, (t.store_onDelete _).1, KeyedMap.getElem?_erase, Row.orEmpty, getD_some,
      hsame.buildKey_eq hnodup]
    constructor
    · intro hnone
      by_contra hne
      rw [if_neg fun heq => hne heq.symm, hheld] at hnone
      cases hnone
    · intro heq
      rw [if_pos heq.symm]
  · rw [← hkey, (t.store_onUpdate _ _).1, KeyedMap.getElem?_put, hsame.buildKey_eq hnodup]
    constructor
    · intro hnew
      by_contra hne
      rw [if_neg fun heq => hne heq.symm, KeyedMap.getElem?_erase] at hnew
      split at hnew
      · cases hnew
      · -- what is there is the row of the baseline, which has another key
        rw [hheld] at hnew
        refine hne ?_
        rw [some.inj hnew, hsame.buildKey_eq hnodup]
    · intro heq
      rw [if_pos heq.symm]

def switches : RelationMessage := ⟨1, "public", "switches", ["on", "id", "note"]⟩

def note : PgValue := .text ⟨"hall", by decide⟩

def baselined (pkCols : List String) (values : List (Option PgValue)) : IndexedTarget Native :=
  ({ IndexedTarget.new [] [] with pkCols := pkCols }).onInsert (baselineRow switches.columns values)

/-- With a boolean in the key, the row of the baseline stays: a delete does not find it, and an
update puts the new row beside it. A UUID has two keys as well. -/
theorem boolean_key_is_left_behind : let values := [some (.bool true), some (.integer 7), some note]
    let t := baselined ["on", "id"] values
    let uuid : Uuid := ⟨List.replicate 16 171, by decide⟩
    t.store.keys = ["true\x007"] ∧
      (t.onDelete (some (streamedRow switches values))).store.keys = ["true\x007"] ∧
      (t.onUpdate (streamedRow switches values) none).store.keys = ["t\x007", "true\x007"] ∧
      formatValue (PgValue.uuid uuid).native =
        "[171 171 171 171 171 171 171 171 171 171 171 171 171 171 171 171]" ∧
      (PgValue.uuid uuid).sent = "abababab-abab-abab-abab-abababababab" := by
  decide +kernel

theorem streamed_rows_meet_baseline_iff_run :
    let values := [some (.bool true), some (.integer 7), some note]
    let t := baselined ["id"] values
    (t.onDelete (some (streamedRow switches [none, some (.integer 7), none]))).store["7"]? = none ∧
      (t.onUpdate (streamedRow switches [some (.bool false), some (.integer 7), none])
        none).store["7"]? =
        some (streamedRow switches [some (.bool false), some (.integer 7), none]) := by
  intro values t
  have hhl : t.store[buildKey t.pkCols (baselineRow switches.columns values)]? =
      some (baselineRow switches.columns values) := Std.ExtTreeMap.getElem?_insert_self
  have halike : ∀ col ∈ t.pkCols, PrintsAlike (valueAt switches.columns values col) := by
    intro col hcol
    obtain rfl : col = "id" := by simpa [t, baselined] using hcol
    trivial
  have hsame : ∀ v w, SameKey switches.columns t.pkCols values [v, some (.integer 7), w] := by
    intro v w col hcol
    obtain rfl : col = "id" := by simpa [t, baselined] using hcol
    rfl
  have hkey : buildKey t.pkCols (baselineRow switches.columns values) = "7" := by decide +kernel
  have hnd : switches.columns.Nodup := by decide
  obtain ⟨-, hdl, hupd⟩ := streamed_rows_meet_baseline_iff hnd hhl
  rw [hkey] at hdl hupd
  exact ⟨(hdl _ (hsame _ _)).mpr halike, (hupd _ (hsame _ _) none).mpr halike⟩

end Laredo.Pg
