import Laredo.Snapshotter.Buffer

/-!
# Formats

The two formats of artifacts (`snapshotter/format/jsonl`, `snapshotter/format/protobuf`), with an
artifact as the list of its records.
-/

namespace Laredo.Snapshotter

open Option Change

/-- How the records of an artifact are written and read. `skips` are the records a reader passes
over; `limit` is the size up to which it takes one. -/
structure RecordFormat (α R : Type) where
  encode : α → Option R
  decode : R → Option α
  size : R → Nat
  skips : R → Bool
  limit : Nat

namespace RecordFormat

variable {α R : Type} (f : RecordFormat α R)

def write : List α → Option (List R)
  | [] => some []
  | x :: xs =>
      match f.encode x with
      | none => none
      | some r => (write xs).map (r :: ·)

def read : List R → Option (List α)
  | [] => some []
  | r :: rs =>
      if f.limit < f.size r then none
      else if f.skips r then read rs
      else
        match f.decode r with
        | none => none
        | some x => (read rs).map (x :: ·)

def RoundTrips (xs : List α) : Prop := ∀ rs, f.write xs = some rs → f.read rs = some xs

def Fits (xs : List α) : Prop := ∀ rs, f.write xs = some rs → ∀ r ∈ rs, f.size r ≤ f.limit

variable {f} {norm : α → α}

lemma read_written (hspec : ∀ x r, f.encode x = some r →
      f.skips r = false ∧ f.decode r = some (norm x)) {xs : List α} {rs : List R}
    (h : f.write xs = some rs) :
    f.read rs = if ∀ r ∈ rs, f.size r ≤ f.limit then some (xs.map norm) else none := by
  induction xs generalizing rs with
  | nil =>
    cases h
    simp [read]
  | cons x xs ih =>
    rw [write] at h
    split at h
    · cases h
    next r hr =>
      obtain ⟨rs, hrs, rfl⟩ := map_eq_some_iff.mp h
      obtain ⟨hskip, hdec⟩ := hspec x r hr
      by_cases hsize : f.size r ≤ f.limit
      · by_cases hall : ∀ r ∈ rs, f.size r ≤ f.limit <;>
          simp [read, hskip, hdec, ih hrs, hsize, Nat.not_lt.mpr hsize, hall]
      · simp [read, hsize, Nat.lt_of_not_le hsize]

lemma roundTrips_iff (hspec : ∀ x r, f.encode x = some r →
      f.skips r = false ∧ f.decode r = some (norm x)) (xs : List α) :
    f.RoundTrips xs ↔ f.Fits xs ∧ ∀ rs, f.write xs = some rs → ∀ x ∈ xs, norm x = x := by
  have hmap : xs.map norm = xs ↔ ∀ x ∈ xs, norm x = x := by
    induction xs with
    | nil => simp
    | cons x xs ih => simp [ih]
  rw [Fits, RoundTrips, ← forall₂_and]
  refine forall₂_congr fun rs hrs => ?_
  rw [read_written hspec hrs, ← hmap]
  split
  next hall => exact ⟨fun h => ⟨hall, some.inj h⟩, fun h => congrArg some h.2⟩
  next hall => exact iff_of_false nofun fun h => hall h.1

end RecordFormat

variable {V L S : Type}

def actionString : ChangeAction → String
  | .insert => "INSERT"
  | .update => "UPDATE"
  | .delete => "DELETE"
  | .truncate => "TRUNCATE"

def parseAction : String → Option ChangeAction
  | "INSERT" => some .insert
  | "UPDATE" => some .update
  | "DELETE" => some .delete
  | "TRUNCATE" => some .truncate
  | _ => none

lemma parseAction_actionString (action : ChangeAction) :
    parseAction (actionString action) = some action := by
  cases action <;> rfl

structure WireChange (R : Type) where
  action : String
  key : String
  old : Option R
  new : Option R

def omitEmpty (row : Option (Row V)) : Option (Row V) := row.filter fun r => !r.isEmpty

structure Json (V L : Type) where
  marshalRow : Row V → Option L
  unmarshalRow : L → Option (Row V)
  marshalChange : WireChange (Row V) → Option L
  unmarshalChange : L → Option (WireChange (Row V))
  length : L → Nat
  row_spec : ∀ row line, marshalRow row = some line → length line ≠ 0 ∧ unmarshalRow line = some row
  change_spec : ∀ ch line, marshalChange ch = some line → length line ≠ 0 ∧
    unmarshalChange line = some { ch with old := omitEmpty ch.old, new := omitEmpty ch.new }

structure Proto (V S : Type) where
  newStruct : Row V → Option S
  asMap : S → Row V
  rowSize : S → Nat
  changeSize : WireChange S → Nat
  asMap_newStruct : ∀ row st, newStruct row = some st → asMap st = row

def Change.toWire (ch : Change V) : WireChange (Row V) :=
  ⟨actionString ch.action, ch.key, ch.old, ch.new⟩

def Change.ofWire (w : WireChange (Row V)) : Option (Change V) :=
  (parseAction w.action).map fun action => ⟨action, w.key, w.old, w.new⟩

def Json.lines {α : Type} (j : Json V L) (encode : α → Option L) (decode : L → Option α) :
    RecordFormat α L :=
  ⟨encode, decode, fun line => j.length line + 1, fun line => j.length line = 0, 16 * 1024 * 1024⟩

def Json.snapshot (j : Json V L) : RecordFormat (Row V) L := j.lines j.marshalRow j.unmarshalRow

def Json.diff (j : Json V L) : RecordFormat (Change V) L :=
  j.lines (fun ch => j.marshalChange ch.toWire) fun line => (j.unmarshalChange line).bind ofWire

def delimited {α R : Type} (encode : α → Option R) (decode : R → Option α) (size : R → Nat) :
    RecordFormat α R :=
  ⟨encode, decode, size, fun _ => false, 4 * 1024 * 1024⟩

def Proto.snapshot (p : Proto V S) : RecordFormat (Row V) S :=
  delimited p.newStruct (fun st => some (p.asMap st)) p.rowSize

def Proto.convert (p : Proto V S) : Option (Row V) → Option (Option S)
  | none => some none
  | some row => (p.newStruct row).map some

def Proto.diff (p : Proto V S) : RecordFormat (Change V) (WireChange S) :=
  delimited
    (fun ch => (p.convert ch.old).bind fun old => (p.convert ch.new).map fun new =>
      ⟨actionString ch.action, ch.key, old, new⟩)
    (fun w => ofWire ⟨w.action, w.key, w.old.map p.asMap, w.new.map p.asMap⟩)
    p.changeSize

lemma Json.snapshot_spec (j : Json V L) (row : Row V) (line : L)
    (h : j.snapshot.encode row = some line) :
    j.snapshot.skips line = false ∧ j.snapshot.decode line = some (id row) := by
  obtain ⟨hlen, hrow⟩ := j.row_spec row line h
  exact ⟨decide_eq_false hlen, hrow⟩

def Change.read (ch : Change V) : Change V :=
  { ch with old := omitEmpty ch.old, new := omitEmpty ch.new }

lemma Json.diff_spec (j : Json V L) (ch : Change V) (line : L)
    (h : j.diff.encode ch = some line) :
    j.diff.skips line = false ∧ j.diff.decode line = some ch.read := by
  obtain ⟨hlen, hch⟩ := j.change_spec ch.toWire line h
  refine ⟨decide_eq_false hlen, ?_⟩
  show (j.unmarshalChange line).bind ofWire = _
  simp [hch, ofWire, toWire, Change.read, parseAction_actionString]

lemma Proto.snapshot_spec (p : Proto V S) (row : Row V) (st : S)
    (h : p.snapshot.encode row = some st) :
    p.snapshot.skips st = false ∧ p.snapshot.decode st = some (id row) :=
  ⟨rfl, congrArg some (p.asMap_newStruct row st h)⟩

lemma Proto.map_asMap (p : Proto V S) {row : Option (Row V)} {st : Option S}
    (h : p.convert row = some st) : st.map p.asMap = row := by
  cases row with
  | none =>
    cases h
    rfl
  | some row =>
    obtain ⟨st, hst, rfl⟩ := map_eq_some_iff.mp h
    simp [p.asMap_newStruct row st hst]

lemma Proto.diff_spec (p : Proto V S) (ch : Change V) (msg : WireChange S)
    (h : p.diff.encode ch = some msg) :
    p.diff.skips msg = false ∧ p.diff.decode msg = some (id ch) := by
  obtain ⟨old, hold, hmap⟩ := bind_eq_some_iff.mp h
  obtain ⟨new, hnew, rfl⟩ := map_eq_some_iff.mp hmap
  refine ⟨rfl, ?_⟩
  show ofWire _ = _
  simp [ofWire, parseAction_actionString, p.map_asMap hold, p.map_asMap hnew]

lemma Change.read_eq_iff (ch : Change V) : ch.read = ch ↔ ch.old ≠ some ∅ ∧ ch.new ≠ some ∅ := by
  have homit : ∀ row : Option (Row V), omitEmpty row = row ↔ row ≠ some ∅ := by
    intro row
    cases row with
    | none => simp [omitEmpty]
    | some row => simp [omitEmpty, Option.filter]
  rw [← homit, ← homit]
  cases ch
  simp [Change.read]

/-- **What is written is read back, and the formats agree**, just when no record that is written is
too large for its reader and no change written as a line has an empty row. -/
theorem formats_agree_iff (j : Json V L) (p : Proto V S) (rows : List (Row V))
    (changes : List (Change V)) :
    ((j.snapshot.RoundTrips rows ∧ p.snapshot.RoundTrips rows ∧ j.diff.RoundTrips changes ∧
      p.diff.RoundTrips changes) ∧
      (∀ lines msgs, j.snapshot.write rows = some lines → p.snapshot.write rows = some msgs →
        j.snapshot.read lines = p.snapshot.read msgs) ∧
      ∀ lines msgs, j.diff.write changes = some lines → p.diff.write changes = some msgs →
        j.diff.read lines = p.diff.read msgs) ↔
    (j.snapshot.Fits rows ∧ p.snapshot.Fits rows ∧ j.diff.Fits changes ∧ p.diff.Fits changes) ∧
      ∀ lines, j.diff.write changes = some lines →
        ∀ ch ∈ changes, ch.old ≠ some ∅ ∧ ch.new ≠ some ∅ := by
  have hjs := RecordFormat.roundTrips_iff j.snapshot_spec rows
  have hps := RecordFormat.roundTrips_iff p.snapshot_spec rows
  have hjd := RecordFormat.roundTrips_iff j.diff_spec changes
  have hpd := RecordFormat.roundTrips_iff p.diff_spec changes
  simp only [id, implies_true, and_true] at hjs hps hpd
  simp only [read_eq_iff] at hjd
  constructor
  · rintro ⟨⟨hjs', hps', hjd', hpd'⟩, -, -⟩
    exact ⟨⟨hjs.mp hjs', hps.mp hps', (hjd.mp hjd').1, hpd.mp hpd'⟩, (hjd.mp hjd').2⟩
  · rintro ⟨⟨hjs', hps', hjd', hpd'⟩, hemp⟩
    have hjs := hjs.mpr hjs'
    have hps := hps.mpr hps'
    have hjd := hjd.mpr ⟨hjd', hemp⟩
    have hpd := hpd.mpr hpd'
    exact ⟨⟨hjs, hps, hjd, hpd⟩,
      fun lines msgs hlines hmsgs => (hjs lines hlines).trans (hps msgs hmsgs).symm,
      fun lines msgs hlines hmsgs => (hjd lines hlines).trans (hpd msgs hmsgs).symm⟩

def plainJson : Json Text (Row Text ⊕ WireChange (Row Text)) where
  marshalRow row := some (.inl row)
  unmarshalRow := Sum.getLeft?
  marshalChange ch := some (.inr { ch with old := omitEmpty ch.old, new := omitEmpty ch.new })
  unmarshalChange := Sum.getRight?
  length _ := 5 * 1024 * 1024
  row_spec := by simp
  change_spec := by simp

def plainProto : Proto Text (Row Text) where
  newStruct := some
  asMap := id
  rowSize _ := 5 * 1024 * 1024
  changeSize _ := 5 * 1024 * 1024
  asMap_newStruct := by simp

/-- A row of 5 MiB is written as a message and not read; an empty row of a change is written as a
line and read as nil. -/
theorem written_is_not_read :
    (∃ msgs, plainProto.snapshot.write [∅] = some msgs ∧ plainProto.snapshot.read msgs = none) ∧
    ∃ lines, plainJson.diff.write [⟨.update, "1", some ∅, none⟩] = some lines ∧
      plainJson.diff.read lines = some [⟨.update, "1", none, none⟩] :=
  ⟨⟨_, rfl, rfl⟩, _, rfl, rfl⟩

end Laredo.Snapshotter
