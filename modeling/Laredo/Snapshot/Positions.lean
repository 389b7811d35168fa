import Laredo.Snapshot.Store

/-!
# Positions

Source positions through a snapshot store.
-/

namespace Laredo.SnapshotStore

open TableInfoDoc Local Std List Option

variable {Q V : Type}

inductive Source
  | pg (slotLSN : Pg.LSN)
  | text (cmp : Comparator String)

def Any.asLSN : Option Any → Option Pg.LSN
  | some (lsn l) => some l
  | _ => none

def Any.asText : Option Any → String
  | some (text s) => s
  | _ => ""

namespace Source

def comparePositions (a b : Option Any) : Source → Int
  | pg _ => Pg.compareLSN (Any.asLSN a) (Any.asLSN b)
  | text cmp => cmp.cmp (Any.asText a) (Any.asText b)

def startingPoint (position : Option Any) : Source → Any
  | pg slotLSN => .lsn ((Any.asLSN position).getD slotLSN)
  | text _ => .text (Any.asText position)

def Uses : Source → Position → Prop
  | pg _, .lsn _ | text _, .text _ => True
  | _, _ => False

end Source

/-- Every source that had a position has one, which compares equal and is the same starting
point; the others have none. -/
def Survive (source : String → Source) (saved : SnapshotMetadata Position V)
    (loaded : SnapshotMetadata Any V) : Prop :=
  ∀ id, match saved.position id, loaded.position id with
    | none, none => True
    | some p, some p' => (source id).comparePositions (some p.any) (some p') = 0 ∧
        (source id).startingPoint (some p') = (source id).startingPoint (some p.any)
    | _, _ => False

/-- What is saved can be read back: the names of the tables are in order, every table of the
metadata is among the entries, and the values are JSON. -/
structure Loadable (json : Json V) (md : SnapshotMetadata Q V)
    (entries : List (TableIdentifier × List (Row V))) : Prop where
  names : ∀ e ∈ entries, ∃ t, unmarshalText e.1.text = .ok t
  listed : ∀ info ∈ md.tables, ∃ e ∈ entries, e.1 = info.table
  rows : ∀ e ∈ entries, ∀ row ∈ e.2, ∃ text row', json.marshal row = .ok text ∧
    json.length text < maxLine ∧ json.unmarshal text = .ok row'
  userMeta : ∀ u, md.userMeta = some u →
    ∃ text u', json.marshal u = .ok text ∧ json.unmarshal text = .ok u'

variable {json : Json V}

lemma TableSnapshotInfo.unmarshal_marshal (info : TableSnapshotInfo) {t : TableIdentifier}
    (h : unmarshalText info.table.text = .ok t) :
    info.marshal.unmarshal = .ok ⟨t, info.rowCount, info.targetType⟩ := by
  simp [unmarshal, TableSnapshotInfo.marshal, h, Except.map]

lemma TableInfoDoc.unmarshalText_table {doc : TableInfoDoc} {info : TableSnapshotInfo}
    (h : doc.unmarshal = .ok info) : unmarshalText doc.table = .ok info.table := by
  unfold unmarshal at h
  cases hname : unmarshalText doc.table with
  | error err => simp [hname, Except.map] at h
  | ok t =>
    simp only [hname, Except.map, Except.ok.injEq] at h
    rw [← h]

lemma mapM_ok {α β : Type} {f : α → Except String β} {l : List α}
    (h : ∀ x ∈ l, ∃ y, f x = .ok y) :
    ∃ ys, l.mapM f = .ok ys ∧ (∀ y ∈ ys, ∃ x ∈ l, f x = .ok y) ∧
      ∀ x ∈ l, ∃ y ∈ ys, f x = .ok y := by
  induction l with
  | nil => exact ⟨[], rfl, nofun, nofun⟩
  | cons x l ih =>
    obtain ⟨y, hy⟩ := h x mem_cons_self
    obtain ⟨ys, hys, hfrom, hto⟩ := ih fun x hx => h x (mem_cons_of_mem _ hx)
    refine ⟨y :: ys, ?_, ?_, ?_⟩
    · rw [mapM_cons, hy, hys]
      rfl
    · simpa [hy] using fun z hz => .inr (hfrom z hz)
    · simpa [hy] using fun z hz => .inr (hto z hz)

lemma files_ok {T : Type} {write : TableIdentifier × List (Row V) → Except String (TableFile T)}
    {good : TableFile T → Prop} {entries : List (TableIdentifier × List (Row V))}
    (h : ∀ e ∈ entries, ∃ file, write e = .ok file ∧ file.name = fileName e.1 ∧ good file) :
    ∃ files, entries.mapM write = .ok files ∧ ∀ e ∈ entries, ∃ file,
        (KeyedMap.load (·.name) ∅ files)[fileName e.1]? = some file ∧ good file := by
  obtain ⟨files, hfls, hfrom, hto⟩ := mapM_ok fun e he => (h e he).imp fun _ hfile => hfile.1
  refine ⟨files, hfls, fun e he => ?_⟩
  obtain ⟨file, hfile, hwrite⟩ := hto e he
  obtain ⟨file', hwrite', hname, -⟩ := h e he
  obtain rfl : file' = file := Except.ok.inj (hwrite'.symm.trans hwrite)
  rcases KeyedMap.getElem?_load (·.name) ∅ files (fileName e.1) with
    ⟨found, hfnd, -, hload⟩ | ⟨hnone, -⟩
  · obtain ⟨e', he', hwrite⟩ := hfrom found hfnd
    obtain ⟨found', hwrite', -, hgood⟩ := h e' he'
    obtain rfl : found' = found := Except.ok.inj (hwrite'.symm.trans hwrite)
    exact ⟨found', hload, hgood⟩
  · exact absurd hname (hnone file' hfile)

namespace Loadable

variable {md : SnapshotMetadata Q V} {entries : List (TableIdentifier × List (Row V))}

lemma tables (h : Loadable json md entries) : ∃ tables,
    (md.tables.map (·.marshal)).mapM unmarshal = .ok tables ∧
      ∀ info ∈ tables, ∃ e ∈ entries, fileName info.table = fileName e.1 := by
  have hread : ∀ doc ∈ md.tables.map (·.marshal), ∃ info, unmarshal doc = .ok info := by
    intro doc hdoc
    obtain ⟨info, hinfo, rfl⟩ := List.mem_map.mp hdoc
    obtain ⟨e, he, htab⟩ := h.listed info hinfo
    obtain ⟨t, ht⟩ := h.names e he
    rw [htab] at ht
    exact ⟨_, info.unmarshal_marshal ht⟩
  obtain ⟨tables, htabs, hfrom, -⟩ := mapM_ok hread
  refine ⟨tables, htabs, fun info' hinfo' => ?_⟩
  obtain ⟨doc, hdoc, hunm⟩ := hfrom info' hinfo'
  obtain ⟨info, hinfo, rfl⟩ := List.mem_map.mp hdoc
  obtain ⟨e, he, htab⟩ := h.listed info hinfo
  refine ⟨e, he, ?_⟩
  -- reading a name back may give another table, but never another text
  have htext : info'.table.text = info.table.text :=
    text_of_unmarshalText (unmarshalText_table hunm)
  rw [fileName, fileName, htext, htab]

lemma marshalUserMeta_ok (h : Loadable json md entries) : ∃ text,
    marshalUserMeta json md.userMeta = .ok text ∧ ∃ u, unmarshalUserMeta json text = .ok u := by
  cases hu : md.userMeta with
  | none => exact ⟨none, rfl, none, rfl⟩
  | some u =>
    obtain ⟨text, u', hmar, hunm⟩ := h.userMeta u hu
    exact ⟨some text, by simp [marshalUserMeta, hmar, Except.map], some u',
      by simp [unmarshalUserMeta, hunm, Except.map]⟩

end Loadable

namespace Local

variable {md : SnapshotMetadata Position V} {entries : List (TableIdentifier × List (Row V))}

@[simp] lemma table_findTableInfo (md : SnapshotMetadata Q V) (table : TableIdentifier)
    (rowCount : Nat) : (findTableInfo md table rowCount).table = table := by
  unfold findTableInfo
  cases hfind : md.tables.find? fun info => decide (info.table = table) with
  | none => rfl
  | some info => simpa using find?_some hfind

def Readable (json : Json V) (file : TableFile json.Text) : Prop :=
  (∃ header info, file.header = some header ∧ header.unmarshal = .ok info) ∧
    ∃ rows, file.lines.mapM (readLine json) = .ok rows

lemma writeTable_ok (h : Loadable json md entries) {e : TableIdentifier × List (Row V)}
    (he : e ∈ entries) : ∃ file, writeTable json md e = .ok file ∧ file.name = fileName e.1 ∧
      Readable json file := by
  obtain ⟨lines, hlines, hfrom, -⟩ := mapM_ok (f := json.marshal) (l := e.2) fun row hrow => by
    obtain ⟨text, -, hmar, -⟩ := h.rows e he row hrow
    exact ⟨text, hmar⟩
  obtain ⟨t, ht⟩ := h.names e he
  have hheader := (findTableInfo md e.1 e.2.length).unmarshal_marshal (by simpa using ht)
  refine ⟨⟨fileName e.1, some (findTableInfo md e.1 e.2.length).marshal, lines⟩, ?_, rfl,
    ⟨_, _, rfl, hheader⟩, ?_⟩
  · rw [writeTable, hlines]
    rfl
  · obtain ⟨rows, hrows, -⟩ := mapM_ok (f := readLine json) (l := lines) fun line hline => by
      obtain ⟨row, hrow, hmar⟩ := hfrom line hline
      obtain ⟨text, row', hmar', hlen, hunm⟩ := h.rows e he row hrow
      obtain rfl : text = line := Except.ok.inj (hmar'.symm.trans hmar)
      exact ⟨row', by simp [readLine, Nat.not_le.mpr hlen, hunm, Except.mapError]⟩
    exact ⟨rows, hrows⟩

lemma readTable_ok {stored : Stored Scalar json.Text} {info : TableSnapshotInfo}
    {file : TableFile json.Text} (hfile : stored.files[fileName info.table]? = some file)
    (hread : Readable json file) : ∃ rows, readTable json stored info = .ok rows := by
  obtain ⟨⟨header, info', hheader, hunm⟩, rows, hrows⟩ := hread
  refine ⟨(info.table, rows), ?_⟩
  unfold readTable
  rw [hfile]
  dsimp only
  rw [hheader]
  dsimp only
  rw [hunm, hrows]
  rfl

lemma load_save (h : Loadable json md entries) (snapshotID : String) : ∃ stored md' all,
    save json md entries = .ok stored ∧ load json snapshotID stored = .ok (md', all) ∧
      ∀ id, md'.position id = (md.position id).map fun p => p.marshal.unmarshal := by
  obtain ⟨text, hmar, u, hunm⟩ := h.marshalUserMeta_ok
  obtain ⟨tables, htabs, hlst⟩ := h.tables
  obtain ⟨files, hfls, hfnd⟩ := files_ok fun e he => writeTable_ok h he
  let stored : Stored Scalar json.Text := ⟨document md text, KeyedMap.load (·.name) ∅ files⟩
  obtain ⟨all, hall, -⟩ := mapM_ok (f := readTable json stored) (l := tables) fun info hinfo => by
    obtain ⟨e, he, hname⟩ := hlst info hinfo
    obtain ⟨file, hfile, hread⟩ := hfnd e he
    rw [← hname] at hfile
    exact readTable_ok hfile hread
  refine ⟨stored, metadataOf stored.metadata tables u, entriesOf all, ?_, ?_, fun id => ?_⟩
  · rw [save, hmar, hfls]
    rfl
  · have htabs : stored.metadata.tables.mapM unmarshal = .ok tables := htabs
    have hunm : unmarshalUserMeta json stored.metadata.userMeta = .ok u := hunm
    rw [load, readMetadata, htabs, hunm]
    show (tables.mapM (readTable json stored)).bind _ = _
    rw [hall]
    rfl
  · cases hp : md.sourcePositions with
    | none => simp [SnapshotMetadata.position, metadataOf, stored, document, hp]
    | some m =>
      simp [SnapshotMetadata.position, metadataOf, stored, document, hp, ExtTreeMap.getElem?_map]

end Local

namespace S3

variable {md : SnapshotMetadata Position V} {entries : List (TableIdentifier × List (Row V))}

lemma putTable_ok (h : Loadable json md entries) {e : TableIdentifier × List (Row V)}
    (he : e ∈ entries) : ∃ file, putTable json e = .ok file ∧ file.name = fileName e.1 ∧
      ∃ rows, file.lines.mapM json.unmarshal = .ok rows := by
  obtain ⟨lines, hlines, hfrom, -⟩ := mapM_ok (f := json.marshal) (l := e.2) fun row hrow => by
    obtain ⟨text, -, hmar, -⟩ := h.rows e he row hrow
    exact ⟨text, hmar⟩
  refine ⟨⟨fileName e.1, none, lines⟩, ?_, rfl, ?_⟩
  · rw [putTable, hlines]
    rfl
  · obtain ⟨rows, hrows, -⟩ := mapM_ok (f := json.unmarshal) (l := lines) fun line hline => by
      obtain ⟨row, hrow, hmar⟩ := hfrom line hline
      obtain ⟨text, row', hmar', -, hunm⟩ := h.rows e he row hrow
      obtain rfl : text = line := Except.ok.inj (hmar'.symm.trans hmar)
      exact ⟨row', hunm⟩
    exact ⟨rows, hrows⟩

lemma loadTable_ok {stored : Stored String json.Text} {info : TableSnapshotInfo}
    {file : TableFile json.Text} (hfile : stored.files[fileName info.table]? = some file)
    {rows : List (Row V)} (hrows : file.lines.mapM json.unmarshal = .ok rows) :
    ∃ rows, loadTable json stored info = .ok rows := by
  refine ⟨(info.table, rows), ?_⟩
  unfold loadTable
  rw [hfile]
  dsimp only
  rw [hrows]
  rfl

lemma marshalUserMeta_ok (h : Loadable json md entries) : ∃ text,
    marshalUserMeta json (omitEmpty md.userMeta) = .ok text ∧
      ∃ u, unmarshalUserMeta json text = .ok u := by
  cases hu : md.userMeta with
  | none => exact ⟨none, rfl, none, rfl⟩
  | some u =>
    cases hemp : u.isEmpty with
    | true =>
      have hnone : omitEmpty (some u) = none := by simp [omitEmpty, Option.filter, hemp]
      rw [hnone]
      exact ⟨none, rfl, none, rfl⟩
    | false =>
      have hkept : omitEmpty (some u) = md.userMeta := by simp [omitEmpty, hemp, hu]
      rw [hkept]
      exact h.marshalUserMeta_ok

lemma load_save (h : Loadable json md entries) (snapshotID : String) : ∃ stored md' all,
    save json snapshotID md entries = .ok stored ∧ load json stored = .ok (md', all) ∧
      ∀ id, md'.position id = none := by
  obtain ⟨text, hmar, u, hunm⟩ := marshalUserMeta_ok h
  obtain ⟨tables, htabs, hlst⟩ := h.tables
  obtain ⟨files, hfls, hfnd⟩ := files_ok fun e he => putTable_ok h he
  let stored : Stored String json.Text :=
    ⟨document snapshotID md text, KeyedMap.load (·.name) ∅ files⟩
  obtain ⟨all, hall, -⟩ := mapM_ok (f := loadTable json stored) (l := tables) fun info hinfo => by
    obtain ⟨e, he, hname⟩ := hlst info hinfo
    obtain ⟨file, hfile, rows, hrows⟩ := hfnd e he
    rw [← hname] at hfile
    exact loadTable_ok hfile hrows
  refine ⟨stored, metadataOf stored.metadata tables u, entriesOf all, ?_, ?_, fun id => rfl⟩
  · rw [save, hfls, hmar]
    rfl
  · have htabs : stored.metadata.tables.mapM unmarshal = .ok tables := htabs
    have hunm : unmarshalUserMeta json stored.metadata.userMeta = .ok u := hunm
    rw [load, htabs, hunm]
    show (tables.mapM (loadTable json stored)).bind _ = _
    rw [hall]
    rfl

end S3

lemma Source.survives_iff {source : Source} {p : Position} (h : source.Uses p) :
    (source.comparePositions (some p.any) (some p.marshal.unmarshal) = 0 ∧
      source.startingPoint (some p.marshal.unmarshal) = source.startingPoint (some p.any)) ↔
      ∀ l, p = .lsn l → source = .pg l := by
  cases source with
  | pg slotLSN =>
    cases p with
    | text s => exact h.elim
    | lsn l =>
      -- the comparison sees a value that is not an LSN
      simp [comparePositions, startingPoint, Position.any, Position.marshal, Scalar.unmarshal,
        Any.asLSN, Pg.compareLSN]
  | text cmp =>
    cases p with
    | lsn l => exact h.elim
    | text s =>
      have hcmp : cmp.cmp s s = 0 := by
        have := cmp.swap s s
        omega
      simp [comparePositions, startingPoint, Position.any, Position.marshal, Scalar.unmarshal,
        Any.asText, hcmp]

/-- **Which positions survive**: in the local store just when every LSN among them is where the
slot of its source stands anyway, and in the S3 store just when there are none. -/
theorem positions_survive_iff {md : SnapshotMetadata Position V}
    {entries : List (TableIdentifier × List (Row V))} (h : Loadable json md entries)
    (snapshotID : String) (source : String → Source)
    (huses : ∀ id p, md.position id = some p → (source id).Uses p) :
    (∃ stored loaded all, save json md entries = .ok stored ∧
      load json snapshotID stored = .ok (loaded, all) ∧
      (Survive source md loaded ↔ ∀ id l, md.position id = some (.lsn l) → source id = .pg l)) ∧
    ∃ stored loaded all, S3.save json snapshotID md entries = .ok stored ∧
      S3.load json stored = .ok (loaded, all) ∧
      (Survive source md loaded ↔ ∀ id, md.position id = none) := by
  constructor
  · obtain ⟨stored, loaded, all, hsave, hload, hpos⟩ := load_save h snapshotID
    refine ⟨stored, loaded, all, hsave, hload, forall_congr' fun id => ?_⟩
    rw [hpos]
    cases hp : md.position id with
    | none => simp
    | some p =>
      simp only [map_some, some.injEq]
      exact Source.survives_iff (huses id p hp)
  · obtain ⟨stored, loaded, all, hsave, hload, hpos⟩ := S3.load_save h snapshotID
    refine ⟨stored, loaded, all, hsave, hload, forall_congr' fun id => ?_⟩
    rw [hpos]
    cases hp : md.position id with
    | none => simp
    | some p => simp

def plainJson : Json Text where
  Text := Row Text
  marshal := .ok
  unmarshal := .ok
  length _ := 0

def accountsMetadata (positions : List (String × Position)) :
    SnapshotMetadata Position Text where
  snapshotID := "first"
  createdAt := 0
  sourcePositions := some (.ofList positions)
  tables := [⟨⟨"public", "accounts"⟩, 0, "indexed"⟩]
  format := ""
  userMeta := none

def accountsEntries : List (TableIdentifier × List (Row Text)) :=
  [(⟨"public", "accounts"⟩, [])]

lemma accounts_loadable (positions : List (String × Position)) :
    Loadable plainJson (accountsMetadata positions) accountsEntries where
  names e he := by
    obtain rfl := mem_singleton.mp he
    exact ⟨⟨"public", "accounts"⟩, by decide +kernel⟩
  listed info hinfo := by
    obtain rfl := mem_singleton.mp hinfo
    exact ⟨_, mem_cons_self, rfl⟩
  rows e he row hrow := by
    obtain rfl := mem_singleton.mp he
    cases hrow
  userMeta u hu := by cases hu

/-- The position of a PostgreSQL source comes back from the local store as a float64, here even
another number. -/
theorem lsn_becomes_float : (∃ stored loaded all,
      save plainJson (accountsMetadata [("pg", .lsn (2 ^ 53 + 1))]) accountsEntries = .ok stored ∧
      load plainJson "first" stored = .ok (loaded, all) ∧
      loaded.position "pg" = some (.float64 (2 ^ 53)) ∧
      (Source.pg 7).comparePositions (some (.lsn (2 ^ 53 + 1))) (loaded.position "pg") = 0 ∧
      (Source.pg 7).startingPoint (loaded.position "pg") = .lsn 7 ∧
      (Source.pg 7).startingPoint (some (.lsn (2 ^ 53 + 1))) = .lsn (2 ^ 53 + 1)) ∧
    ∃ stored loaded all,
      S3.save plainJson "first" (accountsMetadata [("events", .text "0/10")]) accountsEntries =
        .ok stored ∧
      S3.load plainJson stored = .ok (loaded, all) ∧ loaded.position "events" = none := by
  refine ⟨⟨_, _, _, rfl, rfl, ?_, ?_, ?_, ?_⟩, _, _, _, rfl, rfl, ?_⟩
  all_goals rfl

theorem positions_survive_iff_run : ∃ stored loaded all,
    save plainJson (accountsMetadata [("events", .text "0/10")]) accountsEntries = .ok stored ∧
    load plainJson "first" stored = .ok (loaded, all) ∧
    Survive (fun _ => .text (.ofOrd String))
      (accountsMetadata [("events", .text "0/10")]) loaded := by
  have hpos : ∀ id p, (accountsMetadata [("events", .text "0/10")]).position id = some p →
      p = .text "0/10" := by
    intro id p hp
    simp only [SnapshotMetadata.position, accountsMetadata, bind_some,
      ExtTreeMap.ofList_singleton, ExtTreeMap.getElem?_insert] at hp
    split at hp
    · exact (some.inj hp).symm
    · simp at hp
  have h := (positions_survive_iff (accounts_loadable [("events", .text "0/10")]) "first"
    (fun _ => .text (.ofOrd String)) fun id p hp => by rw [hpos id p hp]; trivial).1
  obtain ⟨stored, loaded, all, hsave, hload, hiff⟩ := h
  refine ⟨stored, loaded, all, hsave, hload, hiff.mpr fun id l hl => ?_⟩
  cases hpos id _ hl

end Laredo.SnapshotStore
