import Laredo.Snapshot.Positions

/-!
# Tables

The tables of a snapshot through the local store.
-/

namespace Laredo.SnapshotStore

open List Function

variable {V : Type} {json : Json V} {t : TableIdentifier} {rows : List (Row V)}
  {e : TableIdentifier × List (Row V)} {l : List (TableIdentifier × List (Row V))}

section

variable {α β : Type} {x : Except String α} {b : β}

lemma bind_eq_ok {f : α → Except String β} :
    (x >>= f) = .ok b ↔ ∃ a, x = .ok a ∧ f a = .ok b := by
  cases x <;> simp [bind, Except.bind]

lemma mapError_eq_ok {g : String → String} {a : α} : x.mapError g = .ok a ↔ x = .ok a := by
  cases x <;> simp [Except.mapError]

lemma pure_eq_ok {a a' : α} : (pure a : Except String α) = .ok a' ↔ a = a' := by
  simp [pure, Except.pure]

end

section

variable {α β : Type} {f : α → Except String β} {l : List α} {ys : List β}

lemma mapM_cons_ok {x : α} : (x :: l).mapM f = .ok ys ↔
    ∃ y, f x = .ok y ∧ ∃ zs, l.mapM f = .ok zs ∧ y :: zs = ys := by
  simp only [mapM_cons, bind_eq_ok, pure_eq_ok]

lemma mapM_mem (h : l.mapM f = .ok ys) :
    (∀ y ∈ ys, ∃ x ∈ l, f x = .ok y) ∧ ∀ x ∈ l, ∃ y ∈ ys, f x = .ok y := by
  have htotal : ∀ x ∈ l, ∃ y, f x = .ok y := by
    induction l generalizing ys with
    | nil => exact nofun
    | cons x l ih =>
      obtain ⟨y, hy, zs, hzs, -⟩ := mapM_cons_ok.1 h
      exact forall_mem_cons.2 ⟨⟨y, hy⟩, ih hzs⟩
  obtain ⟨ys', hys', hmem⟩ := mapM_ok htotal
  exact Except.ok.inj (hys'.symm.trans h) ▸ hmem

lemma mapM_inverse {g : β → Except String α} {zs : List α} (h : l.mapM f = .ok ys)
    (h' : ys.mapM g = .ok zs) (hinv : ∀ x ∈ l, ∀ y z, f x = .ok y → g y = .ok z → z = x) :
    zs = l := by
  induction l generalizing ys zs with
  | nil =>
    cases h
    exact (Except.ok.inj h').symm
  | cons x l ih =>
    obtain ⟨y, hy, ys, hys, rfl⟩ := mapM_cons_ok.1 h
    obtain ⟨z, hz, zs, hzs, rfl⟩ := mapM_cons_ok.1 h'
    rw [hinv x mem_cons_self y z hy hz, ih hys hzs fun x hx => hinv x (mem_cons_of_mem _ hx)]

end

lemma schema_of_unmarshalText {text : String} (h : unmarshalText text = .ok t) :
    '.' ∉ t.schema.toList := by
  unfold unmarshalText cut at h
  split at h
  · next schema table hcut =>
      split at hcut <;> cases hcut
      split at h <;> cases h
      intro hdot
      have hne := List.all_eq_true.1 all_takeWhile _ (String.toList_ofList ▸ hdot)
      simp at hne
  · cases h

lemma unmarshalText_text (hnames : t.schema ≠ "" ∧ t.table ≠ "")
    (hdot : '.' ∉ t.schema.toList) : unmarshalText t.text = .ok t := by
  have hcut : cut '.' t.text = some (t.schema, t.table) :=
    cut_of_notMem hdot (by simp [TableIdentifier.text])
  simp [unmarshalText, hcut, hnames]

lemma entriesOf_snoc : entriesOf (l ++ [e]) = Function.update (entriesOf l) e.1 (some e.2) := by
  simp [entriesOf]

lemma mem_of_entriesOf (h : entriesOf l t = some rows) : (t, rows) ∈ l := by
  induction l using List.reverseRecOn with
  | nil => cases h
  | append_singleton l e ih =>
    rw [entriesOf_snoc, update_apply] at h
    split at h
    · next heq => simp [heq, ← Option.some.inj h]
    · exact mem_append_left _ (ih h)

lemma entriesOf_eq_some_iff (hone : ∀ e ∈ l, ∀ e' ∈ l, e.1 = e'.1 → e = e') :
    entriesOf l t = some rows ↔ (t, rows) ∈ l := by
  refine ⟨mem_of_entriesOf, fun hmem => ?_⟩
  induction l using List.reverseRecOn with
  | nil => cases hmem
  | append_singleton l e ih =>
    rw [entriesOf_snoc, update_apply]
    split
    · next heq => rw [← hone (t, rows) hmem e (by simp) heq]
    · next hne =>
        refine ih (fun e he e' he' => hone e (by simp [he]) e' (by simp [he'])) ?_
        exact (mem_append.1 hmem).resolve_right fun h => hne (by rw [← mem_singleton.1 h])

namespace Local

variable {md : SnapshotMetadata Position V} {entries : List (TableIdentifier × List (Row V))}

/-- A snapshot as the engine saves it: the tables are distinct and have names, the metadata lists
them, and the values are JSON, which is read back as it was. -/
structure Regular (json : Json V) (md : SnapshotMetadata Position V)
    (entries : List (TableIdentifier × List (Row V))) : Prop where
  distinct : (entries.map Prod.fst).Nodup
  names : ∀ e ∈ entries, e.1.schema ≠ "" ∧ e.1.table ≠ ""
  listed : ∀ t, t ∈ md.tables.map (·.table) ↔ t ∈ entries.map Prod.fst
  rows : ∀ e ∈ entries, ∀ row ∈ e.2, ∃ text, json.marshal row = .ok text ∧
    json.unmarshal text = .ok row
  userMeta : ∀ u, md.userMeta = some u →
    ∃ text u', json.marshal u = .ok text ∧ json.unmarshal text = .ok u'

lemma writeTable_inv {file : TableFile json.Text} (h : writeTable json md e = .ok file) :
    ∃ lines, e.2.mapM json.marshal = .ok lines ∧
      ⟨fileName e.1, some (findTableInfo md e.1 e.2.length).marshal, lines⟩ = file := by
  simpa only [writeTable, bind_eq_ok, mapError_eq_ok, pure_eq_ok] using h

lemma readTable_inv {stored : Stored Scalar json.Text} {info : TableSnapshotInfo}
    (h : readTable json stored info = .ok e) :
    e.1 = info.table ∧ ∃ file, stored.files[fileName info.table]? = some file ∧
      file.lines.mapM (readLine json) = .ok e.2 := by
  unfold readTable at h
  split at h
  · cases h
  · next file hfile =>
      split at h
      · cases h
      · simp only [bind_eq_ok, mapError_eq_ok, pure_eq_ok] at h
        obtain ⟨rows, ⟨_, -, hrows⟩, rfl⟩ := h
        exact ⟨rfl, file, hfile, hrows⟩

lemma readLine_eq_ok_iff {line : json.Text} {row : Row V} : readLine json line = .ok row ↔
    json.length line < maxLine ∧ json.unmarshal line = .ok row := by
  unfold readLine
  split
  · next h => simp [Nat.not_lt.2 h]
  · next h => cases json.unmarshal line <;> simp [Except.mapError, Nat.not_le.1 h]

lemma load_inv {snapshotID : String} {stored : Stored Scalar json.Text}
    {md' : SnapshotMetadata Any V} {all : TableIdentifier → Option (List (Row V))}
    (hsave : save json md entries = .ok stored)
    (hload : load json snapshotID stored = .ok (md', all)) : ∃ files infos tables,
      entries.mapM (writeTable json md) = .ok files ∧
      stored.files = KeyedMap.load (·.name) ∅ files ∧
      (md.tables.map (·.marshal)).mapM TableInfoDoc.unmarshal = .ok infos ∧
      infos.mapM (readTable json stored) = .ok tables ∧ all = entriesOf tables := by
  simp only [save, bind_eq_ok, mapError_eq_ok, pure_eq_ok] at hsave
  obtain ⟨text, -, files, hfiles, rfl⟩ := hsave
  simp only [load, readMetadata, bind_eq_ok, mapError_eq_ok, pure_eq_ok, Prod.mk.injEq] at hload
  obtain ⟨_, ⟨infos, hinfos, _, -, rfl⟩, tables, htables, -, rfl⟩ := hload
  exact ⟨files, infos, tables, hfiles, rfl, hinfos, htables, rfl⟩

namespace Regular

variable (h : Regular json md entries)
include h

lemma one : ∀ e ∈ entries, ∀ e' ∈ entries, e.1 = e'.1 → e = e' :=
  fun _ he _ he' heq => inj_on_of_nodup_map h.distinct he he' heq

variable (hdots : ∀ e ∈ entries, '.' ∉ e.1.schema.toList)
include hdots

lemma unmarshalText_of_mem (he : e ∈ entries) : unmarshalText e.1.text = .ok e.1 :=
  unmarshalText_text (h.names e he) (hdots e he)

lemma file_of_mem {files : List (TableFile json.Text)}
    (hfiles : entries.mapM (writeTable json md) = .ok files) (he : e ∈ entries) : ∃ file lines,
      (KeyedMap.load (·.name) ∅ files)[fileName e.1]? = some file ∧ file.lines = lines ∧
      e.2.mapM json.marshal = .ok lines := by
  obtain ⟨hfrom, hto⟩ := mapM_mem hfiles
  obtain ⟨file, hfile, hwrite⟩ := hto e he
  rcases KeyedMap.getElem?_load (·.name) ∅ files (fileName e.1) with
    ⟨found, hfound, hname, hload⟩ | ⟨hnone, -⟩
  · obtain ⟨e', he', hwrite'⟩ := hfrom found hfound
    obtain ⟨lines, hlines, rfl⟩ := writeTable_inv hwrite'
    have htext : e'.1.text = e.1.text := by simpa [fileName] using hname
    have hread := h.unmarshalText_of_mem hdots he
    rw [← htext, h.unmarshalText_of_mem hdots he'] at hread
    rw [h.one e' he' e he (Except.ok.inj hread)] at hlines
    exact ⟨_, lines, hload, rfl, hlines⟩
  · obtain ⟨lines, -, rfl⟩ := writeTable_inv hwrite
    exact absurd rfl (hnone _ hfile)

lemma read_tables {stored : Stored Scalar json.Text} {files : List (TableFile json.Text)}
    {infos : List TableSnapshotInfo} {tables : List (TableIdentifier × List (Row V))}
    (hfiles : entries.mapM (writeTable json md) = .ok files)
    (hstored : stored.files = KeyedMap.load (·.name) ∅ files)
    (hinfos : (md.tables.map (·.marshal)).mapM TableInfoDoc.unmarshal = .ok infos)
    (htables : infos.mapM (readTable json stored) = .ok tables) :
    (∀ e, e ∈ tables ↔ e ∈ entries) ∧ ∀ e ∈ entries, ∀ row ∈ e.2, ∀ text,
      json.marshal row = .ok text → json.length text < maxLine := by
  -- reading the file of a table gives its rows
  have hread : ∀ e ∈ entries, ∀ info : TableSnapshotInfo, info.table = e.1 →
      ∀ e', readTable json stored info = .ok e' → e' = e ∧ ∀ row ∈ e.2, ∀ text,
        json.marshal row = .ok text → json.length text < maxLine := by
    intro e he info hinfo e' hok
    obtain ⟨htab, file, hfile, hrows⟩ := readTable_inv hok
    obtain ⟨file', lines, hfile', rfl, hlines⟩ := h.file_of_mem hdots hfiles he
    rw [hstored, hinfo, hfile'] at hfile
    cases hfile
    have hsame : e'.2 = e.2 := mapM_inverse hlines hrows fun row hrow line row' hmar hline => by
      obtain ⟨text, hmar', hunm⟩ := h.rows e he row hrow
      rw [hmar', Except.ok.injEq] at hmar
      rw [readLine_eq_ok_iff, ← hmar, hunm] at hline
      exact (Except.ok.inj hline.2).symm
    refine ⟨Prod.ext (htab.trans hinfo) hsame, fun row hrow text hmar => ?_⟩
    obtain ⟨line, hline, hmar'⟩ := (mapM_mem hlines).2 row hrow
    obtain ⟨_, -, hok⟩ := (mapM_mem hrows).2 line hline
    rw [hmar, Except.ok.injEq] at hmar'
    exact hmar' ▸ (readLine_eq_ok_iff.1 hok).1
  -- and the tables of the metadata are read back as they were
  have hinfo : ∀ info ∈ md.tables, ∀ info', info.marshal.unmarshal = .ok info' →
      ∃ e ∈ entries, e.1 = info.table ∧ info'.table = e.1 := by
    intro info hmem info' hunm
    obtain ⟨e, he, heq⟩ := List.mem_map.1 ((h.listed info.table).1 (List.mem_map_of_mem hmem))
    rw [info.unmarshal_marshal (heq ▸ h.unmarshalText_of_mem hdots he)] at hunm
    exact ⟨e, he, heq, by rw [← Except.ok.inj hunm, heq]⟩
  have hto : ∀ e ∈ entries, e ∈ tables ∧ ∀ row ∈ e.2, ∀ text,
      json.marshal row = .ok text → json.length text < maxLine := by
    intro e he
    obtain ⟨info, hmem, heq⟩ := List.mem_map.1 ((h.listed e.1).2 (List.mem_map_of_mem he))
    obtain ⟨info', hmem', hunm⟩ := (mapM_mem hinfos).2 _ (List.mem_map_of_mem hmem)
    obtain ⟨e', he', heq', htab⟩ := hinfo info hmem info' hunm
    obtain ⟨r, hr, hok⟩ := (mapM_mem htables).2 info' hmem'
    obtain ⟨rfl, hshort⟩ := hread e he info' (by rw [htab, heq', heq]) r hok
    exact ⟨hr, hshort⟩
  refine ⟨fun r => ⟨fun hr => ?_, fun he => (hto r he).1⟩, fun e he => (hto e he).2⟩
  obtain ⟨info', hmem', hok⟩ := (mapM_mem htables).1 r hr
  obtain ⟨doc, hdoc, hunm⟩ := (mapM_mem hinfos).1 info' hmem'
  obtain ⟨info, hmem, rfl⟩ := List.mem_map.1 hdoc
  obtain ⟨e, he, -, htab⟩ := hinfo info hmem info' hunm
  exact (hread e he info' htab r hok).1 ▸ he

end Regular

/-- **Saving and loading.** For every regular snapshot: `Save` and then `Load` returns the tables
with their rows if and only if no schema has a dot in it and every row fits into a line. -/
theorem tables_survive_iff (h : Regular json md entries) (snapshotID : String) :
    (∃ stored md', save json md entries = .ok stored ∧
      load json snapshotID stored = .ok (md', entriesOf entries)) ↔
    ∀ e ∈ entries, '.' ∉ e.1.schema.toList ∧
      ∀ row ∈ e.2, ∀ text, json.marshal row = .ok text → json.length text < maxLine := by
  constructor
  · rintro ⟨stored, md', hsave, hload⟩
    obtain ⟨files, infos, tables, hfiles, hstored, hinfos, htables, heq⟩ := load_inv hsave hload
    -- a table that is found was read from a text
    have hdots : ∀ e ∈ entries, '.' ∉ e.1.schema.toList := by
      intro e he
      have hmem : entriesOf entries e.1 = some e.2 := (entriesOf_eq_some_iff h.one).2 he
      rw [heq] at hmem
      obtain ⟨info', hinfo', hok⟩ := (mapM_mem htables).1 _ (mem_of_entriesOf hmem)
      obtain ⟨doc, -, hunm⟩ := (mapM_mem hinfos).1 info' hinfo'
      rw [(readTable_inv hok).1]
      exact schema_of_unmarshalText (TableInfoDoc.unmarshalText_table hunm)
    intro e he
    exact ⟨hdots e he, (h.read_tables hdots hfiles hstored hinfos htables).2 e he⟩
  · intro hall
    have hdots : ∀ e ∈ entries, '.' ∉ e.1.schema.toList := fun e he => (hall e he).1
    have hloadable : Loadable json md entries :=
      { names := fun e he => ⟨e.1, h.unmarshalText_of_mem hdots he⟩
        listed := fun info hinfo => by
          obtain ⟨e, he, heq⟩ := List.mem_map.1 ((h.listed _).1 (List.mem_map_of_mem hinfo))
          exact ⟨e, he, heq⟩
        rows := fun e he row hrow => by
          obtain ⟨text, hmar, hunm⟩ := h.rows e he row hrow
          exact ⟨text, row, hmar, (hall e he).2 row hrow text hmar, hunm⟩
        userMeta := h.userMeta }
    obtain ⟨stored, md', all, hsave, hload, -⟩ := load_save hloadable snapshotID
    obtain ⟨files, infos, tables, hfiles, hstored, hinfos, htables, rfl⟩ := load_inv hsave hload
    have hmem := (h.read_tables hdots hfiles hstored hinfos htables).1
    have hone : ∀ e ∈ tables, ∀ e' ∈ tables, e.1 = e'.1 → e = e' :=
      fun e he e' he' => h.one e ((hmem e).1 he) e' ((hmem e').1 he')
    have heq : entriesOf tables = entriesOf entries :=
      funext fun t => Option.ext fun rows => by
        rw [entriesOf_eq_some_iff hone, entriesOf_eq_some_iff h.one, hmem]
    exact ⟨stored, md', hsave, heq ▸ hload⟩

theorem tables_survive_iff_accounts :
    let md := { accountsMetadata [] with
      tables := [⟨⟨"public", "accounts"⟩, 2, ""⟩, ⟨⟨"public", "order.items"⟩, 1, ""⟩] }
    let entries := [(⟨"public", "order.items"⟩, [.ofList [("id", some "7")]]),
      (⟨"public", "accounts"⟩, [.ofList [("id", some "7")], .ofList [("id", some "8")]])]
    ∃ stored md', save plainJson md entries = .ok stored ∧
      load plainJson "first" stored = .ok (md', entriesOf entries) := by
  intro md entries
  have hregular : Regular plainJson md entries :=
    { distinct := by decide
      names := by simp [entries]
      listed := by simp [entries, md, or_comm]
      rows := fun _ _ row _ => ⟨row, rfl, rfl⟩
      userMeta := fun u _ => ⟨u, u, rfl, rfl⟩ }
  refine (tables_survive_iff hregular "first").2 fun e he => ⟨?_, fun _ _ _ _ => ?_⟩
  · rcases mem_pair.mp he with rfl | rfl <;> decide
  · exact show 0 < maxLine by decide

/-- Two tables with one file: both are read back as the second, with the rows written last. -/
theorem dotted_schema_is_another_table :
    let md := { accountsMetadata [] with tables := [⟨⟨"a.b", "c"⟩, 1, ""⟩, ⟨⟨"a", "b.c"⟩, 0, ""⟩] }
    let entries := [(⟨"a", "b.c"⟩, []), (⟨"a.b", "c"⟩, [.ofList [("id", some "1")]])]
    ∃ stored md' all, save plainJson md entries = .ok stored ∧
      load plainJson "first" stored = .ok (md', all) ∧ all ⟨"a.b", "c"⟩ = none ∧
      all ⟨"a", "b.c"⟩ = some [.ofList [("id", some "1")]] :=
  ⟨_, _, _, rfl, rfl, rfl, rfl⟩

end Local

end Laredo.SnapshotStore
