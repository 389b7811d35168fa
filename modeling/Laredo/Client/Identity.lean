import Laredo.Client.Interrupted
import Laredo.Client.Reconnect
import Laredo.Source.PgKeys

/-!
# Identity

What makes two rows the same row.
-/

namespace Laredo

open Replication Fanout Link GoValue Target Client Std List Function ExtTreeMap

variable {P V : Type} [GoValue V] {cols : List ColumnDefinition}

def Fanout.RowOf (cols : List ColumnDefinition) (row : Row V) : Prop :=
  ∀ name, name ∈ row ↔ name ∈ cols.map (·.name)

lemma keyedById_of_nodup (hnodup : (cols.map (·.name)).Nodup)
    (hkey : ∀ c ∈ cols, c.primaryKey → c.name = "id") : KeyedById cols := by
  have hnames : ((cols.filter (·.primaryKey)).map (·.name)).Nodup :=
    hnodup.sublist (filter_sublist.map _)
  have hall : ∀ c ∈ cols.filter (·.primaryKey), c.name = "id" := fun c hc =>
    hkey c (List.mem_filter.mp hc).1 (List.mem_filter.mp hc).2
  unfold KeyedById
  cases hpk : cols.filter (·.primaryKey) with
  | nil => exact .inr rfl
  | cons c pk =>
    cases pk with
    | nil => simp [hall c (by simp [hpk])]
    | cons c' pk => simp [hpk, hall c (by simp [hpk]), hall c' (by simp [hpk])] at hnames

section Rows

def filled (g : String → V) (cols : List ColumnDefinition) : Row V :=
  cols.foldr (fun c row => row.insert c.name (g c.name)) ∅

variable (g g' : String → V) {row row' : Row V}

omit [GoValue V] in
lemma getElem?_filled (name : String) :
    (filled g cols)[name]? = if name ∈ cols.map (·.name) then some (g name) else none := by
  induction cols with
  | nil => rfl
  | cons c cols ih =>
    rw [filled, foldr_cons, ExtTreeMap.getElem?_insert, ← filled, ih]
    by_cases hc : c.name = name
    · simp [hc]
    · simp [hc, Ne.symm hc]

omit [GoValue V] in
lemma rowOf_filled : RowOf cols (filled g cols) := by
  intro name
  rw [mem_iff_isSome_getElem?, getElem?_filled]
  split <;> simp_all

lemma get_filled {name : String} (h : name ∈ cols.map (·.name)) :
    (filled g cols).get name = g name := by
  simp [Row.get, getElem?_filled, h]

lemma sprint_eq_of_buildKey_eq {c : ColumnDefinition} (hc : c ∈ cols) (hpk : c.primaryKey)
    (hg : ∀ name ∈ cols.map (·.name), Pg.NoNul (sprint (g name)))
    (hg' : ∀ name ∈ cols.map (·.name), Pg.NoNul (sprint (g' name)))
    (h : buildKey cols (filled g cols) = buildKey cols (filled g' cols)) :
    sprint (g c.name) = sprint (g' c.name) := by
  have hmem : c ∈ cols.filter (·.primaryKey) := List.mem_filter.mpr ⟨hc, hpk⟩
  have hparts : ∀ g : String → V, keyParts cols (filled g cols) =
      (cols.filter (·.primaryKey)).map fun d => sprint (g d.name) := fun g =>
    map_congr_left fun d hd => by
      rw [get_filled g (List.mem_map_of_mem (List.mem_filter.mp hd).1)]
  have hne : cols.filter (·.primaryKey) ≠ [] := ne_nil_of_mem hmem
  simp only [buildKey, hparts, isEmpty_map, List.isEmpty_iff, if_neg hne] at h
  refine map_inj_left.mp (Pg.intercalate_nul_inj (by simp) ?_ ?_ h) c hmem <;>
    intro part hpart <;> obtain ⟨d, hd, rfl⟩ := List.mem_map.mp hpart
  · exact hg _ (List.mem_map_of_mem (List.mem_filter.mp hd).1)
  · exact hg' _ (List.mem_map_of_mem (List.mem_filter.mp hd).1)

lemma Client.sprint_eq (row : Row V) : row.sprint = "map[" ++ " ".intercalate
    (row.keys.map fun name => name ++ ":" ++ sprint (row.get name)) ++ "]" := by
  rw [Row.sprint, ← map_fst_toList_eq_keys, List.map_map]
  congr 3
  refine map_congr_left fun kv hkv => ?_
  have hget := mem_toList_iff_getElem?_eq_some.mp hkv
  simp [Row.get, hget]

omit [GoValue V] in
lemma Fanout.RowOf.keys_perm (h : RowOf cols row) (hnodup : (cols.map (·.name)).Nodup) :
    row.keys.Perm (cols.map (·.name)) := by
  refine (perm_ext_iff_of_nodup nodup_keys hnodup).mpr fun name => ?_
  rw [ExtTreeMap.mem_keys, h name]

omit [GoValue V] in
lemma Fanout.RowOf.keys_eq (h : RowOf cols row) (h' : RowOf cols row')
    (hnodup : (cols.map (·.name)).Nodup) : row.keys = row'.keys := by
  refine List.Perm.eq_of_pairwise (fun a b _ _ hab hba => ?_) ordered_keys
    ordered_keys ((h.keys_perm hnodup).trans (h'.keys_perm hnodup).symm)
  rw [Std.OrientedCmp.gt_of_lt hab] at hba
  cases hba

/-- Texts that differ in one piece are different. -/
lemma intercalate_ne {sep : String} {f f' : String → String} {l : List String} {a : String}
    (ha : a ∈ l) (hnodup : l.Nodup) (hsame : ∀ b, b ≠ a → f b = f' b) (hne : f a ≠ f' a) :
    sep.intercalate (l.map f) ≠ sep.intercalate (l.map f') := by
  induction l with
  | nil => cases ha
  | cons b l ih =>
    obtain ⟨hb, hl⟩ := nodup_cons.mp hnodup
    cases l with
    | nil =>
      obtain rfl := mem_singleton.mp ha
      simpa using hne
    | cons d l =>
      simp only [map_cons, String.intercalate_cons_cons, String.append_assoc]
      by_cases hab : b = a
      · subst hab
        have hrest : (d :: l).map f = (d :: l).map f' :=
          map_congr_left fun x hx => hsame x fun hxb => hb (hxb ▸ hx)
        rw [map_cons, map_cons] at hrest
        rw [hrest]
        exact fun h => hne ((String.append_left_inj _).mp h)
      · rw [hsame b hab]
        refine fun h => ih ((mem_cons.mp ha).resolve_left (Ne.symm hab)) hl ?_
        simpa only [map_cons, String.append_right_inj] using h

end Rows

/-- The schemas on which the two keys tell the same rows apart. -/
def Fanout.Alike (cols : List ColumnDefinition) : Prop :=
  if "id" ∈ cols.map (·.name) then ∀ c ∈ cols, c.primaryKey → c.name = "id"
  else cols.length ≤ 1 ∧ ∀ c ∈ cols, c.primaryKey

lemma alike_of_keys_agree (hnodup : (cols.map (·.name)).Nodup)
    (hnames : ∀ c ∈ cols, Pg.NoNul c.name) {str : String → V} (hstr : ∀ s, sprint (str s) = s)
    (h : ∀ row row' : Row V, RowOf cols row → RowOf cols row' →
      (rowKey row = rowKey row' ↔ buildKey cols row = buildKey cols row')) : Alike cols := by
  -- two rows that differ in one column
  have hnul : ∀ c : ColumnDefinition, ∀ name, Pg.NoNul (sprint
      (Function.update (fun _ => str "") c.name (str "b") name)) := by
    intro c name
    by_cases hname : name = c.name <;> simp [hname, hstr, Pg.NoNul]
  unfold Alike
  split
  next hid =>
    intro c hc hpk
    by_contra hname
    have hrows := (h _ _ (rowOf_filled fun _ => str "")
      (rowOf_filled (Function.update (fun _ => str "") c.name (str "b")))).mp (by
        simp [rowKey, getElem?_filled, hid, Ne.symm hname])
    have heq := sprint_eq_of_buildKey_eq _ _ hc hpk (by simp [hstr, Pg.NoNul])
      (fun name _ => hnul c name) hrows
    simp [hstr] at heq
  next hid =>
    let names := (filled (fun _ => str "") cols).keys
    have hperm : names.Perm (cols.map (·.name)) := (rowOf_filled _).keys_perm hnodup
    have hnd : names.Nodup := hperm.nodup_iff.mpr hnodup
    have hprint : ∀ g : String → V, rowKey (filled g cols) = "map[" ++ " ".intercalate
        (names.map fun name => name ++ ":" ++ sprint (g name)) ++ "]" := by
      intro g
      simp only [rowKey, getElem?_filled, if_neg hid, sprint_eq,
        (rowOf_filled g).keys_eq (rowOf_filled fun _ => str "") hnodup]
      congr 3
      refine map_congr_left fun name hname => ?_
      rw [get_filled g (hperm.mem_iff.mp hname)]
    have hpk : ∀ c ∈ cols, c.primaryKey := by
      intro c hc
      by_contra hpk
      have hkey : buildKey cols (filled (fun _ => str "") cols) = buildKey cols
          (filled (Function.update (fun _ => str "") c.name (str "b")) cols) := by
        have hparts : keyParts cols (filled (fun _ => str "") cols) = keyParts cols
            (filled (Function.update (fun _ => str "") c.name (str "b")) cols) := by
          refine map_congr_left fun d hd => ?_
          obtain ⟨hd, hdpk⟩ := List.mem_filter.mp hd
          have hname : d.name ≠ c.name := fun heq =>
            hpk (inj_on_of_nodup_map hnodup hd hc heq ▸ hdpk)
          rw [get_filled _ (List.mem_map_of_mem hd), get_filled _ (List.mem_map_of_mem hd),
            update_of_ne hname]
        simp only [buildKey, hparts, getElem?_filled, if_neg hid]
      have hrow := (h _ _ (rowOf_filled _) (rowOf_filled _)).mpr hkey
      rw [hprint, hprint, String.append_left_inj, String.append_right_inj] at hrow
      refine intercalate_ne (hperm.mem_iff.mpr (List.mem_map_of_mem hc)) hnd (fun name hname => ?_)
        ?_ hrow
      · rw [update_of_ne hname]
      · exact fun heq => by simpa [hstr] using (String.append_right_inj _).mp heq
    refine ⟨?_, hpk⟩
    by_contra hlen
    obtain ⟨a, b, rest, hab⟩ : ∃ a b rest, names = a :: b :: rest := by
      have hlength := hperm.length_eq
      rw [length_map] at hlength
      rcases names with _ | ⟨a, _ | ⟨b, rest⟩⟩
      · simp at hlength; omega
      · simp at hlength; omega
      · exact ⟨a, b, rest, rfl⟩
    rw [hab] at hnd
    have hmem : ∀ {x}, x ∈ names → x ∈ cols.map (·.name) := hperm.mem_iff.mp
    -- the value of the first column looks like the second column
    let g name := str <| if name = a then "1" ++ (" " ++ (b ++ ":" ++ "2"))
      else if name = b then "3" else ""
    let g' name := str <| if name = a then "1"
      else if name = b then "2" ++ (" " ++ (b ++ ":" ++ "3")) else ""
    have hrest : ∀ name ∈ rest, g name = g' name := by
      intro name hname
      have hna : name ≠ a := by rintro rfl; simp [hname] at hnd
      have hnb : name ≠ b := by rintro rfl; simp [hname] at hnd
      simp only [g, g', if_neg hna, if_neg hnb]
    have hrow : rowKey (filled g cols) = rowKey (filled g' cols) := by
      have hba : b ≠ a := by rintro rfl; simp at hnd
      have htail : (rest.map fun name => name ++ ":" ++ sprint (g name)) =
          rest.map fun name => name ++ ":" ++ sprint (g' name) :=
        map_congr_left fun name hname => by rw [hrest name hname]
      rw [hprint, hprint, hab]
      simp only [map_cons, htail]
      cases rest.map fun name => name ++ ":" ++ sprint (g' name) <;>
        simp only [String.intercalate_cons_cons, String.intercalate_singleton, g, g', if_true,
          if_neg hba, hstr, String.append_assoc]
    obtain ⟨c, hc, rfl⟩ := List.mem_map.mp (hmem (hab ▸ mem_cons_self))
    have hb : Pg.NoNul b := by
      obtain ⟨d, hd, rfl⟩ := List.mem_map.mp (hmem (hab ▸ mem_cons_of_mem _ mem_cons_self))
      exact hnames d hd
    have heq := sprint_eq_of_buildKey_eq g g' hc (hpk c hc) (fun name _ => ?_) (fun name _ => ?_)
      ((h _ _ (rowOf_filled g) (rowOf_filled g')).mp hrow)
    · simp only [g, g', if_true, hstr] at heq
      simpa using congrArg String.length heq
    · simp only [g, hstr]; split_ifs <;> simp_all [Pg.NoNul]
    · simp only [g', hstr]; split_ifs <;> simp_all [Pg.NoNul]

lemma keys_agree_of_alike (hnodup : (cols.map (·.name)).Nodup) (hkey : Alike cols)
    (row row' : Row V) (hrow : RowOf cols row) (hrow' : RowOf cols row') :
    rowKey row = rowKey row' ↔ buildKey cols row = buildKey cols row' := by
  unfold Alike at hkey
  split at hkey
  next hid =>
    have hbyId := keyedById_of_nodup hnodup hkey
    have hhas : ∀ {row : Row V}, RowOf cols row → row["id"]?.isSome := fun hrow =>
      mem_iff_isSome_getElem?.mp ((hrow "id").mpr hid)
    rw [buildKey_eq_rowKey hbyId (hhas hrow), buildKey_eq_rowKey hbyId (hhas hrow')]
  next hid =>
    have hnone : ∀ {row : Row V}, RowOf cols row → row["id"]? = none := fun hrow =>
      ExtTreeMap.getElem?_eq_none fun hmem => hid ((hrow "id").mp hmem)
    have hperm := hrow.keys_perm hnodup
    have hperm' := hrow'.keys_perm hnodup
    simp only [rowKey, hnone hrow, hnone hrow', sprint_eq]
    obtain ⟨hlen, hpk⟩ := hkey
    match cols, hlen with
    | [], _ =>
      simp [perm_nil.mp hperm, perm_nil.mp hperm', buildKey, keyParts, hnone hrow, hnone hrow']
    | [c], _ =>
      simp [perm_singleton.mp hperm, perm_singleton.mp hperm', buildKey, keyParts,
        hpk c mem_cons_self]

/-- **Client and server identify rows alike** if and only if no column other than `id` is in the
key or, on a table without such a column, the key is the only column. -/
theorem keys_agree_iff_and_replica_holds_rows (w : Wire P V) (cols : List ColumnDefinition)
    (hnodup : (cols.map (·.name)).Nodup) (hnames : ∀ c ∈ cols, Pg.NoNul c.name)
    (str : String → V) (hstr : ∀ s, sprint (str s) = s) :
    ((∀ row row' : Row V, RowOf cols row → RowOf cols row' →
        (rowKey row = rowKey row' ↔ buildKey cols row = buildKey cols row')) ↔ Alike cols) ∧
    ("id" ∈ cols.map (·.name) → Alike cols →
      ∀ (cfg : Config) (before after : List (Op P V × AppendEnv)) (env : SnapshotEnv V)
        (call : Call P V) (r : Replica V) {cut t final : Target P V} {snap : Snapshot V},
        cut = ((new cfg).onInit cols).run before →
        Iterates env.rows cut.store →
        cut.takeSnapshot env = (snap, t) →
        final = t.run after →
        final.j.KeptSince snap.sequence →
        call.filter = none →
        (∀ row ∈ snap.rows, w.Carries row) →
        (∀ e ∈ final.j.entries, (∀ row, e.newValues = some row → w.Carries row) ∧
          ∀ row, e.oldValues = some row → w.Carries row) →
        (r.run (w.snapshotMessages call snap ++ w.catchUp call final snap.sequence)).client.store =
          final.store) := by
  refine ⟨⟨alike_of_keys_agree hnodup hnames hstr, keys_agree_of_alike hnodup⟩, fun hid hkey => ?_⟩
  rw [Alike, if_pos hid] at hkey
  rintro cfg before after env call r cut _ _ snap hcut hrows hsnap rfl hkept hflt hcarry hent
  have hbyId := keyedById_of_nodup hnodup hkey
  have hnew : ((new cfg : Target P V).onInit cols).Keyed := KeyedMap.Keyed.empty
  obtain ⟨hcols, hkd, -⟩ := run_frame before hnew
  rw [← hcut] at hkd hcols
  obtain ⟨rfl, rfl⟩ : cut.capture env = snap ∧ (cut.takeSnapshot env).2 = _ := Prod.mk.inj hsnap
  have hbuilt := hkd.rebuild env hrows after (Journal.keptSince_iff_retains.mp hkept)
  rw [hcols] at hbuilt
  -- the client's folds are the target's, since every row has one key on both sides
  rw [Replica.run_append, Replica.run_catchUp hbyId hflt _ _ _ hent,
    (Replica.run_snapshot hbyId call hflt r _ hcarry).1]
  exact hbuilt

def rowOfRegion (id region : String) : Row Text :=
  .ofList [("id", some id), ("region", some region)]

theorem keys_agree_iff_and_replica_holds_rows_replaced : let env : AppendEnv := ⟨0, 0, []⟩
    let taken : SnapshotEnv Text :=
      ⟨0, 0, 0, [rowOfRegion "1" "eu", rowOfRegion "2" "eu"]⟩
    let cut : Target Int Text := ((new {}).onInit [⟨"id", true, 1⟩]).run
      [(.onInsert (rowOfRegion "1" "eu"), env), (.onInsert (rowOfRegion "2" "eu"), env)]
    let final := (cut.takeSnapshot taken).2.run [(.onUpdate (rowOfRegion "1" "us") none, env),
        (.onDelete (some (rowOfRegion "2" "eu")), env)]
    let call := plainWire.call ⟨"", 0, "", ""⟩
    let r : Replica Text := ⟨new [], false⟩
    (r.run (plainWire.snapshotMessages call (cut.capture taken) ++
      plainWire.catchUp call final (cut.capture taken).sequence)).client.store = final.store := by
  intro env taken cut final call r
  have hrows : ∀ row ∈ taken.rows, row["id"]?.isSome := by decide +kernel
  have hent : ∀ e ∈ final.j.entries, (∀ row ∈ e.newValues, row["id"]?.isSome) ∧
      ∀ row ∈ e.oldValues, row["id"]?.isSome := by decide +kernel
  exact (keys_agree_iff_and_replica_holds_rows plainWire [⟨"id", true, 1⟩] (by decide)
    (by decide) some fun _ => rfl).2 (by decide) (by simp [Alike]) {} _ _ taken call r
      (rfl : cut = _)
    (by decide +kernel) (rfl : cut.takeSnapshot taken = (cut.capture taken, _)) (rfl : final = _)
    (Journal.keptSince_iff_retains.mpr (by decide +kernel)) rfl
    (fun row hrow => ⟨hrows row hrow, rfl⟩)
    fun e he => ⟨fun row hrow => ⟨(hent e he).1 row hrow, rfl⟩,
      fun row hrow => ⟨(hent e he).2 row hrow, rfl⟩⟩

/-- Two rows of one id in two regions, on a table keyed by both: the client keeps the last. -/
theorem composite_key_is_one_row :
    let cols : List ColumnDefinition := [⟨"id", true, 1⟩, ⟨"region", true, 2⟩]
    let final : Target Int Text := ((new {}).onInit cols).run
      [(.onInsert (rowOfRegion "1" "eu"), ⟨0, 0, []⟩),
        (.onInsert (rowOfRegion "1" "us"), ⟨0, 0, []⟩)]
    let call := plainWire.call ⟨"", 0, "", ""⟩
    rowKey (rowOfRegion "1" "eu") = rowKey (rowOfRegion "1" "us") ∧
    buildKey cols (rowOfRegion "1" "eu") ≠ buildKey cols (rowOfRegion "1" "us") ∧
    final.store.toList.map Prod.snd = [rowOfRegion "1" "eu", rowOfRegion "1" "us"] ∧
    ((⟨new [], false⟩ : Replica Text).run (plainWire.snapshotMessages call
          (((new {} : Target Int Text).onInit cols).capture ⟨0, 0, 0, []⟩) ++
        plainWire.catchUp call final 0)).client.store.toList =
      [("1", rowOfRegion "1" "us")] :=
  ⟨rfl, by decide, rfl, rfl⟩

end Laredo
