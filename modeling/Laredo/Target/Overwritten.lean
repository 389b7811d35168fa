import Laredo.Target.Collisions
import Laredo.Target.Compiled

/-!
# Overwritten

Rows that are written over a stored row without an identity that finds it, as `OnInsert`,
`OnBaselineRow` and an update with a nil identity do.
-/

namespace Laredo.Memory

open KeyedMap Std Option SecondaryIndex Row

variable {C P V : Type} [GoValue V]

namespace IndexedTarget

variable {t : IndexedTarget V} {row old : Row V}

/-- Written without removing the old row, the new one overwrites all its entries: rows are listed
nowhere, and the two have the same keys. -/
structure TakesPlace (t : IndexedTarget V) (row old : Row V) : Prop where
  lists : ∀ idx, ¬ t.ListIndex idx
  keys : ∀ {key : Row V → String} {m : Store V}, t.UniqueIndex key m → key row = key old

lemma takesPlace_iff (t : IndexedTarget V) (row old : Row V) : t.TakesPlace row old ↔
    (∀ x ∈ t.indexes.toList, x.2.definition.unique = true) ∧
      buildKey t.pkCols row = buildKey t.pkCols old ∧
      (t.lookupIndex.isSome → buildKey t.lookupFields row = buildKey t.lookupFields old) ∧
      ∀ x ∈ t.indexes.toList, x.2.definition.unique = true →
        buildKey x.2.definition.fields row = buildKey x.2.definition.fields old := by
  rw [← t.forall_uniqueIndex_iff fun key => key row = key old]
  simp only [Prod.forall, ExtTreeMap.mem_toList_iff_getElem?_eq_some]
  constructor
  · intro h
    refine ⟨fun name idx hidx => ?_, h.keys⟩
    by_contra hlist
    exact h.lists idx ⟨⟨name, hidx⟩, by simpa using hlist⟩
  · rintro ⟨hall, hkeys⟩
    refine ⟨?_, hkeys⟩
    rintro idx ⟨⟨name, hidx⟩, hlist⟩
    rw [hall name idx hidx] at hlist
    cases hlist

instance (t : IndexedTarget V) (row old : Row V) : Decidable (t.TakesPlace row old) :=
  decidable_of_iff _ (t.takesPlace_iff row old).symm

omit [GoValue V] in
lemma map_indexes_congr (hlists : ∀ idx, ¬ t.ListIndex idx)
    {f g : SecondaryIndex V → SecondaryIndex V}
    (h : ∀ (name : String) (idx : SecondaryIndex V), t.indexes[name]? = some idx →
      idx.definition.unique = true → f idx = g idx) :
    (t.indexes.map fun _ idx => f idx) = t.indexes.map fun _ idx => g idx := by
  refine ExtTreeMap.ext_getElem? fun name => ?_
  rw [ExtTreeMap.getElem?_map, ExtTreeMap.getElem?_map]
  cases hidx : t.indexes[name]? with
  | none => rfl
  | some idx =>
    have huq : idx.definition.unique = true := by
      by_contra hlist
      exact hlists idx ⟨⟨name, hidx⟩, by simpa using hlist⟩
    rw [map_some, map_some, h name idx hidx huq]

lemma TakesPlace.onInsert_eq (h : t.TakesPlace row old) :
    t.onInsert row = t.exchange ⟨some old, some row⟩ := by
  have hins : t.onInsert row = t.exchange ⟨none, some row⟩ := rfl
  rw [hins, exchange_eq, exchange_eq]
  congr 1
  · exact (swap_eq_put (h.keys .primary).symm).symm
  · cases hm : t.lookupIndex with
    | none => rfl
    | some m =>
      simp only [map_some]
      rw [swap_eq_put (h.keys (.lookup hm)).symm]
      rfl
  · refine map_indexes_congr h.lists fun name idx hidx huq => ?_
    have hkey := h.keys (.secondary hidx huq)
    have hput := swap_eq_put (m := idx.unique) hkey.symm
    simp only [swap, put, Option.elim] at hput
    simp [SecondaryIndex.exchange, SecondaryIndex.add, SecondaryIndex.remove, huq, hput]

lemma Mirrors.eq_of_holds_onInsert (h : t.Mirrors)
    (hold : t.store[buildKey t.pkCols row]? = some old) (hhld : (t.onInsert row).Holds old) :
    row = old := by
  obtain ⟨k, hk⟩ := hhld
  rw [store_onInsert] at hk
  obtain rfl := h.keyed.put row k old hk
  have hkey := h.keyed _ _ hold
  rw [getElem?_put, if_pos hkey.symm] at hk
  exact some.inj hk

lemma Mirrors.getElem?_swap_old (h : t.Mirrors)
    (hold : t.store[buildKey t.pkCols row]? = some old) {key : Row V → String} {m : Store V}
    (huq : t.UniqueIndex key m) (hkey : key row ≠ key old) :
    (swap key m ⟨none, some row⟩)[key old]? = some old := by
  rw [getElem?_swap_of_not, (h.unique huq _ _).mpr ⟨⟨_, hold⟩, rfl⟩]
  · rintro ⟨x, hx, hxkey⟩
    cases hx
    exact hkey hxkey
  · rintro ⟨⟨x, hx, -⟩, -⟩
    cases hx

lemma Mirrors.mem_pushed_old (h : t.Mirrors)
    (hold : t.store[buildKey t.pkCols row]? = some old) {idx : SecondaryIndex V}
    (hlist : t.ListIndex idx) :
    let rows := (idx.exchange t.pkCols ⟨none, some row⟩).nonuniq.getD
      (buildKey idx.definition.fields old) []
    old ∈ rows ∧ (row = old → ¬ rows.Nodup) := by
  intro rows
  have hmem : old ∈ idx.nonuniq.getD (buildKey idx.definition.fields old) [] :=
    ((h.sound.lists hlist _).2 old).mpr ⟨⟨_, hold⟩, rfl⟩
  have hrows : rows = idx.nonuniq.getD (buildKey idx.definition.fields old) [] ++
      [row].filter fun x => decide (buildKey idx.definition.fields x =
        buildKey idx.definition.fields old) := by
    have hpush := getD_foldl_push (buildKey idx.definition.fields) idx.nonuniq [row]
      (buildKey idx.definition.fields old)
    rw [← hpush]
    show (idx.exchange t.pkCols ⟨none, some row⟩).nonuniq.getD _ [] = _
    rw [nonuniq_exchange hlist.2]
    rfl
  refine ⟨by rw [hrows]; exact List.mem_append_left _ hmem, ?_⟩
  rintro rfl hnd
  rw [hrows, List.nodup_append] at hnd
  exact hnd.2.2 row hmem row (by simp) rfl

lemma Mirrors.proper_of_key (h : t.Mirrors) (hold : t.store[buildKey t.pkCols row]? = some old) :
    t.Proper ⟨some old, some row⟩ := by
  refine ⟨fun x hx => ⟨_, some.inj hx ▸ hold⟩, fun x hx other hother hstays hkey => ?_⟩
  cases hx
  rw [← hkey, (h.unique .primary _ other).mpr ⟨hother, rfl⟩] at hold
  exact hstays hold.symm

lemma TakesPlace.mirrors_onInsert (h : t.TakesPlace row old) (hmir : t.Mirrors)
    (hold : t.store[buildKey t.pkCols row]? = some old) : (t.onInsert row).Mirrors := by
  rw [h.onInsert_eq]
  have hhl : t.Holds old := ⟨_, hold⟩
  -- a row that stays shares no key with the old one, so none with the new one
  have hfree : ∀ {key : Row V → String} {m : Store V}, t.UniqueIndex key m → ∀ other,
      t.Holds other → (some old : Option (Row V)) ≠ some other → key other ≠ key row := by
    intro key m huq other hother hstays hkey
    rw [h.keys huq] at hkey
    exact hstays (congrArg some ((hmir.unique huq).injective hother hhl hkey).symm)
  have hprop := hmir.proper_of_key hold
  refine hmir.exchange hprop fun {key m'} huq => ?_
  obtain ⟨m, hm, -⟩ := huq.of_exchange
  rw [hmir.sound.holds_exchange hprop]
  rintro x (⟨hx, hxstays⟩ | hx) y (⟨hy, hystays⟩ | hy) hxy
  · exact (hmir.unique hm).injective hx hy hxy
  · cases hy
    exact absurd hxy (hfree hm x hx hxstays)
  · cases hx
    exact absurd hxy.symm (hfree hm y hy hystays)
  · exact some.inj (hx.symm.trans hy)

lemma onInsert_onInsert (hlists : ∀ idx, ¬ t.ListIndex idx) (row : Row V) :
    (t.onInsert row).onInsert row = t.onInsert row := by
  have hput : ∀ (key : Row V → String) (m : Store V),
      (m.insert (key row) row).insert (key row) row = m.insert (key row) row := by
    intro key m
    exact put_put (m := m) row
  have hidxs : (t.indexes.map fun _ idx => (idx.add row).add row) =
      t.indexes.map fun _ idx => idx.add row :=
    map_indexes_congr hlists fun name idx _ huq => by simp [SecondaryIndex.add, huq, hput]
  simp [onInsert, addToIndexes, hput, ExtTreeMap.map_map, Function.comp_def, hidxs]

/-- **Inserts over a stored row.** The target answers for its rows, and doing it again changes
nothing, if and only if no index lists rows and the row has the keys of the one it replaces in the
lookup index and the unique indexes. -/
theorem reinsert_iff (h : t.Mirrors) (hold : t.store[buildKey t.pkCols row]? = some old) :
    (t.onInsert row).AnswersRows ∧ (t.onInsert row).onInsert row = t.onInsert row ↔
      t.TakesPlace row old := by
  constructor
  · rintro ⟨hanswers, -⟩
    refine ⟨fun idx hlist => ?_, fun {key m} huq => ?_⟩
    · obtain ⟨hmem, htwice⟩ := h.mem_pushed_old hold hlist
      have hrows := hanswers.lists (hlist.exchange ⟨none, some row⟩) old
      rw [definition_exchange] at hrows
      exact htwice (h.eq_of_holds_onInsert hold ((hrows.2 old).mp hmem).1) hrows.1
    · by_contra hkey
      have hent := h.getElem?_swap_old hold huq hkey
      have hhld := ((hanswers.getElem?_iff (huq.exchange ⟨none, some row⟩) old old).mp hent).1
      exact hkey (congrArg key (h.eq_of_holds_onInsert hold hhld))
  · intro hplace
    exact ⟨(hplace.mirrors_onInsert h hold).answersRows, onInsert_onInsert hplace.lists row⟩

/-- Member 1 is delivered again, as it was and with another badge: the team lists it twice, and
its old badge still finds the version that was replaced. -/
theorem reinsert_lists_twice : let t := membersTarget.onInsert (member "1" "a" "x" "7")
    t.Mirrors ∧ (t.onInsert (member "1" "a" "x" "7")).lookupAll "team" [some "x"] =
        [member "1" "a" "x" "7", member "1" "a" "x" "7"] ∧
      (t.onInsert (member "1" "a" "x" "9")).lookupAll "badge" [some "7"] =
        [member "1" "a" "x" "7"] := by
  intro t
  have hmir : t.Mirrors :=
    (onInit_new onInit_membersTarget).2.onInsert (by decide +kernel) (by decide +kernel)
  exact ⟨hmir, by decide +kernel, by decide +kernel⟩

def badgesTarget : IndexedTarget Text :=
  let indexDefs : List IndexDefinition := [⟨"badge", ["badge"], true⟩]
  { new ["email"] indexDefs with
    pkCols := ["id"]
    lookupIndex := some ∅
    indexes := indexDefs.foldl (fun m d => m.insert d.name ⟨d, ∅, ∅⟩) ∅ }

lemma onInit_badgesTarget : (new ["email"] [⟨"badge", ["badge"], true⟩]).onInit
    [⟨"id", true, 1⟩, ⟨"email", false, 0⟩, ⟨"team", false, 0⟩, ⟨"badge", false, 0⟩] =
    .ok badgesTarget := rfl

theorem reinsert_iff_run : let t := badgesTarget.onInsert (member "1" "a" "x" "7")
    let again := t.onInsert (member "1" "a" "y" "7")
    again.AnswersRows ∧ again.onInsert (member "1" "a" "y" "7") = again ∧
      again.lookup [some "a"] = some (member "1" "a" "y" "7") := by
  intro t again
  have hmir : t.Mirrors :=
    (onInit_new onInit_badgesTarget).2.onInsert (by decide +kernel) (by decide +kernel)
  have hold : t.store[buildKey t.pkCols (member "1" "a" "y" "7")]? =
      some (member "1" "a" "x" "7") := by decide +kernel
  obtain ⟨hanswers, hsame⟩ := (reinsert_iff hmir hold).mpr (by decide +kernel)
  exact ⟨hanswers, hsame, by decide +kernel⟩

structure SameResults (t u : IndexedTarget V) : Prop extends SameAnswers t u where
  all : t.store = u.store

lemma SameResults.of_eq {t u : IndexedTarget V} (h : t = u) : t.SameResults u := by
  subst h
  exact { get := fun _ => rfl, lookup := fun _ => rfl, lookupAll := fun _ _ => .refl _, all := rfl }

def nilKey (t : IndexedTarget V) : String := buildKey t.pkCols (∅ : Row V)

lemma Mirrors.onUpdate_eq (h : t.Mirrors) (ident : Option (Row V)) : t.onUpdate row ident =
      t.exchange ⟨t.store[buildKey t.pkCols (orEmpty ident)]?, some row⟩ := by
  have hop : (.onUpdate row ident : Fanout.Op Unit V) ≠ .onTruncate := nofun
  exact apply_eq_exchange h.keyed hop

lemma SameAnswers.getElem?_swap {e e' : Exchange (Row V)}
    (h : SameAnswers (t.exchange e) (t.exchange e')) {key : Row V → String} {m : Store V}
    (huq : t.UniqueIndex key m) (x : Row V) :
    (swap key m e)[key x]? = (swap key m e')[key x]? := by
  cases huq with
  | primary =>
    have hget := h.get (t.pkCols.map x.get)
    rwa [IndexedTarget.get, IndexedTarget.get, store_exchange, store_exchange, ← buildKey_eq]
      at hget
  | lookup hm =>
    have hlook := h.lookup (t.lookupFields.map x.get)
    rwa [IndexedTarget.lookup, IndexedTarget.lookup, exchange_eq, exchange_eq, hm, ← buildKey_eq]
      at hlook
  | @secondary name idx hidx hu =>
    have hall := h.lookupAll name (idx.definition.fields.map x.get)
    rw [IndexedTarget.lookupAll, IndexedTarget.lookupAll, getElem?_indexes_exchange,
      getElem?_indexes_exchange, hidx] at hall
    simp only [map_some, definition_exchange, hu, if_true, ← buildKey_eq,
      unique_exchange hu] at hall
    exact eq_of_toList_perm hall

lemma SameAnswers.perm_lists {e e' : Exchange (Row V)}
    (h : SameAnswers (t.exchange e) (t.exchange e')) {idx : SecondaryIndex V}
    (hlist : t.ListIndex idx) (x : Row V) :
    ((idx.exchange t.pkCols e).nonuniq.getD (buildKey idx.definition.fields x) []).Perm
      ((idx.exchange t.pkCols e').nonuniq.getD (buildKey idx.definition.fields x) []) := by
  obtain ⟨⟨name, hidx⟩, huq⟩ := hlist
  have hall := h.lookupAll name (idx.definition.fields.map x.get)
  rw [IndexedTarget.lookupAll, IndexedTarget.lookupAll, getElem?_indexes_exchange,
    getElem?_indexes_exchange, hidx] at hall
  simpa only [map_some, definition_exchange, huq, Bool.false_eq_true,
    if_false, ← buildKey_eq] using hall

lemma Mirrors.onUpdate_none_iff (h : t.Mirrors)
    (hold : t.store[buildKey t.pkCols row]? = some old) :
    SameResults (t.onUpdate row (some old)) (t.onUpdate row none) ↔
      t.nilKey = buildKey t.pkCols row ∨ t.store[t.nilKey]? = none ∧ t.TakesPlace row old := by
  have hkey : buildKey t.pkCols old = buildKey t.pkCols row := h.keyed _ _ hold
  have hfull : t.onUpdate row (some old) = t.exchange ⟨some old, some row⟩ := by
    rw [h.onUpdate_eq, orEmpty, getD_some, hkey, hold]
  have hnil : t.onUpdate row none = t.exchange ⟨t.store[t.nilKey]?, some row⟩ := h.onUpdate_eq none
  rw [hfull, hnil]
  by_cases hsame : t.nilKey = buildKey t.pkCols row
  · rw [hsame, hold]
    exact iff_of_true (.of_eq rfl) (.inl rfl)
  cases hfnd : t.store[t.nilKey]? with
  | some other =>
    -- the row under that key is removed, and it is not the one that is updated
    refine iff_of_false (fun hresults => ?_) (by simp [hsame])
    have hst := hresults.all
    rw [store_exchange, store_exchange] at hst
    have hnone : (swap (buildKey t.pkCols) t.store ⟨some other, some row⟩)[t.nilKey]? =
        none := by
      refine getElem?_swap_of_takes ⟨⟨other, rfl, h.keyed _ _ hfnd⟩, ?_⟩
      rintro ⟨x, hx, hxkey⟩
      cases hx
      exact hsame hxkey.symm
    have hstays : (swap (buildKey t.pkCols) t.store ⟨some old, some row⟩)[t.nilKey]? =
        some other := by
      rw [swap_eq_put hkey, getElem?_put, if_neg fun hrow => hsame hrow.symm, hfnd]
    rw [hst, hnone] at hstays
    cases hstays
  | none =>
    simp only [hsame, false_or, true_and]
    constructor
    · intro hresults
      have hanswers := hresults.toSameAnswers
      refine ⟨fun idx hlist => ?_, fun {key m} huq => ?_⟩
      · -- the full update lists the old row only if it is the new one, and then once
        obtain ⟨hmem, htwice⟩ := h.mem_pushed_old hold hlist
        have hprop := h.proper_of_key hold
        have hlists := (h.sound.exchange hprop).lists (hlist.exchange ⟨some old, some row⟩)
          (buildKey idx.definition.fields old)
        have hperm := hanswers.perm_lists hlist old
        rw [h.sound.holds_exchange hprop, definition_exchange] at hlists
        have haft := ((hlists.2 old).mp (hperm.mem_iff.mpr hmem)).1
        have hrow : row = old := by simpa [Exchange.after] using haft
        exact htwice hrow (hperm.nodup_iff.mp hlists.1)
      · by_contra hne
        have hent := hanswers.getElem?_swap huq old
        rw [h.getElem?_swap_old hold huq hne, getElem?_swap_of_takes] at hent
        · cases hent
        · refine ⟨⟨old, rfl, rfl⟩, ?_⟩
          rintro ⟨x, hx, hxkey⟩
          cases hx
          exact hne hxkey
    · intro hplace
      exact .of_eq hplace.onInsert_eq.symm

end IndexedTarget

namespace CompiledTarget

/-- The update of `row` does without an identity: none is needed to find the entry, or there is
nothing to remove. -/
def NeedsNoIdentity (c : CompiledTarget C V) (row : Row V) : Prop :=
  buildKey c.keyFields (∅ : Row V) = buildKey c.keyFields row ∨
    (c.refuses row = true → c.store[buildKey c.keyFields row]? = none) ∧
      (c.refuses row = true ∨ (c.compiler row).isSome →
        c.store[buildKey c.keyFields (∅ : Row V)]? = none)

lemma onUpdate_none_iff (c : CompiledTarget C V) {row ident : Row V}
    (hkey : buildKey c.keyFields ident = buildKey c.keyFields row) :
    (c.onUpdate row (some ident)).store = (c.onUpdate row none).store ↔ c.NeedsNoIdentity row := by
  unfold NeedsNoIdentity
  rw [onUpdate_eq, onUpdate_eq, onDelete_eq, onDelete_eq]
  simp only [orEmpty, getD_some, getD_none, hkey]
  cases href : c.refuses row with
  | true =>
    rw [if_pos rfl, if_pos rfl, erase_eq_erase_iff]
    simp
  | false =>
    rw [if_neg Bool.false_ne_true, if_neg Bool.false_ne_true]
    cases hcomp : c.compiler row with
    | none => simp
    | some compiled =>
      simp only [Option.elim]
      rw [insert_erase_eq_iff]
      simp

lemma onUpdate_congr (c : CompiledTarget C V) {row x y : Row V}
    (hkey : buildKey c.keyFields x = buildKey c.keyFields y) :
    c.onUpdate row (some x) = c.onUpdate row (some y) := by
  rw [onUpdate_eq, onUpdate_eq, onDelete_eq, onDelete_eq]
  simp only [orEmpty, getD_some, hkey]

end CompiledTarget

open IndexedTarget (SameResults)

/-- **Updates and the identity they come with.** The old row, its key columns alone and no identity
lead to the same rows, answers and compiled entries, if and only if the row is found without an
identity, or takes the place of the old one by itself and nothing else is found. -/
theorem update_ignores_identity_iff {t : IndexedTarget V} (h : t.Mirrors) {c : CompiledTarget C V}
    (hfields : c.keyFields = t.pkCols) {row old keyOnly : Row V}
    (hold : t.store[buildKey t.pkCols row]? = some old)
    (hkeyOnly : buildKey t.pkCols keyOnly = buildKey t.pkCols row) :
    (SameResults (t.onUpdate row (some old)) (t.onUpdate row (some keyOnly)) ∧
        SameResults (t.onUpdate row (some old)) (t.onUpdate row none) ∧
        (c.onUpdate row (some old)).store = (c.onUpdate row (some keyOnly)).store ∧
        (c.onUpdate row (some old)).store = (c.onUpdate row none).store) ↔
      (t.nilKey = buildKey t.pkCols row ∨ t.store[t.nilKey]? = none ∧ t.TakesPlace row old) ∧
        c.NeedsNoIdentity row := by
  have hkey := h.keyed _ _ hold
  have hidx : t.onUpdate row (some old) = t.onUpdate row (some keyOnly) := by
    rw [h.onUpdate_eq, h.onUpdate_eq]
    simp only [orEmpty, getD_some, hkey, hkeyOnly]
  have hcomp : c.onUpdate row (some old) = c.onUpdate row (some keyOnly) :=
    c.onUpdate_congr (by rw [hfields, hkey, hkeyOnly])
  rw [h.onUpdate_none_iff hold, c.onUpdate_none_iff (by rw [hfields, hkey]), ← hidx, ← hcomp]
  simp [SameResults.of_eq]

def teamTarget (team : String) : CompiledTarget String Text :=
  .new (fun row => row.get "email") ["id"] (some fun row => row.get "team" == some team)

/-- Member 1 gets another badge and leaves team x, in an update without an identity. -/
theorem nil_identity_keeps_old_row : let old := IndexedTarget.member "1" "a" "x" "7"
    let row := IndexedTarget.member "1" "a" "y" "9"
    let t := IndexedTarget.membersTarget.onInsert old
    let c := (teamTarget "x").insertRow old
    t.Mirrors ∧ c.keyFields = t.pkCols ∧ t.store[buildKey t.pkCols row]? = some old ∧
      (t.onUpdate row (some old)).lookupAll "badge" [some "7"] = [] ∧
      (t.onUpdate row none).lookupAll "badge" [some "7"] = [old] ∧
      (t.onUpdate row none).lookupAll "team" [some "x"] = [old] ∧
      (c.onUpdate row (some old)).store.keys = [] ∧ (c.onUpdate row none).store.keys = ["1"] := by
  intro old row t c
  have hmir : t.Mirrors := (IndexedTarget.onInit_new IndexedTarget.onInit_membersTarget).2.onInsert
    (by decide +kernel) (by decide +kernel)
  exact ⟨hmir, rfl, by decide +kernel, by decide +kernel, by decide +kernel, by decide +kernel,
    by decide +kernel, by decide +kernel⟩

theorem update_ignores_identity_iff_run : let old := IndexedTarget.member "1" "a" "x" "7"
    let row := IndexedTarget.member "1" "a" "y" "7"
    let t := IndexedTarget.badgesTarget.onInsert old
    let c := (teamTarget "y").insertRow (IndexedTarget.member "2" "b" "y" "8")
    SameResults (t.onUpdate row (some old)) (t.onUpdate row none) ∧
      (c.onUpdate row none).store.keys = ["1", "2"] ∧
      (c.onUpdate row (some old)).store = (c.onUpdate row none).store := by
  intro old row t c
  have hmir : t.Mirrors := (IndexedTarget.onInit_new IndexedTarget.onInit_badgesTarget).2.onInsert
    (by decide +kernel) (by decide +kernel)
  have hold : t.store[buildKey t.pkCols row]? = some old := by decide +kernel
  have hkeyOnly : buildKey t.pkCols (.ofList [("id", some "1")]) = buildKey t.pkCols row := by
    decide +kernel
  have hcomp : c.NeedsNoIdentity row :=
    .inr ⟨fun href => absurd href (by decide +kernel), fun _ => by decide +kernel⟩
  obtain ⟨-, hnil, -, hcnil⟩ := (update_ignores_identity_iff hmir (c := c) rfl hold hkeyOnly).mpr
    ⟨.inr ⟨by decide +kernel, by decide +kernel⟩, hcomp⟩
  exact ⟨hnil, by decide +kernel, hcnil⟩

end Laredo.Memory
