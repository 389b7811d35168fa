import Laredo.Lib.Exchange
import Laredo.Target.Indexes

/-!
# Upkeep

How the indexes of the in-memory target follow its rows (`target/memory/memory.go`).
-/

namespace Laredo.Memory

open KeyedMap Fanout Exchange Std SecondaryIndex Row

variable {P V : Type} [GoValue V]

namespace SecondaryIndex

variable {idx : SecondaryIndex V}

def exchange (pkCols : List String) (idx : SecondaryIndex V) (e : Exchange (Row V)) :
    SecondaryIndex V :=
  let left := e.goes.elim idx (idx.remove pkCols)
  e.comes.elim left left.add

@[simp] lemma definition_remove (pks : List String) (idx : SecondaryIndex V) (row : Row V) :
    (idx.remove pks row).definition = idx.definition := by
  unfold remove
  dsimp only
  split <;> rfl

@[simp] lemma definition_exchange (pks : List String) (idx : SecondaryIndex V)
    (e : Exchange (Row V)) : (idx.exchange pks e).definition = idx.definition := by
  obtain ⟨goes, comes⟩ := e
  cases goes <;> cases comes <;> simp [exchange]

lemma unique_exchange (h : idx.definition.unique = true) (pks : List String)
    (e : Exchange (Row V)) :
    (idx.exchange pks e).unique = swap (buildKey idx.definition.fields) idx.unique e := by
  obtain ⟨goes, comes⟩ := e
  cases goes <;> cases comes <;> simp [exchange, add, remove, swap, put, h]

lemma nonuniq_exchange (h : idx.definition.unique = false) (pks : List String)
    (e : Exchange (Row V)) :
    (idx.exchange pks e).nonuniq =
      swapLists (buildKey idx.definition.fields) (buildKey pks) idx.nonuniq e := by
  obtain ⟨goes, comes⟩ := e
  cases goes <;> cases comes <;>
    simp [exchange, add, remove, swapLists, cut, push, h]

end SecondaryIndex

namespace IndexedTarget

def exchange (t : IndexedTarget V) (e : Exchange (Row V)) : IndexedTarget V :=
  let left := e.goes.elim t fun old =>
    { t.removeFromIndexes old with store := t.store.erase (buildKey t.pkCols old) }
  e.comes.elim left left.onInsert

lemma exchange_eq (t : IndexedTarget V) (e : Exchange (Row V)) : t.exchange e = { t with
      store := swap (buildKey t.pkCols) t.store e
      lookupIndex := t.lookupIndex.map (swap (buildKey t.lookupFields) · e)
      indexes := t.indexes.map fun _ idx => idx.exchange t.pkCols e } := by
  obtain ⟨goes, comes⟩ := e
  cases goes <;> cases comes <;>
    simp [exchange, removeFromIndexes, onInsert, addToIndexes, swap, put,
      SecondaryIndex.exchange, ExtTreeMap.map_map, ExtTreeMap.map_id, Function.comp_def]

variable {t : IndexedTarget V} {e : Exchange (Row V)}

@[simp] lemma pkCols_exchange (t : IndexedTarget V) (e : Exchange (Row V)) :
    (t.exchange e).pkCols = t.pkCols := by rw [exchange_eq]

@[simp] lemma store_exchange (t : IndexedTarget V) (e : Exchange (Row V)) :
    (t.exchange e).store = swap (buildKey t.pkCols) t.store e := by rw [exchange_eq]

lemma getElem?_indexes_exchange (t : IndexedTarget V) (e : Exchange (Row V)) (name : String) :
    (t.exchange e).indexes[name]? = t.indexes[name]?.map (·.exchange t.pkCols e) := by
  rw [exchange_eq, ExtTreeMap.getElem?_map]

lemma SameSetup.exchange (t : IndexedTarget V) (e : Exchange (Row V)) :
    (t.exchange e).SameSetup t where
  pkCols := pkCols_exchange t e
  lookupFields := by rw [exchange_eq]
  lookup := by rw [exchange_eq]; simp
  indexes name := by
    rw [getElem?_indexes_exchange, Option.map_map]
    simp [Function.comp_def]

def exchangeOf (t : IndexedTarget V) : Op P V → Exchange (Row V)
  | .onBaselineRow row | .onInsert row => ⟨none, some row⟩
  | .onUpdate row identity => ⟨t.store[buildKey t.pkCols (orEmpty identity)]?, some row⟩
  | .onDelete identity => ⟨t.store[buildKey t.pkCols (orEmpty identity)]?, none⟩
  | .onBaselineComplete | .setChangePosition _ | .onTruncate => ⟨none, none⟩

lemma apply_eq_exchange (hkd : Keyed (buildKey t.pkCols) t.store)
    {op : Op P V} (hop : op ≠ .onTruncate) : t.apply op = t.exchange (t.exchangeOf op) := by
  cases op with
  | onBaselineRow row => rfl
  | onInsert row => rfl
  | onBaselineComplete => rfl
  | setChangePosition position => rfl
  | onTruncate => exact absurd rfl hop
  | onUpdate row identity =>
    show t.onUpdate row identity = _
    unfold onUpdate exchangeOf
    dsimp only
    cases hold : t.store[buildKey t.pkCols (orEmpty identity)]? with
    | none => rfl
    | some old => rw [← hkd _ _ hold]; rfl
  | onDelete identity =>
    show t.onDelete identity = _
    unfold onDelete exchangeOf
    dsimp only
    cases hold : t.store[buildKey t.pkCols (orEmpty identity)]? with
    | none => rfl
    | some old => rw [← hkd _ _ hold]; rfl

variable {key : Row V → String}

lemma UniqueIndex.of_exchange {m' : Store V} (h : (t.exchange e).UniqueIndex key m') :
    ∃ m, t.UniqueIndex key m ∧ m' = swap key m e := by
  cases h with
  | primary => exact ⟨t.store, by rw [pkCols_exchange]; exact .primary, by simp⟩
  | lookup hm =>
    rw [exchange_eq] at hm ⊢
    obtain ⟨m, hlook, rfl⟩ := Option.map_eq_some_iff.mp hm
    exact ⟨m, .lookup hlook, rfl⟩
  | secondary hidx huq =>
    rw [getElem?_indexes_exchange] at hidx
    obtain ⟨idx, hold, rfl⟩ := Option.map_eq_some_iff.mp hidx
    rw [SecondaryIndex.definition_exchange] at huq ⊢
    exact ⟨idx.unique, .secondary hold huq, SecondaryIndex.unique_exchange huq _ e⟩

lemma UniqueIndex.exchange {m : Store V} (h : t.UniqueIndex key m)
    (e : Exchange (Row V)) : (t.exchange e).UniqueIndex key (swap key m e) := by
  cases h with
  | primary =>
    have hprimary := UniqueIndex.primary (t := t.exchange e)
    rwa [store_exchange, pkCols_exchange] at hprimary
  | lookup hm =>
    have hlook : (t.exchange e).lookupIndex =
        some (swap (buildKey t.lookupFields) m e) := by rw [exchange_eq, hm]; rfl
    have hindex := UniqueIndex.lookup hlook
    rwa [exchange_eq] at hindex ⊢
  | @secondary name idx hidx huq =>
    have hname : (t.exchange e).indexes[name]? = some (idx.exchange t.pkCols e) := by
      rw [getElem?_indexes_exchange, hidx]
      rfl
    have hindex := UniqueIndex.secondary hname (by simpa using huq)
    rwa [SecondaryIndex.definition_exchange, SecondaryIndex.unique_exchange huq] at hindex

lemma ListIndex.of_exchange {idx' : SecondaryIndex V} (h : (t.exchange e).ListIndex idx') :
    ∃ idx, t.ListIndex idx ∧ idx'.definition = idx.definition ∧
      idx'.nonuniq = swapLists (buildKey idx.definition.fields) (buildKey t.pkCols)
        idx.nonuniq e := by
  obtain ⟨⟨name, hidx⟩, huq⟩ := h
  rw [getElem?_indexes_exchange] at hidx
  obtain ⟨idx, hold, rfl⟩ := Option.map_eq_some_iff.mp hidx
  rw [SecondaryIndex.definition_exchange] at huq
  exact ⟨idx, ⟨⟨name, hold⟩, huq⟩, by simp, SecondaryIndex.nonuniq_exchange huq _ e⟩

lemma ListIndex.exchange {idx : SecondaryIndex V} (h : t.ListIndex idx) (e : Exchange (Row V)) :
    (t.exchange e).ListIndex (idx.exchange t.pkCols e) := by
  obtain ⟨⟨name, hidx⟩, huq⟩ := h
  refine ⟨⟨name, ?_⟩, by simpa using huq⟩
  rw [getElem?_indexes_exchange, hidx]
  rfl

structure Proper (t : IndexedTarget V) (e : Exchange (Row V)) : Prop where
  goes : ∀ row, e.goes = some row → t.Holds row
  comes : ∀ row, e.comes = some row → ∀ other, t.Holds other → e.goes ≠ some other →
    buildKey t.pkCols other ≠ buildKey t.pkCols row

/-- No two stored rows have the same key on the lookup fields or in a unique index; by primary
key they never have. -/
def Distinct (t : IndexedTarget V) : Prop :=
  ∀ {key : Row V → String} {m : Store V}, t.UniqueIndex key m → Set.InjOn key {row | t.Holds row}

lemma Proper.injOn (h : t.Proper e) (hfls : Files (buildKey t.pkCols) t.Holds t.store) :
    Set.InjOn (buildKey t.pkCols) {row | e.after t.Holds row} := by
  rintro x (⟨hx, hxstays⟩ | hx) y (⟨hy, hystays⟩ | hy) hxy
  · exact hfls.injective hx hy hxy
  · exact absurd hxy (h.comes y hy x hx hxstays)
  · exact absurd hxy.symm (h.comes x hx y hy hystays)
  · rw [hx] at hy
    exact Option.some.inj hy

/-- What a target is sure of, also when rows share keys of its unique indexes: the store and
the lists are right. -/
structure Sound (t : IndexedTarget V) : Prop where
  primary : Files (buildKey t.pkCols) t.Holds t.store
  lists : ∀ {idx : SecondaryIndex V}, t.ListIndex idx →
    Lists (buildKey idx.definition.fields) t.Holds idx.nonuniq

lemma Sound.holds_exchange (h : t.Sound) (hprop : t.Proper e) :
    (t.exchange e).Holds = e.after t.Holds := by
  have hfls := h.primary.swap hprop.goes (hprop.injOn h.primary)
  funext row
  refine propext ⟨?_, fun hrow => ⟨buildKey t.pkCols row, ?_⟩⟩
  · rintro ⟨k, hk⟩
    rw [store_exchange] at hk
    exact ((hfls k row).mp hk).1
  · rw [store_exchange]
    exact (hfls _ row).mpr ⟨hrow, rfl⟩

lemma Sound.exchange (h : t.Sound) (hprop : t.Proper e) : (t.exchange e).Sound where
  primary := by
    rw [h.holds_exchange hprop, store_exchange, pkCols_exchange]
    exact h.primary.swap hprop.goes (hprop.injOn h.primary)
  lists := by
    intro idx' hlist
    obtain ⟨idx, hidx, hdef, hlists⟩ := hlist.of_exchange
    rw [h.holds_exchange hprop, hdef, hlists]
    refine (h.lists hidx).swap hprop.goes (fun x hx y hy => h.primary.injective hx hy) ?_
    intro row hrow hhld
    by_contra hstays
    exact hprop.comes row hrow row hhld hstays rfl

def exchanges (t : IndexedTarget V) (es : List (Exchange (Row V))) : IndexedTarget V :=
  es.foldl exchange t

def ProperAlong (t : IndexedTarget V) (es : List (Exchange (Row V))) : Prop :=
  Stale.Along exchange Proper t es

variable {es : List (Exchange (Row V))}

lemma Sound.exchanges (h : t.Sound) (hprop : t.ProperAlong es) :
    (t.exchanges es).Sound ∧ (t.exchanges es).Holds = es.foldl after t.Holds := by
  induction es generalizing t with
  | nil => exact ⟨h, rfl⟩
  | cons e es ih =>
    obtain ⟨hsound, hhld⟩ := ih (h.exchange hprop.1) hprop.2
    refine ⟨hsound, hhld.trans ?_⟩
    rw [h.holds_exchange hprop.1]
    rfl

lemma UniqueIndex.exchanges {m : Store V} (h : t.UniqueIndex key m)
    (es : List (Exchange (Row V))) :
    (t.exchanges es).UniqueIndex key (es.foldl (swap key) m) := by
  induction es generalizing t m with
  | nil => exact h
  | cons e es ih => exact ih (h.exchange e)

lemma UniqueIndex.of_exchanges {m' : Store V} (h : (t.exchanges es).UniqueIndex key m') :
    ∃ m, t.UniqueIndex key m ∧ m' = es.foldl (swap key) m := by
  induction es generalizing t with
  | nil => exact ⟨m', h, rfl⟩
  | cons e es ih =>
    obtain ⟨m₁, hm₁, rfl⟩ := ih h
    obtain ⟨m, hm, rfl⟩ := hm₁.of_exchange
    exact ⟨m, hm, rfl⟩

lemma lists_iff (hkd : Keyed (buildKey t.pkCols) t.store) (idx : SecondaryIndex V) :
    Lists (buildKey idx.definition.fields) t.Holds idx.nonuniq ↔
      ∀ {rows : List (Row V)}, Target.Iterates rows t.store → ∀ k, (idx.nonuniq.getD k []).Perm
          (rows.filter fun row => decide (buildKey idx.definition.fields row = k)) := by
  have hnd : ∀ {rows : List (Row V)}, Target.Iterates rows t.store → rows.Nodup :=
    fun hrows => (nodup_keys_of_values hkd hrows).of_map
  have hflt : ∀ {rows : List (Row V)}, Target.Iterates rows t.store → ∀ k row,
      row ∈ rows.filter (fun row => decide (buildKey idx.definition.fields row = k)) ↔
        t.Holds row ∧ buildKey idx.definition.fields row = k := by
    intro rows hrows k row
    rw [List.mem_filter, hrows.mem_iff_exists, decide_eq_true_iff]
    rfl
  constructor
  · intro h rows hrows k
    refine (List.perm_ext_iff_of_nodup (h k).1 ((hnd hrows).filter _)).mpr fun row => ?_
    rw [(h k).2, hflt hrows]
  · intro h k
    have hall : Target.Iterates (t.store.toList.map Prod.snd) t.store := List.Perm.refl _
    have hperm := h hall k
    refine ⟨hperm.nodup_iff.mpr ((hnd hall).filter _), fun row => ?_⟩
    rw [hperm.mem_iff, hflt hall]

lemma Mirrors.keyed (h : t.Mirrors) : Keyed (buildKey t.pkCols) t.store :=
  fun k row hk => ((h.unique .primary k row).mp hk).2

lemma Sound.keyed (h : t.Sound) : Keyed (buildKey t.pkCols) t.store :=
  fun k row hk => ((h.primary k row).mp hk).2

lemma Mirrors.sound (h : t.Mirrors) : t.Sound :=
  ⟨h.unique .primary, fun {idx} hlist => (lists_iff h.keyed idx).mpr (h.lists hlist)⟩

lemma Sound.mirrors_iff (h : t.Sound) : t.Mirrors ↔
    ∀ {key : Row V → String} {m : Store V}, t.UniqueIndex key m → Files key t.Holds m :=
  ⟨fun hm => hm.unique, fun huq => ⟨huq, fun {idx} hlist =>
    (lists_iff h.keyed idx).mp (h.lists hlist)⟩⟩

lemma Mirrors.exchange (h : t.Mirrors) (hprop : t.Proper e)
    (hdst : (t.exchange e).Distinct) : (t.exchange e).Mirrors := by
  refine (h.sound.exchange hprop).mirrors_iff.mpr fun {key m'} huq => ?_
  have hinj := hdst huq
  obtain ⟨m, hm, rfl⟩ := huq.of_exchange
  rw [h.sound.holds_exchange hprop] at hinj ⊢
  exact (h.unique hm).swap hprop.goes hinj

lemma mirrors_of_empty (huq : ∀ {key : Row V → String} {m : Store V}, t.UniqueIndex key m → m = ∅)
    (hlists : ∀ {idx : SecondaryIndex V}, t.ListIndex idx → idx.nonuniq = ∅) : t.Mirrors := by
  have hnone : ∀ row, ¬ t.Holds row := by
    rintro row ⟨k, hk⟩
    rw [huq .primary] at hk
    simp at hk
  have hfls : ∀ {key : Row V → String} {m : Store V}, t.UniqueIndex key m →
      Files key t.Holds m := by
    intro key m hm k row
    simp [huq hm, hnone]
  have hsound : t.Sound := ⟨hfls .primary, fun hlist k => by simp [hlists hlist, hnone]⟩
  exact hsound.mirrors_iff.mpr hfls

/-- No stored row of the target after the exchanges has lost its entry in a unique index: when a
row with the same key there has gone, one with that key has come later. -/
def Kept (t : IndexedTarget V) (es : List (Exchange (Row V))) : Prop :=
  ∀ {key : Row V → String} {m : Store V}, t.UniqueIndex key m → ∀ row, (t.exchanges es).Holds row →
    ¬ Stale.Left (Takes key (key row)) (Brings key (key row)) es

lemma Mirrors.exchanges_iff (h : t.Mirrors)
    (hprop : t.ProperAlong es) (hdst : (t.exchanges es).Distinct) :
    (t.exchanges es).Mirrors ↔ t.Kept es := by
  obtain ⟨hsound, hhld⟩ := h.sound.exchanges hprop
  have hfls : ∀ {key : Row V → String} {m : Store V}, t.UniqueIndex key m →
      (Files key (t.exchanges es).Holds (es.foldl (swap key) m) ↔
        ∀ row, (t.exchanges es).Holds row →
          ¬ Stale.Left (Takes key (key row)) (Brings key (key row)) es) := by
    intro key m huq
    have hinj := hdst (huq.exchanges es)
    rw [hhld] at hinj ⊢
    exact (h.unique huq).swaps_iff hinj
  rw [hsound.mirrors_iff]
  constructor
  · intro hall key m huq
    exact (hfls huq).mp (hall (huq.exchanges es))
  · intro hkept key m' huq
    obtain ⟨m, hm, rfl⟩ := huq.of_exchanges
    exact (hfls hm).mpr (hkept hm)

/-- The setup is the one the options ask for: a lookup index when there are lookup fields, and
under each name the last index defined with it. -/
structure Configured (lookupFields : List String) (indexDefs : List IndexDefinition)
    (t : IndexedTarget V) : Prop where
  fields : t.lookupFields = lookupFields
  lookup : t.lookupIndex.isSome = !lookupFields.isEmpty
  indexes : ∀ name : String, t.indexes[name]?.map (·.definition) =
    indexDefs.reverse.find? fun d => d.name == name

variable {lookupFields : List String} {indexDefs : List IndexDefinition} {u : IndexedTarget V}

omit [GoValue V] in
lemma Configured.of_sameSetup
    {t : IndexedTarget V} (h : u.Configured lookupFields indexDefs) (hsame : t.SameSetup u) :
    t.Configured lookupFields indexDefs where
  fields := hsame.lookupFields.trans h.fields
  lookup := hsame.lookup.trans h.lookup
  indexes name := (hsame.indexes name).trans (h.indexes name)

omit [GoValue V] in
lemma getElem?_foldl_insert (indexDefs : List IndexDefinition)
    (m : ExtTreeMap String (SecondaryIndex V)) (name : String) :
    (indexDefs.foldl (fun m d => m.insert d.name ⟨d, ∅, ∅⟩) m)[name]? =
      ((indexDefs.reverse.find? fun d => d.name == name).map
        (SecondaryIndex.mk · ∅ ∅)).or m[name]? := by
  induction indexDefs generalizing m with
  | nil => simp
  | cons d indexDefs ih =>
    rw [List.foldl_cons, ih, List.reverse_cons, List.find?_append, ExtTreeMap.getElem?_insert]
    by_cases hname : d.name = name <;>
      cases List.find? (fun d => d.name == name) indexDefs.reverse <;> simp [hname]

lemma onInit_new {cols : List ColumnDefinition}
    (h : (new lookupFields indexDefs : IndexedTarget V).onInit cols = .ok t) :
    t.Configured lookupFields indexDefs ∧ t.Mirrors := by
  unfold onInit at h
  cases hvalid : (new lookupFields indexDefs : IndexedTarget V).validateFields cols with
  | error message => simp [hvalid, bind, Except.bind] at h
  | ok _ =>
    simp only [hvalid, bind, Except.bind, pure, Except.pure, Except.ok.injEq] at h
    subst h
    have hidxs := getElem?_foldl_insert (V := V) indexDefs ∅
    have hidx : ∀ {name : String} {idx : SecondaryIndex V},
        (indexDefs.foldl (fun m d => m.insert d.name ⟨d, ∅, ∅⟩)
          (∅ : ExtTreeMap String (SecondaryIndex V)))[name]? = some idx →
        idx.unique = ∅ ∧ idx.nonuniq = ∅ := by
      intro name idx hidx
      rw [hidxs, ExtTreeMap.getElem?_empty, Option.or_none] at hidx
      obtain ⟨d, -, rfl⟩ := Option.map_eq_some_iff.mp hidx
      exact ⟨rfl, rfl⟩
    refine ⟨⟨rfl, ?_, ?_⟩, mirrors_of_empty ?_ ?_⟩
    · cases lookupFields <;> rfl
    · intro name
      show Option.map _ (indexDefs.foldl _ ∅)[name]? = _
      rw [hidxs]
      simp [Function.comp_def]
    · intro key m huq
      cases huq with
      | primary => rfl
      | lookup hm => cases lookupFields <;> simp_all [new]
      | secondary hfnd _ => exact (hidx hfnd).1
    · rintro idx ⟨⟨name, hfnd⟩, -⟩
      exact (hidx hfnd).2

inductive Call (P V : Type)
  | op (op : Op P V)
  | restoreSnapshot (entries : List (Row V))

def perform (t : IndexedTarget V) : Call P V → IndexedTarget V
  | .op op => t.apply op
  | .restoreSnapshot entries => t.restoreSnapshot entries

/-- The call can be made with the rows as they are: an insert is of a new key, an update finds
its row and moves it only to a key that is free, and a restore has no key twice. -/
def Allowed (t : IndexedTarget V) : Call P V → Prop
  | .op (.onBaselineRow row) | .op (.onInsert row) => t.store[buildKey t.pkCols row]? = none
  | .op (.onUpdate row identity) =>
      t.store[buildKey t.pkCols (orEmpty identity)]?.isSome ∧
        (buildKey t.pkCols row = buildKey t.pkCols (orEmpty identity) ∨
          t.store[buildKey t.pkCols row]? = none)
  | .op (.onDelete _) | .op .onTruncate | .op .onBaselineComplete | .op (.setChangePosition _) =>
      True
  | .restoreSnapshot entries => (entries.map (buildKey t.pkCols)).Nodup

lemma Sound.holds_iff (h : t.Sound) {k : String} {row : Row V} :
    t.store[k]? = some row ↔ t.Holds row ∧ buildKey t.pkCols row = k := h.primary k row

lemma Sound.proper (h : t.Sound) {op : Op P V} (hallowed : t.Allowed (.op op)) :
    t.Proper (t.exchangeOf op) := by
  have hfree : ∀ {row : Row V}, t.store[buildKey t.pkCols row]? = none → ∀ other, t.Holds other →
      buildKey t.pkCols other ≠ buildKey t.pkCols row := by
    intro row hnone other hother hkey
    rw [← hkey, h.holds_iff.mpr ⟨hother, rfl⟩] at hnone
    cases hnone
  have hins : ∀ {row : Row V}, t.store[buildKey t.pkCols row]? = none →
      t.Proper ⟨none, some row⟩ := by
    intro row hnone
    refine ⟨fun _ hgoes => (Option.some_ne_none _ hgoes.symm).elim, ?_⟩
    rintro row' hrow other hother -
    cases hrow
    exact hfree hnone other hother
  cases op with
  | onBaselineRow row | onInsert row => exact hins hallowed
  | onUpdate row identity =>
    obtain ⟨-, hkey⟩ := hallowed
    refine ⟨fun old hold => ⟨_, hold⟩, ?_⟩
    rintro row' hrow other hother hstays
    cases hrow
    rcases hkey with hkey | hnone
    · rw [hkey]
      intro hsame
      exact hstays (h.holds_iff.mpr ⟨hother, hsame⟩)
    · exact hfree hnone other hother
  | onDelete identity =>
    exact ⟨fun old hold => ⟨_, hold⟩, fun _ hcomes => (Option.some_ne_none _ hcomes.symm).elim⟩
  | onBaselineComplete | setChangePosition _ | onTruncate =>
    exact ⟨fun _ hgoes => (Option.some_ne_none _ hgoes.symm).elim,
      fun _ hcomes => (Option.some_ne_none _ hcomes.symm).elim⟩

lemma mirrors_onTruncate (t : IndexedTarget V) : t.onTruncate.Mirrors := by
  have hidx : ∀ {name : String} {idx : SecondaryIndex V}, t.onTruncate.indexes[name]? = some idx →
      ∃ idx' : SecondaryIndex V, idx = idx'.clear := by
    intro name idx hidx
    rw [onTruncate, ExtTreeMap.getElem?_map] at hidx
    obtain ⟨idx', -, rfl⟩ := Option.map_eq_some_iff.mp hidx
    exact ⟨idx', rfl⟩
  refine mirrors_of_empty ?_ ?_
  · intro key m huq
    cases huq with
    | primary => rfl
    | lookup hm =>
      obtain ⟨m', -, rfl⟩ := Option.map_eq_some_iff.mp hm
      rfl
    | secondary hfnd huq =>
      obtain ⟨idx', rfl⟩ := hidx hfnd
      rw [definition_clear] at huq
      simp [SecondaryIndex.clear, huq]
  · rintro idx ⟨⟨name, hfnd⟩, huq⟩
    obtain ⟨idx', rfl⟩ := hidx hfnd
    rw [definition_clear] at huq
    simp [SecondaryIndex.clear, huq]

lemma restoreSnapshot_eq_exchanges (t : IndexedTarget V) (entries : List (Row V)) :
    t.restoreSnapshot entries =
      t.onTruncate.exchanges (entries.map fun row => ⟨none, some row⟩) := by
  rw [restoreSnapshot, exchanges, List.foldl_map]
  rfl

lemma properAlong_inserts {entries : List (Row V)} (hnd : (entries.map (buildKey t.pkCols)).Nodup)
    (hnew : ∀ row ∈ entries, t.store[buildKey t.pkCols row]? = none) (hsound : t.Sound) :
    t.ProperAlong (entries.map fun row => ⟨none, some row⟩) := by
  induction entries generalizing t with
  | nil => trivial
  | cons row entries ih =>
    rw [List.map_cons, List.nodup_cons] at hnd
    have hallowed : t.Allowed (.op (.onInsert row) : Call Unit V) := hnew row List.mem_cons_self
    have hprop : t.Proper ⟨none, some row⟩ := hsound.proper hallowed
    refine ⟨hprop, ih ?_ ?_ (hsound.exchange hprop)⟩
    · rw [pkCols_exchange]
      exact hnd.2
    · intro other hother
      have hne : buildKey t.pkCols row ≠ buildKey t.pkCols other := fun hkey =>
        hnd.1 (hkey ▸ List.mem_map_of_mem hother)
      rw [pkCols_exchange, store_exchange]
      simp [swap, getElem?_put, hne, hnew other (List.mem_cons_of_mem _ hother)]

lemma Mirrors.perform {call : Call P V} (h : t.Mirrors) (hallowed : t.Allowed call)
    (hdst : (t.perform call).Distinct) : (t.perform call).Mirrors := by
  cases call with
  | op op =>
    by_cases hop : op = .onTruncate
    · subst hop
      exact mirrors_onTruncate t
    · have happly : t.perform (.op op) = t.exchange (t.exchangeOf op) :=
        apply_eq_exchange h.keyed hop
      rw [happly] at hdst ⊢
      exact h.exchange (h.sound.proper hallowed) hdst
  | restoreSnapshot entries =>
    have hrestore : t.perform (.restoreSnapshot entries : Call P V) =
        t.onTruncate.exchanges (entries.map fun row => ⟨none, some row⟩) :=
      t.restoreSnapshot_eq_exchanges entries
    rw [hrestore] at hdst ⊢
    have hemp : ∀ k : String, t.onTruncate.store[k]? = none := fun k => by simp [onTruncate]
    have hprop := properAlong_inserts (t := t.onTruncate) hallowed (fun _ _ => hemp _)
      t.mirrors_onTruncate.sound
    refine (t.mirrors_onTruncate.exchanges_iff hprop hdst).mpr ?_
    -- nothing goes, so no entry is lost
    rintro key m - row - ⟨before, e, after, hspl, ⟨⟨x, hgoes, -⟩, -⟩, -⟩
    have hmem : e ∈ entries.map fun row => (⟨none, some row⟩ : Exchange (Row V)) := by
      rw [hspl]
      simp
    obtain ⟨entry, -, rfl⟩ := List.mem_map.mp hmem
    cases hgoes

lemma Mirrors.onInsert {row : Row V} (h : t.Mirrors)
    (hnew : t.store[buildKey t.pkCols row]? = none) (hdst : (t.onInsert row).Distinct) :
    (t.onInsert row).Mirrors := by
  have hallowed : t.Allowed (.op (.onInsert row) : Call Unit V) := hnew
  exact h.perform hallowed hdst

omit [GoValue V] in
lemma SameSetup.symm {t : IndexedTarget V} (h : t.SameSetup u) : u.SameSetup t where
  pkCols := h.pkCols.symm
  lookupFields := h.lookupFields.symm
  lookup := h.lookup.symm
  indexes name := (h.indexes name).symm

omit [GoValue V] in
lemma SameSetup.trans {t w : IndexedTarget V} (h : t.SameSetup u) (h' : u.SameSetup w) :
    t.SameSetup w where
  pkCols := h.pkCols.trans h'.pkCols
  lookupFields := h.lookupFields.trans h'.lookupFields
  lookup := h.lookup.trans h'.lookup
  indexes name := (h.indexes name).trans (h'.indexes name)

lemma SameSetup.exchanges (t : IndexedTarget V) (es : List (Exchange (Row V))) :
    (t.exchanges es).SameSetup t := by
  induction es generalizing t with
  | nil => exact ⟨rfl, rfl, rfl, fun _ => rfl⟩
  | cons e es ih => exact (ih (t.exchange e)).trans (.exchange t e)

omit [GoValue V] in
lemma SameSetup.onTruncate (t : IndexedTarget V) : t.onTruncate.SameSetup t where
  pkCols := rfl
  lookupFields := rfl
  lookup := by simp [IndexedTarget.onTruncate]
  indexes name := by
    rw [IndexedTarget.onTruncate, ExtTreeMap.getElem?_map, Option.map_map]
    simp [Function.comp_def]

lemma Mirrors.sameSetup_perform (h : t.Mirrors) (call : Call P V) :
    (t.perform call).SameSetup t := by
  cases call with
  | op op =>
    by_cases hop : op = .onTruncate
    · subst hop
      exact .onTruncate t
    · have happly : t.perform (.op op) = t.exchange (t.exchangeOf op) :=
        apply_eq_exchange h.keyed hop
      rw [happly]
      exact .exchange t _
  | restoreSnapshot entries =>
    have hrestore : t.perform (.restoreSnapshot entries : Call P V) =
        t.onTruncate.exchanges (entries.map fun row => ⟨none, some row⟩) :=
      t.restoreSnapshot_eq_exchanges entries
    rw [hrestore]
    exact (SameSetup.exchanges _ _).trans (.onTruncate t)

def AllYields (t : IndexedTarget V) (pairs : List (String × Row V)) : Prop :=
  pairs.Perm t.store.toList

/-- The target answers for its rows: every query finds the stored rows with the values it is
given, each once. -/
structure AnswersRows (t : IndexedTarget V) : Prop where
  get : ∀ pkValues row, t.get pkValues = some row ↔
    t.Holds row ∧ buildKey t.pkCols row = buildKeyFromValues pkValues
  lookup : t.lookupIndex.isSome → ∀ keyValues row, t.lookup keyValues = some row ↔
    t.Holds row ∧ buildKey t.lookupFields row = buildKeyFromValues keyValues
  lookupAll : ∀ {indexName : String} {idx : SecondaryIndex V}, t.indexes[indexName]? = some idx →
    ∀ keyValues, (t.lookupAll indexName keyValues).Nodup ∧
      ∀ row, row ∈ t.lookupAll indexName keyValues ↔
        t.Holds row ∧ buildKey idx.definition.fields row = buildKeyFromValues keyValues
  all : ∀ {pairs : List (String × Row V)}, t.AllYields pairs → pairs.Nodup ∧
    (∀ k row, (k, row) ∈ pairs ↔ t.Holds row ∧ buildKey t.pkCols row = k) ∧
    t.count = pairs.length

lemma Mirrors.answersRows (h : t.Mirrors) : t.AnswersRows where
  get pkValues row := h.unique .primary _ row
  lookup hlook keyValues row := by
    obtain ⟨m, hm⟩ := Option.isSome_iff_exists.mp hlook
    rw [IndexedTarget.lookup, hm]
    exact h.unique (.lookup hm) _ row
  lookupAll := by
    intro indexName idx hidx keyValues
    rw [IndexedTarget.lookupAll, hidx]
    cases huq : idx.definition.unique with
    | true =>
      have hfls := h.unique (.secondary hidx huq) (buildKeyFromValues keyValues)
      simp only [huq, if_true, Option.mem_toList]
      exact ⟨by cases idx.unique[buildKeyFromValues keyValues]? <;> simp, hfls⟩
    | false =>
      simp only [huq, Bool.false_eq_true, if_false]
      exact h.sound.lists ⟨⟨indexName, hidx⟩, huq⟩ _
  all := by
    intro pairs hpairs
    refine ⟨?_, fun k row => ?_, ?_⟩
    · rw [List.Perm.nodup_iff hpairs]
      exact (ExtTreeMap.map_fst_toList_eq_keys (t := t.store) ▸
        ExtTreeMap.nodup_keys (t := t.store)).of_map
    · rw [List.Perm.mem_iff hpairs, ExtTreeMap.mem_toList_iff_getElem?_eq_some]
      exact h.unique .primary k row
    · rw [List.Perm.length_eq hpairs, ExtTreeMap.length_toList]
      rfl

instance (t : IndexedTarget V) : (call : Call P V) → Decidable (t.Allowed call)
  | .op (.onBaselineRow row) | .op (.onInsert row) =>
      inferInstanceAs (Decidable (t.store[buildKey t.pkCols row]? = none))
  | .op (.onUpdate row identity) => inferInstanceAs (Decidable
      (t.store[buildKey t.pkCols (orEmpty identity)]?.isSome ∧
        (buildKey t.pkCols row = buildKey t.pkCols (orEmpty identity) ∨
          t.store[buildKey t.pkCols row]? = none)))
  | .op (.onDelete _) | .op .onTruncate | .op .onBaselineComplete | .op (.setChangePosition _) =>
      isTrue trivial
  | .restoreSnapshot entries =>
      inferInstanceAs (Decidable (entries.map (buildKey t.pkCols)).Nodup)

def Separates (key : Row V → String) (rows : List (Row V)) : Prop :=
  ∀ x ∈ rows, ∀ y ∈ rows, key x = key y → x = y

instance [DecidableEq (Row V)] (key : Row V → String) (rows : List (Row V)) :
    Decidable (Separates key rows) :=
  inferInstanceAs (Decidable (∀ x ∈ rows, ∀ y ∈ rows, key x = key y → x = y))

lemma forall_uniqueIndex_iff (t : IndexedTarget V) (p : (Row V → String) → Prop) :
    (∀ {key : Row V → String} {m : Store V}, t.UniqueIndex key m → p key) ↔
      p (buildKey t.pkCols) ∧ (t.lookupIndex.isSome → p (buildKey t.lookupFields)) ∧
        ∀ x ∈ t.indexes.toList, x.2.definition.unique = true →
          p (buildKey x.2.definition.fields) := by
  simp only [Option.isSome_iff_exists, Prod.forall, ExtTreeMap.mem_toList_iff_getElem?_eq_some]
  constructor
  · intro h
    exact ⟨h .primary, fun ⟨m, hm⟩ => h (.lookup hm),
      fun name idx hidx hu => h (.secondary hidx hu)⟩
  · rintro ⟨hprimary, hlook, hseco⟩ key m huq
    cases huq with
    | primary => exact hprimary
    | lookup hm => exact hlook ⟨m, hm⟩
    | secondary hidx hu => exact hseco _ _ hidx hu

lemma distinct_iff (t : IndexedTarget V) : t.Distinct ↔ let rows := t.store.toList.map Prod.snd
    Separates (buildKey t.pkCols) rows ∧
      (t.lookupIndex.isSome → Separates (buildKey t.lookupFields) rows) ∧
      ∀ x ∈ t.indexes.toList, x.2.definition.unique = true →
        Separates (buildKey x.2.definition.fields) rows := by
  have hrows : ∀ row, row ∈ t.store.toList.map Prod.snd ↔ t.Holds row := fun row =>
    Target.Iterates.mem_iff_exists (.refl _)
  have hkey : ∀ key : Row V → String, Separates key (t.store.toList.map Prod.snd) ↔
      Set.InjOn key {row | t.Holds row} := by
    intro key
    unfold Separates
    simp only [hrows]
    exact ⟨fun h x hx y hy => h x hx y hy, fun h x hx y hy => h hx hy⟩
  simp only [hkey]
  exact t.forall_uniqueIndex_iff fun key => Set.InjOn key {row | t.Holds row}

instance [DecidableEq (Row V)] (t : IndexedTarget V) : Decidable t.Distinct :=
  decidable_of_iff _ t.distinct_iff.symm

/-- **The indexes mirror the store**, for every configuration and calls after each of which the
stored rows have distinct lookup and unique keys: every query gives the stored rows with the given
values, each once. -/
theorem queries_find_stored_rows {lookupFields : List String} {indexDefs : List IndexDefinition}
    {columns : List ColumnDefinition} {t₀ : IndexedTarget V}
    (hinit : (new lookupFields indexDefs).onInit columns = .ok t₀) {calls : List (Call P V)}
    (hcalls : Stale.Along perform (fun t call => t.Allowed call ∧ (t.perform call).Distinct)
      t₀ calls) :
    (calls.foldl perform t₀).Configured lookupFields indexDefs ∧
      (calls.foldl perform t₀).AnswersRows := by
  obtain ⟨hcfg, hmir⟩ := onInit_new hinit
  clear hinit
  induction calls generalizing t₀ with
  | nil => exact ⟨hcfg, hmir.answersRows⟩
  | cons call calls ih =>
    obtain ⟨⟨hallowed, hdst⟩, hcalls⟩ := hcalls
    exact ih hcalls (hcfg.of_sameSetup (hmir.sameSetup_perform call)) (hmir.perform hallowed hdst)

def member (id email team badge : String) : Row Text :=
  .ofList [("id", some id), ("email", some email), ("team", some team), ("badge", some badge)]

def membersTarget : IndexedTarget Text :=
  let indexDefs : List IndexDefinition := [⟨"badge", ["badge"], true⟩, ⟨"team", ["team"], false⟩]
  { new ["email"] indexDefs with
    pkCols := ["id"]
    lookupIndex := some ∅
    indexes := indexDefs.foldl (fun m d => m.insert d.name ⟨d, ∅, ∅⟩) ∅ }

lemma onInit_membersTarget :
    (new ["email"] [⟨"badge", ["badge"], true⟩, ⟨"team", ["team"], false⟩]).onInit
      [⟨"id", true, 1⟩, ⟨"email", false, 0⟩, ⟨"team", false, 0⟩, ⟨"badge", false, 0⟩] =
      .ok membersTarget := rfl

theorem queries_find_stored_rows_run : let calls : List (Call Int Text) :=
      [.restoreSnapshot [member "1" "a" "x" "7"], .op (.onInsert (member "2" "b" "x" "8")),
        .op (.onUpdate (member "3" "c" "y" "9") (some (.ofList [("id", some "1")]))),
        .op (.onUpdate (member "2" "a" "y" "7") (some (member "2" "b" "x" "8"))),
        .op (.onDelete (some (.ofList [("id", some "2")])))]
    let t := calls.foldl perform membersTarget
    t.lookup [some "c"] = some (member "3" "c" "y" "9") ∧ t.lookup [some "a"] = none ∧
      t.lookupAll "team" [some "y"] = [member "3" "c" "y" "9"] ∧ t.AnswersRows := by
  intro calls t
  have hcalls : Stale.Along perform (fun t call => t.Allowed call ∧ (t.perform call).Distinct)
      membersTarget calls := by decide +kernel
  exact ⟨by decide +kernel, by decide +kernel, by decide +kernel,
    (queries_find_stored_rows onInit_membersTarget hcalls).2⟩

end IndexedTarget

end Laredo.Memory
