import Mathlib.Data.Set.Function
import Laredo.Lib.KeyedMap
import Laredo.Lib.Stale

/-!
# Exchange

A collection of values that are exchanged one at a time: a value goes, another one comes, and either
may be missing.
-/

universe u v

structure Exchange (α : Type v) where
  goes : Option α
  comes : Option α

namespace Exchange

variable {K : Type u} {α : Type v}

def after (holds : α → Prop) (e : Exchange α) : α → Prop :=
  fun x => holds x ∧ e.goes ≠ some x ∨ e.comes = some x

def Brings (key : α → K) (k : K) (e : Exchange α) : Prop := ∃ x, e.comes = some x ∧ key x = k

def Takes (key : α → K) (k : K) (e : Exchange α) : Prop :=
  (∃ x, e.goes = some x ∧ key x = k) ∧ ¬ e.Brings key k

lemma of_foldl_after {es : List (Exchange α)} {holds : α → Prop} {x : α}
    (h : es.foldl after holds x) : holds x ∨ ∃ e ∈ es, e.comes = some x := by
  induction es generalizing holds with
  | nil => exact .inl h
  | cons e es ih =>
    rcases ih h with (⟨hx, -⟩ | hx) | ⟨d, hd, hx⟩
    · exact .inl hx
    · exact .inr ⟨e, List.mem_cons_self, hx⟩
    · exact .inr ⟨d, List.mem_cons_of_mem _ hd, hx⟩

end Exchange

namespace KeyedMap

open Exchange (after Brings Takes)

variable {K : Type u} {α : Type v} [Ord K] [Std.TransOrd K]

def swap (key : α → K) (m : Std.ExtTreeMap K α) (e : Exchange α) : Std.ExtTreeMap K α :=
  let left := e.goes.elim m fun x => m.erase (key x)
  e.comes.elim left (put key left)

variable [Std.LawfulEqOrd K] {key : α → K} {holds : α → Prop} {m : Std.ExtTreeMap K α}
  {e : Exchange α} {k : K}

variable {x : α}

lemma getElem?_swap_of_brings (h : e.comes = some x) : (swap key m e)[key x]? = some x := by
  classical
  simp [swap, h, getElem?_put]

lemma getElem?_swap_of_takes (h : e.Takes key k) : (swap key m e)[k]? = none := by
  classical
  obtain ⟨⟨x, hx, rfl⟩, hnot⟩ := h
  cases hcomes : e.comes with
  | none => simp [swap, hx, hcomes]
  | some y =>
    have hy : key y ≠ key x := fun hy => hnot ⟨y, hcomes, hy⟩
    simp [swap, hx, hcomes, getElem?_put, hy]

lemma getElem?_swap_of_not (hbrings : ¬ e.Brings key k) (htakes : ¬ e.Takes key k) :
    (swap key m e)[k]? = m[k]? := by
  classical
  have hcomes : ∀ (m : Std.ExtTreeMap K α), (e.comes.elim m (put key m))[k]? = m[k]? := by
    intro m
    cases hcomes : e.comes with
    | none => rfl
    | some y =>
      have hy : key y ≠ k := fun hy => hbrings ⟨y, hcomes, hy⟩
      simp [getElem?_put, hy]
  rw [swap, hcomes]
  cases hgoes : e.goes with
  | none => rfl
  | some x =>
    have hx : key x ≠ k := fun hx => htakes ⟨⟨x, hgoes, hx⟩, hbrings⟩
    simp [getElem?_erase, hx]

lemma swap_eq_put {y : α} (h : key x = key y) : swap key m ⟨some x, some y⟩ = put key m y := by
  classical
  refine Std.ExtTreeMap.ext_getElem? fun k => ?_
  by_cases hk : key y = k
  · simp [swap, getElem?_put, hk]
  · simp [swap, getElem?_put, getElem?_erase, h, hk]

def Finds (key : α → K) (holds : α → Prop) (m : Std.ExtTreeMap K α) : Prop :=
  ∀ (k : K) (x : α), m[k]? = some x → holds x ∧ key x = k

omit [Std.LawfulEqOrd K] in
lemma Files.finds (h : Files key holds m) : Finds key holds m := fun k x => (h k x).mp

omit [Std.LawfulEqOrd K] in
lemma Files.injective (h : Files key holds m) {y : α} (hx : holds x) (hy : holds y)
    (hxy : key x = key y) : x = y := by
  have hfnd := (h (key x) x).mpr ⟨hx, rfl⟩
  rw [(h (key x) y).mpr ⟨hy, hxy.symm⟩] at hfnd
  exact (Option.some.inj hfnd).symm

omit [Std.LawfulEqOrd K] in
lemma Finds.files_iff (h : Finds key holds m) (hinj : Set.InjOn key {x | holds x}) :
    Files key holds m ↔ ∀ x, holds x → m[key x]?.isSome := by
  constructor
  · intro hfls x hx
    rw [(hfls (key x) x).mpr ⟨hx, rfl⟩]
    rfl
  · refine fun hall k x => ⟨h k x, ?_⟩
    rintro ⟨hx, rfl⟩
    obtain ⟨y, hy⟩ := Option.isSome_iff_exists.mp (hall x hx)
    obtain ⟨hhld, hkey⟩ := h _ _ hy
    rw [hy, hinj hhld hx hkey]

lemma Finds.swap (h : Finds key holds m) (e : Exchange α) :
    Finds key (e.after holds) (swap key m e) := by
  intro k x hx
  by_cases hbrings : e.Brings key k
  · obtain ⟨y, hcomes, rfl⟩ := hbrings
    rw [getElem?_swap_of_brings hcomes] at hx
    cases hx
    exact ⟨.inr hcomes, rfl⟩
  · by_cases htakes : e.Takes key k
    · rw [getElem?_swap_of_takes htakes] at hx
      cases hx
    · rw [getElem?_swap_of_not hbrings htakes] at hx
      obtain ⟨hhld, hkey⟩ := h k x hx
      exact ⟨.inl ⟨hhld, fun hgoes => htakes ⟨⟨x, hgoes, hkey⟩, hbrings⟩⟩, hkey⟩

lemma Finds.swaps (h : Finds key holds m) (es : List (Exchange α)) :
    Finds key (es.foldl after holds) (es.foldl (KeyedMap.swap key) m) := by
  induction es generalizing holds m with
  | nil => exact h
  | cons e es ih => exact ih (h.swap e)

lemma Files.swap (h : Files key holds m) (hgoes : ∀ x, e.goes = some x → holds x)
    (hinj : Set.InjOn key {x | e.after holds x}) : Files key (e.after holds) (swap key m e) := by
  refine ((h.finds.swap e).files_iff hinj).mpr ?_
  rintro x (⟨hx, hstays⟩ | hcomes)
  · by_cases hbrings : e.Brings key (key x)
    · obtain ⟨y, hcomes, hy⟩ := hbrings
      rw [← hy, getElem?_swap_of_brings hcomes]
      rfl
    · have htakes : ¬ e.Takes key (key x) := by
        rintro ⟨⟨y, hy, hkey⟩, -⟩
        exact hstays (h.injective (hgoes y hy) hx hkey ▸ hy)
      rw [getElem?_swap_of_not hbrings htakes, (h _ _).mpr ⟨hx, rfl⟩]
      rfl
  · rw [getElem?_swap_of_brings hcomes]
    rfl

lemma swap_acts (key : α → K) (k : K) :
    Stale.Acts (swap key) (fun _ _ => True) (fun m => m[k]?.isSome = true)
      (fun m => m[k]? = none) (Takes key k) (Brings key k) where
  apart m hnone hsome := by rw [hnone] at hsome; cases hsome
  exclusive e htakes hbrings := htakes.2 hbrings
  touch m e _ _ hbrings := by
    obtain ⟨x, hcomes, rfl⟩ := hbrings
    rw [getElem?_swap_of_brings hcomes]
    rfl
  spoil m e _ _ htakes := getElem?_swap_of_takes htakes
  right m e _ hsome hbrings htakes := by rwa [getElem?_swap_of_not hbrings htakes]
  stale m e _ hnone hbrings := by
    by_cases htakes : e.Takes key k
    · exact getElem?_swap_of_takes htakes
    · rwa [getElem?_swap_of_not hbrings htakes]

lemma Files.swaps_iff (h : Files key holds m) {es : List (Exchange α)}
    (hinj : Set.InjOn key {x | es.foldl after holds x}) :
    Files key (es.foldl after holds) (es.foldl (KeyedMap.swap key) m) ↔
      ∀ x, es.foldl after holds x → ¬ Stale.Left (Takes key (key x)) (Brings key (key x)) es := by
  rw [(h.finds.swaps es).files_iff hinj]
  refine forall₂_congr fun x hx => ?_
  have hal : ∀ (m : Std.ExtTreeMap K α) (es : List (Exchange α)),
      Stale.Along (KeyedMap.swap key) (fun _ _ => True) m es := by
    intro m es
    induction es generalizing m with
    | nil => trivial
    | cons e es ih => exact ⟨trivial, ih _⟩
  have hst0 : m[key x]?.isSome = true ∨ m[key x]? = none := by cases m[key x]? <;> simp
  rw [((swap_acts key (key x)).run (hal m es) hst0).2, and_iff_left]
  -- the value was filed at the start, or has come
  rcases Exchange.of_foldl_after hx with hx | ⟨e, he, hcomes⟩
  · rw [(h _ _).mpr ⟨hx, rfl⟩]
    exact .inl rfl
  · exact .inr ⟨e, he, x, hcomes, rfl⟩

def Lists (key : α → K) (holds : α → Prop) (m : Std.ExtTreeMap K (List α)) : Prop :=
  ∀ k, (m.getD k []).Nodup ∧ ∀ x, x ∈ m.getD k [] ↔ holds x ∧ key x = k

variable {I : Type*} [DecidableEq I]

/-- The list of the key of `x` without the values with the identity of `x`; a key with no values
has no entry. -/
def cut (key : α → K) (ident : α → I) (m : Std.ExtTreeMap K (List α)) (x : α) :
    Std.ExtTreeMap K (List α) :=
  let rest := (m.getD (key x) []).filter fun y => ident y != ident x
  if rest.isEmpty then m.erase (key x) else m.insert (key x) rest

def swapLists (key : α → K) (ident : α → I) (m : Std.ExtTreeMap K (List α)) (e : Exchange α) :
    Std.ExtTreeMap K (List α) :=
  let left := e.goes.elim m (cut key ident m)
  e.comes.elim left (push key left)

variable {ident : α → I} {lists : Std.ExtTreeMap K (List α)}

lemma getD_cut [DecidableEq K] (x : α) (k : K) : (cut key ident lists x).getD k [] =
    if key x = k then (lists.getD k []).filter (fun y => ident y != ident x)
    else lists.getD k [] := by
  unfold cut
  dsimp only
  split
  · next hemp =>
      rw [Std.ExtTreeMap.getD_erase]
      by_cases hk : key x = k
      · subst hk
        simpa using hemp
      · simp [hk]
  · rw [Std.ExtTreeMap.getD_insert]
    by_cases hk : key x = k
    · subst hk
      simp
    · simp [hk]

lemma Lists.cut (h : Lists key holds lists) (hx : holds x)
    (hident : Set.InjOn ident {y | holds y}) :
    Lists key (fun y => holds y ∧ y ≠ x) (cut key ident lists x) := by
  classical
  intro k
  obtain ⟨hnd, hmem⟩ := h k
  rw [getD_cut]
  by_cases hk : key x = k
  · rw [if_pos hk]
    refine ⟨hnd.filter _, fun y => ?_⟩
    rw [List.mem_filter, hmem, bne_iff_ne]
    constructor
    · rintro ⟨⟨hy, hyk⟩, hne⟩
      exact ⟨⟨hy, fun hyx => hne (congrArg ident hyx)⟩, hyk⟩
    · rintro ⟨⟨hy, hne⟩, hyk⟩
      exact ⟨⟨hy, hyk⟩, fun hid => hne (hident hy hx hid)⟩
  · rw [if_neg hk]
    refine ⟨hnd, fun y => ?_⟩
    rw [hmem]
    constructor
    · rintro ⟨hy, hyk⟩
      exact ⟨⟨hy, fun hyx => hk (hyx ▸ hyk)⟩, hyk⟩
    · rintro ⟨⟨hy, -⟩, hyk⟩
      exact ⟨hy, hyk⟩

lemma Lists.push (h : Lists key holds lists) (hx : ¬ holds x) :
    Lists key (fun y => holds y ∨ y = x) (push key lists x) := by
  classical
  intro k
  obtain ⟨hnd, hmem⟩ := h k
  have hpush := getD_foldl_push key lists [x] k
  rw [List.foldl_cons, List.foldl_nil] at hpush
  rw [hpush]
  by_cases hk : key x = k
  · subst hk
    have hnew : x ∉ lists.getD (key x) [] := fun hold => hx ((hmem x).mp hold).1
    refine ⟨?_, fun y => ?_⟩
    · simpa [List.nodup_append] using ⟨hnd, fun y hy hyx => hnew (hyx ▸ hy)⟩
    · rw [List.filter_singleton, decide_eq_true rfl, cond_true, List.mem_append,
        List.mem_singleton, hmem]
      constructor
      · rintro (⟨hy, hyk⟩ | rfl)
        · exact ⟨.inl hy, hyk⟩
        · exact ⟨.inr rfl, rfl⟩
      · rintro ⟨hy | rfl, hyk⟩
        · exact .inl ⟨hy, hyk⟩
        · exact .inr rfl
  · rw [List.filter_singleton, decide_eq_false hk, cond_false, List.append_nil]
    refine ⟨hnd, fun y => ?_⟩
    rw [hmem]
    refine ⟨fun hy => ⟨.inl hy.1, hy.2⟩, ?_⟩
    rintro ⟨hy | rfl, hyk⟩
    · exact ⟨hy, hyk⟩
    · exact absurd hyk hk

lemma Lists.swap (h : Lists key holds lists) (hgoes : ∀ x, e.goes = some x → holds x)
    (hident : Set.InjOn ident {y | holds y})
    (hcomes : ∀ x, e.comes = some x → holds x → e.goes = some x) :
    Lists key (e.after holds) (swapLists key ident lists e) := by
  have hleft : Lists key (fun y => holds y ∧ e.goes ≠ some y)
      (e.goes.elim lists (KeyedMap.cut key ident lists)) := by
    cases hg : e.goes with
    | none => simpa using h
    | some x => simpa [eq_comm] using h.cut (hgoes x hg) hident
  unfold swapLists Exchange.after
  cases hc : e.comes with
  | none => simpa using hleft
  | some x =>
    have hnew := hleft.push (x := x) fun hx => hx.2 (hcomes x hc hx.1)
    simpa [eq_comm] using hnew

end KeyedMap
