import Mathlib.Data.List.Nodup

/-!
# Keyed map

Finite maps whose values determine their own key: a table of rows indexed by a key computed from the
row.
-/

universe u v

namespace KeyedMap

open Std List Option ExtTreeMap

variable {K : Type u} {α : Type v} [Ord K] [Std.TransOrd K] (key : α → K)

def Keyed (m : ExtTreeMap K α) : Prop := ∀ (k : K) (x : α), m[k]? = some x → key x = k

def put (m : ExtTreeMap K α) (x : α) : ExtTreeMap K α := m.insert (key x) x

def load (m : ExtTreeMap K α) (xs : List α) : ExtTreeMap K α := xs.foldl (put key) m

variable {key} {m : ExtTreeMap K α}

@[simp] lemma load_nil : load key m [] = m := rfl

@[simp] lemma load_cons (x : α) (xs : List α) :
    load key m (x :: xs) = load key (put key m x) xs := rfl

lemma load_append (xs ys : List α) :
    load key m (xs ++ ys) = load key (load key m xs) ys := foldl_append

lemma Keyed.empty : Keyed key (∅ : ExtTreeMap K α) := by
  intro k x hx
  simp at hx

variable [Std.LawfulEqOrd K]

lemma getElem?_put [DecidableEq K] (x : α) (k : K) :
    (put key m x)[k]? = if key x = k then some x else m[k]? := by
  rw [put, ExtTreeMap.getElem?_insert]
  simp only [Std.LawfulEqOrd.compare_eq_iff_eq]

lemma put_put (x : α) : put key (put key m x) x = put key m x := by
  classical
  refine ExtTreeMap.ext_getElem? fun k => ?_
  by_cases hk : key x = k <;> simp [getElem?_put, hk]

lemma getElem?_erase [DecidableEq K] (k a : K) :
    (m.erase k)[a]? = if k = a then none else m[a]? := by
  rw [ExtTreeMap.getElem?_erase]
  simp only [Std.LawfulEqOrd.compare_eq_iff_eq]

lemma getElem?_insertIfNew [DecidableEq K] (k : K) (x : α) (a : K) :
    (m.insertIfNew k x)[a]? = m[a]?.or (if k = a then some x else none) := by
  rw [ExtTreeMap.getElem?_insertIfNew]
  simp only [Std.LawfulEqOrd.compare_eq_iff_eq]
  by_cases hk : k = a
  · subst hk
    by_cases hmem : k ∈ m
    · rw [if_neg (by simp [hmem]), getElem?_eq_some_getElem hmem]
      rfl
    · rw [if_pos ⟨rfl, hmem⟩, ExtTreeMap.getElem?_eq_none hmem, if_pos rfl]
      rfl
  · rw [if_neg fun h => hk h.1, if_neg hk, or_none]

variable {k : K}

lemma erase_eq_of_none (h : m[k]? = none) : m.erase k = m := by
  classical
  refine ExtTreeMap.ext_getElem? fun a => ?_
  rw [getElem?_erase]
  by_cases hk : k = a
  · rw [if_pos hk, ← hk, h]
  · rw [if_neg hk]

lemma erase_eq_erase_iff {k' : K} :
    m.erase k = m.erase k' ↔ k' = k ∨ m[k]? = none ∧ m[k']? = none := by
  classical
  constructor
  · intro heq
    by_cases hk : k' = k
    · exact .inl hk
    · have hat : ∀ a : K, (m.erase k)[a]? = (m.erase k')[a]? := fun a => by rw [heq]
      have hleft := hat k
      have hright := hat k'
      rw [getElem?_erase, getElem?_erase, if_pos rfl, if_neg hk] at hleft
      rw [getElem?_erase, getElem?_erase, if_pos rfl, if_neg fun h => hk h.symm] at hright
      exact .inr ⟨hleft.symm, hright⟩
  · rintro (rfl | ⟨hk, hk'⟩)
    · rfl
    · rw [erase_eq_of_none hk, erase_eq_of_none hk']

lemma insert_erase_eq_iff {k' : K} {x : α} :
    (m.erase k).insert k x = (m.erase k').insert k x ↔ k' = k ∨ m[k']? = none := by
  classical
  constructor
  · intro heq
    by_cases hk : k' = k
    · exact .inl hk
    · have hat : ((m.erase k).insert k x)[k']? = ((m.erase k').insert k x)[k']? := by rw [heq]
      have hne : k ≠ k' := fun h => hk h.symm
      exact .inr (by
        simpa [ExtTreeMap.getElem?_insert, ExtTreeMap.getElem?_erase, hne] using hat)
  · rintro (rfl | hk')
    · rfl
    · refine ExtTreeMap.ext_getElem? fun a => ?_
      rw [erase_eq_of_none hk']
      by_cases hk : k = a <;>
        simp [ExtTreeMap.getElem?_insert, ExtTreeMap.getElem?_erase, hk]

lemma Keyed.put (h : Keyed key m) (x : α) : Keyed key (put key m x) := by
  classical
  intro k y hy
  rw [getElem?_put] at hy
  by_cases hk : key x = k
  · rw [if_pos hk] at hy
    exact some.inj hy ▸ hk
  · rw [if_neg hk] at hy
    exact h k y hy

lemma Keyed.load (h : Keyed key m) (xs : List α) : Keyed key (load key m xs) := by
  induction xs generalizing m with
  | nil => exact h
  | cons x xs ih => exact ih (h.put x)

lemma Keyed.erase (h : Keyed key m) (k : K) : Keyed key (m.erase k) := by
  classical
  intro a x hx
  rw [getElem?_erase] at hx
  by_cases hk : k = a
  · rw [if_pos hk] at hx
    exact absurd hx (by simp)
  · rw [if_neg hk] at hx
    exact h a x hx

variable {xs : List α}

lemma load_eq {m' : ExtTreeMap K α}
    (hst0 : ∀ (k : K) (x : α), m[k]? = some x → m'[k]? = some x)
    (hlist : ∀ x ∈ xs, m'[key x]? = some x)
    (hcover : ∀ (k : K) (x : α), m'[k]? = some x → x ∈ xs ∨ m[k]? = some x)
    (hkd : Keyed key m') : load key m xs = m' := by
  classical
  induction xs generalizing m with
  | nil =>
    refine ExtTreeMap.ext_getElem? fun k => ?_
    cases hk : m'[k]? with
    | some x => exact (hcover k x hk).resolve_left (by simp)
    | none =>
      cases hm : m[k]? with
      | none => exact hm
      | some x => rw [hst0 k x hm] at hk; cases hk
  | cons x xs ih =>
    refine ih ?_ (fun y hy => hlist y (mem_cons_of_mem _ hy)) ?_
    · intro k y hy
      rw [getElem?_put] at hy
      by_cases hk : key x = k
      · rw [if_pos hk] at hy
        cases hy
        exact hk ▸ hlist x mem_cons_self
      · rw [if_neg hk] at hy
        exact hst0 k y hy
    · intro k y hy
      rw [getElem?_put]
      rcases hcover k y hy with hmem | hm
      · rcases mem_cons.mp hmem with rfl | htail
        · exact Or.inr (if_pos (hkd k y hy))
        · exact Or.inl htail
      · by_cases hk : key x = k
        · -- the key of `x` holds `x` in `m'`, so `y` is `x`
          have hx := hlist x mem_cons_self
          rw [hk, hy] at hx
          exact Or.inr ((if_pos hk).trans hx.symm)
        · exact Or.inr ((if_neg hk).trans hm)

lemma mem_values (hkd : Keyed key m)
    (hxs : xs.Perm (m.toList.map Prod.snd)) (x : α) : x ∈ xs ↔ m[key x]? = some x := by
  rw [hxs.mem_iff, List.mem_map]
  constructor
  · rintro ⟨⟨k, y⟩, hky, rfl⟩
    have hk := mem_toList_iff_getElem?_eq_some.mp hky
    rwa [hkd k y hk]
  · intro hx
    exact ⟨(key x, x), mem_toList_iff_getElem?_eq_some.mpr hx, rfl⟩

lemma nodup_keys_of_values (hkd : Keyed key m)
    (hxs : xs.Perm (m.toList.map Prod.snd)) : (xs.map key).Nodup := by
  have hfst : (m.toList.map Prod.snd).map key = m.toList.map Prod.fst := by
    rw [List.map_map]
    refine map_congr_left fun c hc => ?_
    exact hkd c.1 c.2 (mem_toList_iff_getElem?_eq_some.mp hc)
  rw [(hxs.map key).nodup_iff, hfst, map_fst_toList_eq_keys]
  exact nodup_keys

lemma perm_values (hkd : Keyed key m) (hnd : (xs.map key).Nodup)
    (hmem : ∀ x, x ∈ xs ↔ m[key x]? = some x) : xs.Perm (m.toList.map Prod.snd) := by
  have hvals := nodup_keys_of_values hkd (List.Perm.refl (m.toList.map Prod.snd))
  refine (perm_ext_iff_of_nodup (List.Nodup.of_map _ hnd)
    (List.Nodup.of_map _ hvals)).mpr fun x => ?_
  rw [hmem, mem_values hkd (List.Perm.refl _)]

lemma load_values (hkd : Keyed key m)
    (hxs : xs.Perm (m.toList.map Prod.snd)) : load key ∅ xs = m := by
  refine load_eq (fun k x hx => by simp at hx) ?_ ?_ hkd
  · intro x hx
    exact (mem_values hkd hxs x).mp hx
  · intro k x hx
    refine .inl ((mem_values hkd hxs x).mpr ?_)
    rwa [hkd k x hx]

lemma getElem?_load (key : α → K) (m : ExtTreeMap K α) (xs : List α) (k : K) :
    (∃ x ∈ xs, key x = k ∧ (load key m xs)[k]? = some x) ∨
      (∀ x ∈ xs, key x ≠ k) ∧ (load key m xs)[k]? = m[k]? := by
  classical
  induction xs generalizing m with
  | nil => exact .inr ⟨by simp, rfl⟩
  | cons x xs ih =>
    rw [load_cons]
    rcases ih (put key m x) with ⟨y, hy, hkey, hload⟩ | ⟨hnone, hload⟩
    · exact .inl ⟨y, mem_cons_of_mem _ hy, hkey, hload⟩
    · rw [getElem?_put] at hload
      by_cases hk : key x = k
      · exact .inl ⟨x, mem_cons_self, hk, hload.trans (if_pos hk)⟩
      · refine .inr ⟨fun y hy => ?_, hload.trans (if_neg hk)⟩
        rcases mem_cons.mp hy with rfl | htail
        · exact hk
        · exact hnone y htail

lemma load_exact_iff (hkd : Keyed key m) (xs : List α) :
    (∀ x, (∃ k : K, (load key m xs)[k]? = some x) ↔ x ∈ xs) ↔
      (∀ (k : K) (x : α), m[k]? = some x → ∃ y ∈ xs, key y = k) ∧
        ∀ x ∈ xs, ∀ y ∈ xs, key x = key y → x = y := by
  constructor
  · intro hexact
    refine ⟨fun k x hx => ?_, fun x hx y hy hxy => ?_⟩
    · rcases getElem?_load key m xs k with ⟨y, hy, hkey, -⟩ | ⟨-, hload⟩
      · exact ⟨y, hy, hkey⟩
      · exact ⟨x, (hexact x).mp ⟨k, hload.trans hx⟩, hkd k x hx⟩
    · -- both sit under their key, which is the same one
      have hat : ∀ z ∈ xs, (load key m xs)[key z]? = some z := by
        intro z hz
        obtain ⟨k, hk⟩ := (hexact z).mpr hz
        rwa [(hkd.load xs) k z hk]
      have hx' := hat x hx
      rw [hxy, hat y hy] at hx'
      exact (some.inj hx').symm
  · rintro ⟨hfld, hinj⟩ x
    constructor
    · rintro ⟨k, hk⟩
      rcases getElem?_load key m xs k with ⟨y, hy, -, hload⟩ | ⟨hnone, hload⟩
      · rw [hload] at hk
        exact some.inj hk ▸ hy
      · obtain ⟨y, hy, hkey⟩ := hfld k x (hload.symm.trans hk)
        exact absurd hkey (hnone y hy)
    · intro hx
      refine ⟨key x, ?_⟩
      rcases getElem?_load key m xs (key x) with ⟨y, hy, hkey, hload⟩ | ⟨hnone, -⟩
      · rw [hload, hinj y hy x hx hkey]
      · exact absurd rfl (hnone x hx)

lemma perm_load (hnd : (xs.map key).Nodup) :
    xs.Perm ((load key ∅ xs).toList.map Prod.snd) := by
  have hkd : Keyed key (load key ∅ xs) := Keyed.empty.load xs
  have hexact := (load_exact_iff Keyed.empty xs).2
    ⟨by simp, fun x hx y hy => inj_on_of_nodup_map hnd hx hy⟩
  refine perm_values hkd hnd fun x => ⟨fun hx => ?_, fun hx => (hexact x).1 ⟨_, hx⟩⟩
  obtain ⟨k, hk⟩ := (hexact x).2 hx
  rwa [hkd k x hk]

/-- The last value of a list under a key. -/
def lastWith [DecidableEq K] (key : α → K) (xs : List α) (k : K) : Option α :=
  (xs.filter fun x => decide (key x = k)).getLast?

lemma getElem?_load_eq [DecidableEq K] (key : α → K) (m : ExtTreeMap K α) (xs : List α)
    (k : K) : (load key m xs)[k]? = (lastWith key xs k).or m[k]? := by
  induction xs generalizing m with
  | nil => rfl
  | cons x xs ih =>
    rw [load_cons, ih, getElem?_put, lastWith, lastWith]
    by_cases hk : key x = k
    · simp only [hk, if_true, decide_true, filter_cons_of_pos, getLast?_cons]
      cases (xs.filter fun x => decide (key x = k)).getLast? <;> rfl
    · simp [hk]

lemma getElem?_load_empty [DecidableEq K] (key : α → K) (xs : List α) (k : K) :
    (load key ∅ xs)[k]? = lastWith key xs k := by
  simp [getElem?_load_eq]

/-! ### Maps of a collection

A collection may be filed under several keys at once, as a table is by its indexes. -/

def Files (key : α → K) (holds : α → Prop) (m : ExtTreeMap K α) : Prop :=
  ∀ (k : K) (x : α), m[k]? = some x ↔ holds x ∧ key x = k

def EndsIn (key : α → K) (holds : α → Prop) (xs : List α) : Prop :=
  ∀ before x after, xs = before ++ x :: after → ∃ y ∈ x :: after, holds y ∧ key y = key x

variable {holds : α → Prop}

omit [Ord K] [Std.TransOrd K] [Std.LawfulEqOrd K] in
lemma EndsIn.of_forall (h : ∀ x ∈ xs, holds x) : EndsIn key holds xs := by
  rintro before x after rfl
  exact ⟨x, mem_cons_self, h x (by simp), rfl⟩

omit [Ord K] [Std.TransOrd K] [Std.LawfulEqOrd K] in
lemma exists_last (key : α → K) (h : ∃ x ∈ xs, key x = k) :
    ∃ before x after, xs = before ++ x :: after ∧ key x = k ∧ ∀ y ∈ after, key y ≠ k := by
  induction xs with
  | nil => simp at h
  | cons x xs ih =>
    by_cases htail : ∃ y ∈ xs, key y = k
    · obtain ⟨before, y, after, rfl, hy, haft⟩ := ih htail
      exact ⟨x :: before, y, after, rfl, hy, haft⟩
    · obtain ⟨y, hy, hkey⟩ := h
      rcases mem_cons.mp hy with rfl | hy
      · exact ⟨[], y, xs, rfl, hkey, fun z hz hzk => htail ⟨z, hz, hzk⟩⟩
      · exact absurd ⟨y, hy, hkey⟩ htail

lemma getElem?_load_of_split (key : α → K) (m : ExtTreeMap K α) (bef after : List α)
    (x : α) : ∃ y ∈ x :: after, key y = key x ∧
      (load key m (bef ++ x :: after))[key x]? = some y := by
  rw [load_append]
  refine (getElem?_load key _ (x :: after) (key x)).resolve_right fun hnone => ?_
  exact hnone.1 x mem_cons_self rfl

lemma Files.endsIn_iff (h : Files key holds m) (xs : List α) :
    (∀ x ∈ xs, (load key ∅ xs)[key x]? = m[key x]?) ↔ EndsIn key holds xs := by
  constructor
  · rintro hall before x after rfl
    obtain ⟨y, hy, hkey, hload⟩ := getElem?_load_of_split key ∅ before after x
    rw [hall x (by simp)] at hload
    exact ⟨y, hy, (h _ _).mp hload⟩
  · intro hend x hx
    obtain ⟨before, y, after, rfl, hy, haft⟩ := exists_last key ⟨x, hx, rfl⟩
    -- behind the last value with the key of `x` there is only that value itself
    have honly : ∀ z ∈ y :: after, key z = key x → z = y := by
      intro z hz hzk
      rcases mem_cons.mp hz with rfl | hz
      · rfl
      · exact absurd hzk (haft z hz)
    obtain ⟨z, hz, hzk, hload⟩ := getElem?_load_of_split key ∅ before after y
    obtain ⟨w, hw, hhld, hwk⟩ := hend before y after rfl
    rw [hy] at hzk hwk hload
    obtain rfl := honly z hz hzk
    obtain rfl := honly w hw hwk
    exact hload.trans ((h _ _).mpr ⟨hhld, hy⟩).symm

lemma Files.load_eq (h : Files key holds m)
    (hsub : ∀ x, holds x → x ∈ xs) (hend : EndsIn key holds xs) : load key ∅ xs = m := by
  refine ExtTreeMap.ext_getElem? fun k => ?_
  rcases getElem?_load key ∅ xs k with ⟨x, hx, rfl, -⟩ | ⟨hnone, hload⟩
  · exact (h.endsIn_iff xs).mpr hend x hx
  · rw [hload]
    cases hm : m[k]? with
    | none => simp
    | some x =>
      obtain ⟨hhld, hkey⟩ := (h k x).mp hm
      exact absurd hkey (hnone x (hsub x hhld))

omit [Std.LawfulEqOrd K] in
lemma Keyed.files (h : Keyed key m) : Files key (fun x => ∃ k : K, m[k]? = some x) m := by
  refine fun k x => ⟨fun hx => ⟨⟨k, hx⟩, h k x hx⟩, ?_⟩
  rintro ⟨⟨k', hx⟩, rfl⟩
  rwa [h k' x hx]

def push (key : α → K) (m : ExtTreeMap K (List α)) (x : α) : ExtTreeMap K (List α) :=
  m.insert (key x) (m.getD (key x) [] ++ [x])

lemma getD_foldl_push [DecidableEq K] (key : α → K) (m : ExtTreeMap K (List α)) (xs : List α)
    (k : K) : (xs.foldl (push key) m).getD k [] =
      m.getD k [] ++ xs.filter (fun x => decide (key x = k)) := by
  induction xs generalizing m with
  | nil => simp
  | cons x xs ih =>
    rw [foldl_cons, ih, push, getD_insert]
    by_cases hk : key x = k
    · simp [hk]
    · simp [hk]

lemma mem_put {x : α} : k ∈ put key m x ↔ key x = k ∨ k ∈ m := by
  rw [put, mem_insert, Std.LawfulEqOrd.compare_eq_iff_eq]

omit [Std.LawfulEqOrd K] in
lemma size_put (key : α → K) (m : ExtTreeMap K α) (x : α) :
    (put key m x).size = if key x ∈ m then m.size else m.size + 1 :=
  size_insert

omit [Std.LawfulEqOrd K] in
lemma size_erase (h : k ∈ m) : (m.erase k).size + 1 = m.size := by
  have hpos : m.size ≠ 0 := by
    intro hzero
    rw [← eq_empty_iff_size_eq_zero] at hzero
    exact not_mem_empty (hzero ▸ h)
  rw [ExtTreeMap.size_erase, if_pos (ExtTreeMap.contains_iff_mem.mpr h)]
  omega

omit [Std.LawfulEqOrd K] in
lemma size_load_le (key : α → K) (m : ExtTreeMap K α) (xs : List α) :
    (load key m xs).size ≤ m.size + xs.length := by
  induction xs generalizing m with
  | nil => exact Nat.le_refl _
  | cons x xs ih =>
    have hput := size_put key m x
    have hload := ih (put key m x)
    rw [load_cons, length_cons]
    split at hput <;> omega

lemma size_load_eq_iff (key : α → K) (m : ExtTreeMap K α) (xs : List α) :
    (load key m xs).size = m.size + xs.length ↔ (xs.map key).Nodup ∧ ∀ x ∈ xs, key x ∉ m := by
  induction xs generalizing m with
  | nil => simp
  | cons x xs ih =>
    have hput := size_put key m x
    have hle := size_load_le key (put key m x) xs
    rw [load_cons, length_cons, map_cons, nodup_cons]
    by_cases hx : key x ∈ m
    · rw [if_pos hx] at hput
      exact iff_of_false (by omega) fun h => h.2 x mem_cons_self hx
    · rw [if_neg hx] at hput
      have hrest := ih (put key m x)
      rw [hput] at hrest
      rw [show m.size + (xs.length + 1) = m.size + 1 + xs.length by omega, hrest]
      simp only [mem_put, not_or, List.mem_map, mem_cons, forall_eq_or_imp]
      grind

end KeyedMap
