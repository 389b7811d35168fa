import Laredo.Lib.KeyedMap

/-!
# Slice

A **slice** of a keyed map is the part of it whose values pass a test. Who wants the slice is sent
the edits that concern it.
-/

universe u v w

namespace Slice

open Std List Option KeyedMap

variable {K : Type u} {α : Type v} {β : Type w} [Ord K] [Std.TransOrd K]

inductive Edit (α : Type v)
  | put (x : α)
  | remove (x : α)
  | clear
  | skip

def Edit.apply (key : α → K) (m : ExtTreeMap K α) : Edit α → ExtTreeMap K α
  | .put x => KeyedMap.put key m x
  | .remove x => m.erase (key x)
  | .clear => ∅
  | .skip => m

def replay (key : α → K) (edit : β → Edit α) (m : ExtTreeMap K α) (bs : List β) :
    ExtTreeMap K α :=
  bs.foldl (fun m b => (edit b).apply key m) m

def slice (ok : α → Bool) (m : ExtTreeMap K α) : ExtTreeMap K α :=
  m.filter fun _ x => ok x

structure Judges (ok : α → Bool) (edit : β → Edit α) (passes : β → Bool) : Prop where
  put : ∀ b x, edit b = .put x → passes b = ok x
  remove : ∀ b x, edit b = .remove x → passes b = ok x
  clear : ∀ b, edit b = .clear → passes b = true

def Edit.Stable (key : α → K) (ok : α → Bool) (m : ExtTreeMap K α) : Edit α → Prop
  | .put x => ∀ y, m[key x]? = some y → ok y = ok x
  | _ => True

def Edit.Truthful (key : α → K) (ok : α → Bool) (m : ExtTreeMap K α) : Edit α → Prop
  | .remove x => ∀ y, m[key x]? = some y → ok y = true → ok x = true
  | _ => True

def Along (key : α → K) (edit : β → Edit α) (C : ExtTreeMap K α → Edit α → Prop) :
    ExtTreeMap K α → List β → Prop
  | _, [] => True
  | m, b :: bs => C m (edit b) ∧ Along key edit C ((edit b).apply key m) bs

instance (key : α → K) (ok : α → Bool) (m : ExtTreeMap K α) :
    (e : Edit α) → Decidable (e.Stable key ok m)
  | .put x => inferInstanceAs (Decidable (∀ y, m[key x]? = some y → ok y = ok x))
  | .remove _ | .clear | .skip => isTrue trivial

instance (key : α → K) (ok : α → Bool) (m : ExtTreeMap K α) :
    (e : Edit α) → Decidable (e.Truthful key ok m)
  | .remove x =>
      inferInstanceAs (Decidable (∀ y, m[key x]? = some y → ok y = true → ok x = true))
  | .put _ | .clear | .skip => isTrue trivial

instance Along.decide (key : α → K) (edit : β → Edit α)
    (C : ExtTreeMap K α → Edit α → Prop) [∀ m e, Decidable (C m e)] :
    ∀ (m : ExtTreeMap K α) (bs : List β), Decidable (Along key edit C m bs)
  | _, [] => isTrue trivial
  | m, b :: bs =>
      have := Along.decide key edit C ((edit b).apply key m) bs
      inferInstanceAs (Decidable (_ ∧ _))

variable {key : α → K} {ok : α → Bool} {edit : β → Edit α} {passes : β → Bool}
variable {C : ExtTreeMap K α → Edit α → Prop} {m : ExtTreeMap K α}

@[simp] lemma replay_nil : replay key edit m [] = m := rfl

@[simp] lemma replay_cons (b : β) (bs : List β) :
    replay key edit m (b :: bs) = replay key edit ((edit b).apply key m) bs := rfl

lemma replay_append (bs bs' : List β) :
    replay key edit m (bs ++ bs') = replay key edit (replay key edit m bs) bs' := by
  simp [replay, foldl_append]

variable {bs : List β}

lemma Along.append {bs' : List β} : Along key edit C m (bs ++ bs') ↔
      Along key edit C m bs ∧ Along key edit C (replay key edit m bs) bs' := by
  induction bs generalizing m with
  | nil => simp [Along]
  | cons b bs ih => simp [Along, ih, and_assoc]

lemma Along.map_iff {f : β → β} (hf : ∀ b, edit (f b) = edit b) :
    Along key edit C m (bs.map f) ↔ Along key edit C m bs := by
  induction bs generalizing m with
  | nil => rfl
  | cons b bs ih => simp [Along, hf, ih]

variable [Std.LawfulEqOrd K]

lemma getElem?_slice (k : K) : (slice ok m)[k]? = m[k]?.filter ok :=
  ExtTreeMap.getElem?_filter'

variable {x : α}

lemma slice_eq_some {k : K} : (slice ok m)[k]? = some x ↔ m[k]? = some x ∧ ok x = true := by
  rw [getElem?_slice, filter_eq_some_iff]

lemma slice_eq_none {k : K} : (slice ok m)[k]? = none ↔ ∀ x, m[k]? = some x → ok x = false := by
  rw [getElem?_slice, filter_eq_none_iff]
  simp

@[simp] lemma slice_empty : slice ok (∅ : ExtTreeMap K α) = ∅ := by
  refine ExtTreeMap.ext_getElem? fun k => ?_
  simp [getElem?_slice]

lemma slice_erase (k : K) : slice ok (m.erase k) = (slice ok m).erase k := by
  classical
  refine ExtTreeMap.ext_getElem? fun a => ?_
  rw [getElem?_slice, KeyedMap.getElem?_erase, KeyedMap.getElem?_erase, getElem?_slice]
  by_cases hk : k = a <;> simp [hk]

lemma slice_put_of_ok (hx : ok x = true) :
    slice ok (KeyedMap.put key m x) = KeyedMap.put key (slice ok m) x := by
  classical
  refine ExtTreeMap.ext_getElem? fun a => ?_
  rw [getElem?_slice, getElem?_put, getElem?_put, getElem?_slice]
  by_cases hk : key x = a <;> simp [hk, hx]

lemma slice_put_of_not_ok (hx : ok x = false) (hstb : ∀ y, m[key x]? = some y → ok y = ok x) :
    slice ok (KeyedMap.put key m x) = slice ok m := by
  classical
  refine ExtTreeMap.ext_getElem? fun a => ?_
  rw [getElem?_slice, getElem?_put]
  by_cases hk : key x = a
  · subst hk
    have hnone : (slice ok m)[key x]? = none := slice_eq_none.mpr fun y hy => (hstb y hy).trans hx
    simp [hx, hnone]
  · rw [if_neg hk, getElem?_slice]

lemma slice_remove_of_not_ok :
    slice ok m = slice ok (m.erase (key x)) ↔ ∀ y, m[key x]? = some y → ok y = false := by
  rw [slice_erase, ← slice_eq_none]
  constructor
  · intro heq
    rw [heq]
    simp
  · intro hnone
    exact (erase_eq_of_none hnone).symm

lemma slice_apply_iff (hjudge : Judges ok edit passes) {b : β} (hstb : (edit b).Stable key ok m) :
    (if passes b then (edit b).apply key (slice ok m) else slice ok m) =
      slice ok ((edit b).apply key m) ↔ (edit b).Truthful key ok m := by
  cases hb : edit b with
  | put x =>
    rw [hb] at hstb
    refine iff_of_true ?_ trivial
    rw [hjudge.put b x hb]
    cases hx : ok x with
    | true => exact (slice_put_of_ok hx).symm
    | false => exact (slice_put_of_not_ok hx hstb).symm
  | remove x =>
    rw [hjudge.remove b x hb]
    cases hx : ok x with
    | true => exact iff_of_true (slice_erase _).symm fun _ _ _ => hx
    | false =>
      refine slice_remove_of_not_ok.trans ⟨?_, ?_⟩
      · intro hout y hy hok
        rw [hout y hy] at hok
        cases hok
      · intro htruth y hy
        by_contra hok
        have hx' := htruth y hy (Bool.not_eq_false _ ▸ hok)
        rw [hx] at hx'
        cases hx'
  | clear => simp [hjudge.clear b hb, Edit.apply, Edit.Truthful]
  | skip => simp [Edit.apply, Edit.Truthful]

omit [Std.LawfulEqOrd K] in
lemma replay_filter_cons (b : β) (bs : List β) (s : ExtTreeMap K α) :
    replay key edit s ((b :: bs).filter passes) =
      replay key edit (if passes b then (edit b).apply key s else s) (bs.filter passes) := by
  cases hb : passes b <;> simp [hb]

lemma replay_slice (hjudge : Judges ok edit passes)
    (hstb : Along key edit (Edit.Stable key ok) m bs)
    (htruth : Along key edit (Edit.Truthful key ok) m bs) :
    replay key edit (slice ok m) (bs.filter passes) = slice ok (replay key edit m bs) := by
  induction bs generalizing m with
  | nil => rfl
  | cons b bs ih =>
    rw [replay_filter_cons, (slice_apply_iff hjudge hstb.1).mpr htruth.1, replay_cons]
    exact ih hstb.2 htruth.2

lemma replay_slice_iff (hjudge : Judges ok edit passes)
    (hstb : Along key edit (Edit.Stable key ok) m bs) :
    (∀ n, replay key edit (slice ok m) ((bs.take n).filter passes) =
        slice ok (replay key edit m (bs.take n))) ↔
      Along key edit (Edit.Truthful key ok) m bs := by
  constructor
  · intro h
    induction bs generalizing m with
    | nil => trivial
    | cons b bs ih =>
      -- the list of the head alone gives the step law, which takes the head off the others
      have hstep := h 1
      rw [take_succ_cons, take_zero, replay_filter_cons] at hstep
      refine ⟨(slice_apply_iff hjudge hstb.1).mp hstep, ih hstb.2 fun n => ?_⟩
      have hn := h (n + 1)
      rw [take_succ_cons, replay_filter_cons] at hn
      rwa [show (if passes b then (edit b).apply key (slice ok m) else slice ok m) =
        slice ok ((edit b).apply key m) from hstep] at hn
  · intro htruth n
    have hspl := take_append_drop n bs
    refine replay_slice hjudge ?_ ?_
    · exact (Along.append.mp (hspl ▸ hstb)).1
    · exact (Along.append.mp (hspl ▸ htruth)).1

lemma load_filter {xs : List α} (hnd : (xs.map key).Nodup) :
    KeyedMap.load key ∅ (xs.filter ok) = slice ok (KeyedMap.load key ∅ xs) := by
  have hkd : KeyedMap.Keyed key (KeyedMap.load key ∅ xs) := KeyedMap.Keyed.empty.load xs
  refine KeyedMap.load_eq (fun k x hx => by simp at hx) ?_ ?_ ?_
  · intro x hx
    obtain ⟨hmem, hok⟩ := List.mem_filter.mp hx
    refine slice_eq_some.mpr ⟨?_, hok⟩
    rcases getElem?_load key ∅ xs (key x) with ⟨y, hy, hkey, hload⟩ | ⟨hnone, -⟩
    · rwa [inj_on_of_nodup_map hnd hy hmem hkey] at hload
    · exact absurd rfl (hnone x hmem)
  · intro k x hx
    obtain ⟨hload, hok⟩ := slice_eq_some.mp hx
    rcases getElem?_load key ∅ xs k with ⟨y, hy, -, hload'⟩ | ⟨-, hload'⟩
    · obtain rfl : x = y := some.inj (hload.symm.trans hload')
      exact .inl (List.mem_filter.mpr ⟨hy, hok⟩)
    · rw [hload] at hload'
      simp at hload'
  · exact fun k x hx => hkd k x (slice_eq_some.mp hx).1

end Slice
