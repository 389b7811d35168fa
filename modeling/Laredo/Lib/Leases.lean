import Mathlib.Tactic.Common

/-!
# Leases

Parties come and go, and each of them may hold a lease. A **book** keeps the leases by the names of
the parties.
-/

namespace Leases

variable {A N R W : Type}

def Distinct (parties : A → Option R) (name : R → N) : Prop :=
  ∀ a b r r', parties a = some r → parties b = some r' → name r = name r' → a = b

def Books (parties : A → Option R) (name : R → N) (lease : R → Option W) (book : N → Option W) :
    Prop :=
  ∀ n w, book n = some w ↔ ∃ a r, parties a = some r ∧ name r = n ∧ lease r = some w

/-- The party `a` takes its turn. Its name is `n`, and it is the only one of that name. -/
structure Turn (parties parties' : A → Option R) (name : R → N) (a : A) (n : N) : Prop where
  others : ∀ b, b ≠ a → parties' b = parties b
  before : ∀ r, parties a = some r → name r = n
  after : ∀ r, parties' a = some r → name r = n
  alone : ∀ b r, b ≠ a → parties b = some r → name r ≠ n

variable {parties parties' : A → Option R} {name : R → N} {a : A} {n : N}

lemma Distinct.alone (h : Distinct parties name) {r : R} (hr : parties a = some r) :
    ∀ b r', b ≠ a → parties b = some r' → name r' ≠ name r :=
  fun b r' hb hr' hname => hb (h b a r' r hr' hr hname)

namespace Turn

lemma distinct (h : Turn parties parties' name a n) (hd : Distinct parties name) :
    Distinct parties' name := by
  intro b c r r' hr hr' hname
  by_cases hb : b = a
  · by_cases hc : c = a
    · rw [hb, hc]
    · subst hb
      rw [h.others c hc] at hr'
      exact absurd (hname ▸ h.after r hr) (h.alone c r' hc hr')
  · rw [h.others b hb] at hr
    by_cases hc : c = a
    · subst hc
      exact absurd (hname.trans (h.after r' hr')) (h.alone b r hb hr)
    · rw [h.others c hc] at hr'
      exact hd b c r r' hr hr' hname

lemma all (h : Turn parties parties' name a n) {P : R → Prop}
    (hall : ∀ b r, parties b = some r → P r) (hself : ∀ r, parties' a = some r → P r) :
    ∀ b r, parties' b = some r → P r := by
  intro b r hr
  by_cases hb : b = a
  · subst hb
    exact hself r hr
  · rw [h.others b hb] at hr
    exact hall b r hr

lemma books (h : Turn parties parties' name a n) {lease : R → Option W}
    {book book' : N → Option W} (hb : Books parties name lease book)
    (hothers : ∀ m, m ≠ n → book' m = book m)
    (hself : book' n = (parties' a).bind lease) : Books parties' name lease book' := by
  intro m w
  by_cases hm : m = n
  · subst hm
    rw [hself, Option.bind_eq_some_iff]
    constructor
    · rintro ⟨r, hr, hw⟩
      exact ⟨a, r, hr, h.after r hr, hw⟩
    · rintro ⟨b, r, hr, hname, hw⟩
      by_cases hba : b = a
      · exact ⟨r, hba ▸ hr, hw⟩
      · rw [h.others b hba] at hr
        exact absurd hname (h.alone b r hba hr)
  · rw [hothers m hm, hb]
    constructor
    · rintro ⟨b, r, hr, hname, hw⟩
      have hba : b ≠ a := fun hba => hm (hname ▸ h.before r (hba ▸ hr))
      exact ⟨b, r, by rwa [h.others b hba], hname, hw⟩
    · rintro ⟨b, r, hr, hname, hw⟩
      have hba : b ≠ a := fun hba => hm (hname ▸ h.after r (hba ▸ hr))
      exact ⟨b, r, by rwa [← h.others b hba], hname, hw⟩

end Turn

end Leases
