import Mathlib.Logic.Relation

/-!
# Transition

Labelled transition systems whose steps are filtered by a **guard**.
-/

namespace Transition

universe u v

variable {S : Type u} {A : Type v}

def Guarded (step : S → A → S → Prop) (ok : S → A → Prop) (s s' : S) : Prop :=
  ∃ a, ok s a ∧ step s a s'

/-- `Reach step ok s s'`: a finite run leads from `s` to `s'`, and each of its
steps meets `ok`. -/
def Reach (step : S → A → S → Prop) (ok : S → A → Prop) : S → S → Prop :=
  Relation.ReflTransGen (Guarded step ok)

/-- A run without a guard. -/
abbrev Run (step : S → A → S → Prop) : S → S → Prop := Reach step fun _ _ => True

namespace Reach

variable {step : S → A → S → Prop} {ok ok' : S → A → Prop} {s s' s'' : S} {a : A}

lemma refl (s : S) : Reach step ok s s := Relation.ReflTransGen.refl

lemma snoc (h : Reach step ok s s') (hs : step s' a s'') (hok : ok s' a := by
      repeat' first
        | exact trivial
        | rfl
        | exact Or.inl rfl
        | refine And.intro ?_ ?_
        | decide +kernel
        | (intro h; cases h; first | done | rfl | decide +kernel)
        | intro _) :
    Reach step ok s s'' :=
  Relation.ReflTransGen.tail h ⟨a, hok, hs⟩

lemma trans (h : Reach step ok s s') (h' : Reach step ok s' s'') : Reach step ok s s'' :=
  Relation.ReflTransGen.trans h h'

lemma mono (himp : ∀ s a, ok s a → ok' s a) (h : Reach step ok s s') : Reach step ok' s s' := by
  induction h with
  | refl => exact refl s
  | tail _ hlast ih =>
    obtain ⟨a, hok, hs⟩ := hlast
    exact ih.snoc hs (himp _ _ hok)

lemma invariant (Inv : S → Prop) (h : Reach step ok s s') (hinit : Inv s)
    (hstep : ∀ {t t' : S} {a : A}, Inv t → ok t a → step t a t' → Inv t') : Inv s' := by
  induction h with
  | refl => exact hinit
  | tail _ hlast ih =>
    obtain ⟨a, hok, hs⟩ := hlast
    exact hstep ih hok hs

end Reach

end Transition
