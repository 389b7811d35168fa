import Mathlib.Tactic.Common

/-!
# Stale

A copy of something that changes, kept by events. Some events **spoil** the copy: what is copied
moves on and the copy does not.
-/

universe u v

namespace Stale

open List

variable {E : Type u} {S : Type v}

def Left (spoils touches : E → Prop) (events : List E) : Prop :=
  ∃ before e after, events = before ++ e :: after ∧ spoils e ∧ ∀ d ∈ after, ¬ touches d

def Along (step : S → E → S) (C : S → E → Prop) : S → List E → Prop
  | _, [] => True
  | s, e :: events => C s e ∧ Along step C (step s e) events

instance Along.decide (step : S → E → S) (C : S → E → Prop) [∀ s e, Decidable (C s e)] :
    ∀ (s : S) (events : List E), Decidable (Along step C s events)
  | _, [] => isTrue trivial
  | s, e :: events =>
      have := Along.decide step C (step s e) events
      inferInstanceAs (Decidable (_ ∧ _))

variable {step : S → E → S}

lemma Along.mono {C C' : S → E → Prop} (himp : ∀ s e, C s e → C' s e) {s : S}
    {events : List E} (h : Along step C s events) : Along step C' s events := by
  induction events generalizing s with
  | nil => trivial
  | cons e events ih => exact ⟨himp s e h.1, ih h.2⟩

lemma Along.of_forall {C : E → Prop} {events : List E}
    (h : ∀ e ∈ events, C e) (s : S) : Along step (fun _ e => C e) s events := by
  induction events generalizing s with
  | nil => trivial
  | cons e events ih =>
    exact ⟨h e mem_cons_self, ih (fun d hd => h d (mem_cons_of_mem _ hd)) _⟩

lemma along_map {D : Type*} {C : S → E → Prop} (f : D → E) {s : S}
    {events : List D} : Along step C s (events.map f) ↔
      Along (fun s d => step s (f d)) (fun s d => C s (f d)) s events := by
  induction events generalizing s with
  | nil => exact Iff.rfl
  | cons d events ih => exact and_congr_right fun _ => ih

variable {spoils touches : E → Prop} {events : List E}

lemma not_left_nil : ¬ Left spoils touches [] := by
  rintro ⟨before, e, after, h, -, -⟩
  simp at h

lemma left_cons {e : E} : Left spoils touches (e :: events) ↔
    Left spoils touches events ∨ spoils e ∧ ∀ d ∈ events, ¬ touches d := by
  constructor
  · rintro ⟨before, d, after, h, hd, haft⟩
    cases before with
    | nil =>
      obtain ⟨rfl, rfl⟩ := List.cons.inj h
      exact .inr ⟨hd, haft⟩
    | cons b before =>
      obtain ⟨rfl, rfl⟩ := List.cons.inj h
      exact .inl ⟨before, d, after, rfl, hd, haft⟩
  · rintro (⟨before, d, after, rfl, hd, haft⟩ | ⟨he, haft⟩)
    · exact ⟨e :: before, d, after, rfl, hd, haft⟩
    · exact ⟨[], e, events, rfl, he, haft⟩

lemma left_congr {spoils' touches' : E → Prop}
    (h : ∀ e ∈ events, (spoils e ↔ spoils' e) ∧ (touches e ↔ touches' e)) :
    Left spoils touches events ↔ Left spoils' touches' events := by
  induction events with
  | nil => simp [not_left_nil]
  | cons e events ih =>
    have htail : ∀ d ∈ events, (spoils d ↔ spoils' d) ∧ (touches d ↔ touches' d) := fun d hd =>
      h d (mem_cons_of_mem _ hd)
    rw [left_cons, left_cons, (h e mem_cons_self).1, ih htail]
    refine or_congr_right (and_congr_right fun _ => forall₂_congr fun d hd => ?_)
    rw [(htail d hd).2]

lemma left_map {D : Type*} (f : D → E) {events : List D} : Left spoils touches (events.map f) ↔
      Left (fun d => spoils (f d)) (fun d => touches (f d)) events := by
  induction events with
  | nil => simp [not_left_nil]
  | cons d events ih => rw [map_cons, left_cons, left_cons, ih, List.forall_mem_map]

structure Acts (step : S → E → S) (C : S → E → Prop) (right stale : S → Prop)
    (spoils touches : E → Prop) : Prop where
  apart : ∀ s, stale s → ¬ right s
  exclusive : ∀ e, spoils e → ¬ touches e
  touch : ∀ s e, C s e → right s ∨ stale s → touches e → right (step s e)
  spoil : ∀ s e, C s e → right s ∨ stale s → spoils e → stale (step s e)
  right : ∀ s e, C s e → right s → ¬ touches e → ¬ spoils e → right (step s e)
  stale : ∀ s e, C s e → stale s → ¬ touches e → stale (step s e)

variable {step : S → E → S} {C : S → E → Prop} {right stale : S → Prop}

lemma Acts.run (h : Acts step C right stale spoils touches) {s : S}
    (hal : Along step C s events) (hs : right s ∨ stale s) :
    (right (events.foldl step s) ∨ stale (events.foldl step s)) ∧
    (right (events.foldl step s) ↔
      ¬ Left spoils touches events ∧ (right s ∨ ∃ e ∈ events, touches e)) := by
  induction events generalizing s with
  | nil => exact ⟨hs, by simp [not_left_nil]⟩
  | cons e events ih =>
    obtain ⟨hC, hal⟩ := hal
    rw [left_cons]
    by_cases htouch : touches e
    · have hright := h.touch s e hC hs htouch
      obtain ⟨hcas, hiff⟩ := ih hal (.inl hright)
      refine ⟨hcas, ?_⟩
      rw [foldl_cons, hiff]
      have hspoil : ¬ spoils e := fun hspoil => h.exclusive e hspoil htouch
      simp [hright, hspoil, htouch]
    by_cases hspoil : spoils e
    · have hstale := h.spoil s e hC hs hspoil
      obtain ⟨hcas, hiff⟩ := ih hal (.inr hstale)
      refine ⟨hcas, ?_⟩
      rw [foldl_cons, hiff]
      have hnot := h.apart _ hstale
      -- nothing but a later event can put the copy right
      simp only [hnot, false_or, hspoil, true_and, not_or, not_forall, not_not]
      constructor
      · rintro ⟨hleft, d, hd, htouches⟩
        exact ⟨⟨hleft, d, hd, htouches⟩, .inr ⟨d, mem_cons_of_mem _ hd, htouches⟩⟩
      · rintro ⟨⟨hleft, d, hd, htouches⟩, -⟩
        exact ⟨hleft, d, hd, htouches⟩
    · rcases hs with hright | hstale
      · have hright' := h.right s e hC hright htouch hspoil
        obtain ⟨hcas, hiff⟩ := ih hal (.inl hright')
        refine ⟨hcas, ?_⟩
        rw [foldl_cons, hiff]
        simp [hright, hright', hspoil]
      · have hstale' := h.stale s e hC hstale htouch
        obtain ⟨hcas, hiff⟩ := ih hal (.inr hstale')
        refine ⟨hcas, ?_⟩
        rw [foldl_cons, hiff]
        simp [h.apart _ hstale, h.apart _ hstale', hspoil, htouch]

lemma Acts.right_iff_not_left (h : Acts step C right stale spoils touches) {s : S}
    (hal : Along step C s events) (hs : right s) :
    right (events.foldl step s) ↔ ¬ Left spoils touches events := by
  rw [(h.run hal (.inl hs)).2]
  simp [hs]

end Stale
