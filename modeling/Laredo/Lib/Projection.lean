import Laredo.Lib.Overwrite
import Laredo.Lib.Stale

/-!
# Projection

A source shows a map, and a copy of that map is kept by overwrites, one for each event of the
source.
-/

universe u v w x

namespace Projection

open Overwrite Stale Option

variable {S : Type u} {E : Type v} {K : Type w} {B : Type x}

def met (next : S → E → S) : S → List E → List (S × E)
  | _, [] => []
  | s, e :: events => (s, e) :: met next (next s e) events

@[simp] lemma met_nil (next : S → E → S) (s : S) : met next s [] = [] := rfl

@[simp] lemma met_cons (next : S → E → S) (s : S) (e : E) (events : List E) :
    met next s (e :: events) = (s, e) :: met next (next s e) events := rfl

lemma map_met {α : Type*} (next : S → E → S) (f : E → α) (s : S) (events : List E) :
    (met next s events).map (fun x => f x.2) = events.map f := by
  induction events generalizing s with
  | nil => rfl
  | cons e events ih => simp [ih]

variable {next : S → E → S} {C : S → E → Prop} {events : List E}

lemma of_mem_met {s : S}
    (hal : Along next C s events) : ∀ x ∈ met next s events, C x.1 x.2 := by
  induction events generalizing s with
  | nil => simp
  | cons e events ih =>
    rw [met_cons, List.forall_mem_cons]
    exact ⟨hal.1, ih hal.2⟩

lemma left_met_iff {spoils' touches' : S × E → Prop} {spoils touches : E → Prop}
    (hiff : ∀ s e, C s e → (spoils' (s, e) ↔ spoils e) ∧ (touches' (s, e) ↔ touches e))
    {s : S} (hal : Along next C s events) :
    Left spoils' touches' (met next s events) ↔ Left spoils touches events := by
  have hevents : events = (met next s events).map fun x => x.2 := by
    rw [map_met next fun e => e, List.map_id']
  rw [hevents, left_map, ← hevents]
  exact left_congr fun x hx => hiff x.1 x.2 (of_mem_met hal x hx)

lemma along_met {T : Type*} {step : T → S × E → T}
    {source : T → S} (hstep : ∀ t x, source (step t x) = next (source t) x.2) {t : T}
    (hal : Along next C (source t) events) :
    Along step (fun t x => x.1 = source t ∧ C (source t) x.2) t
      (met next (source t) events) := by
  induction events generalizing t with
  | nil => trivial
  | cons e events ih =>
    have hrest := ih (t := step t (source t, e)) (by rw [hstep]; exact hal.2)
    rw [hstep] at hrest
    exact ⟨⟨rfl, hal.1⟩, hrest⟩

def Shows (next : S → E → S) (C : S → E → Prop) (shown : S → K → Option B)
    (write : S × E → Overwrite K B) : Prop :=
  ∀ s e k v, C s e → shown (next s e) k = some v → (write (s, e)).apply (shown s) k = some v

def Leaves (next : S → E → S) (shown : S → K → Option B) (write : S × E → Overwrite K B) (k : K)
    (x : S × E) : Prop :=
  ((write x).apply (shown x.1) k).isSome ∧ shown (next x.1 x.2) k = none

def Settles (next : S → E → S) (shown : S → K → Option B) (write : S × E → Overwrite K B) (k : K)
    (x : S × E) : Prop :=
  (write x).hits k = true ∧ (write x).value k = shown (next x.1 x.2) k

/-- How an event that meets the condition `C` acts on a copy that is never written wrong. -/
structure Follows (next : S → E → S) (C : S → E → Prop) (shown : S → K → Option B)
    (write : S × E → Overwrite K B) (loses : K → S × E → Prop) : Prop where
  writes : ∀ {s e k}, C s e → (write (s, e)).hits k = true →
    (write (s, e)).value k = shown (next s e) k
  misses : ∀ {x k}, loses k x → (write x).hits k = false
  lost : ∀ {s e k}, C s e → loses k (s, e) → (shown s k).isSome ∧ shown (next s e) k = none
  keeps : ∀ {s e k}, C s e → (write (s, e)).hits k = false → ¬ loses k (s, e) →
    shown (next s e) k = shown s k

section

variable {next : S → E → S} {C : S → E → Prop} {shown : S → K → Option B}
  {write : S × E → Overwrite K B} {loses : K → S × E → Prop}

def follow (next : S → E → S) (write : S × E → Overwrite K B) (s : S × (K → Option B))
    (x : S × E) : S × (K → Option B) :=
  (next s.1 x.2, (write (s.1, x.2)).apply s.2)

def StaleAt (shown : S → K → Option B) (k : K) (s : S × (K → Option B)) : Prop :=
  (s.2 k).isSome ∧ shown s.1 k = none

lemma Shows.of_not_settles (h : Shows next C shown write) {s : S} {e : E} {k : K} (hC : C s e)
    (hsett : ¬ Settles next shown write k (s, e)) :
    ((write (s, e)).hits k = true → ((write (s, e)).value k).isSome ∧ shown (next s e) k = none) ∧
      ((write (s, e)).hits k = false → shown (next s e) k = none ∨
        shown (next s e) k = shown s k) := by
  refine ⟨fun hhits => ?_, fun hhits => ?_⟩
  · cases hshown : shown (next s e) k with
    | none =>
      refine ⟨isSome_iff_ne_none.mpr fun hnone => hsett ⟨hhits, ?_⟩, rfl⟩
      rw [hnone, hshown]
    | some v =>
      have hvalue := h s e k v hC hshown
      rw [apply, if_pos hhits, ← hshown] at hvalue
      exact absurd ⟨hhits, hvalue⟩ hsett
  · cases hshown : shown (next s e) k with
    | none => exact .inl rfl
    | some v =>
      have hvalue := h s e k v hC hshown
      rw [apply, hhits] at hvalue
      exact .inr hvalue.symm

lemma Shows.acts (h : Shows next C shown write) (k : K) :
    Acts (follow next write) (fun s x => x.1 = s.1 ∧ C s.1 x.2)
      (fun s => s.2 k = shown s.1 k) (StaleAt shown k) (Leaves next shown write k)
      (Settles next shown write k) where
  apart s hstale hright := by
    have hsome := hstale.1
    rw [hright, hstale.2] at hsome
    cases hsome
  exclusive x hleaves hsett := by
    have hsome := hleaves.1
    rw [apply, if_pos hsett.1, hsett.2, hleaves.2] at hsome
    cases hsome
  touch s x hC _ hsett := by
    obtain ⟨s, copy⟩ := s
    obtain ⟨s', e⟩ := x
    obtain rfl : s' = s := hC.1
    simpa [follow, apply, hsett.1] using hsett.2
  spoil s x hC hs hleaves := by
    obtain ⟨s, copy⟩ := s
    obtain ⟨s', e⟩ := x
    obtain rfl : s' = s := hC.1
    refine ⟨?_, hleaves.2⟩
    have hsome := hleaves.1
    by_cases hhits : (write (s', e)).hits k = true
    · simpa [follow, apply, hhits] using hsome
    · have hcopy : (copy k).isSome := by
        rcases hs with hright | hstale
        · have hcopy : copy k = shown s' k := hright
          simpa [apply, hhits, hcopy] using hsome
        · exact hstale.1
      simpa [follow, apply, hhits] using hcopy
  right s x hC hright hsett hleaves := by
    obtain ⟨s, copy⟩ := s
    obtain ⟨s', e⟩ := x
    obtain ⟨hs', hC⟩ := hC
    obtain rfl : s' = s := hs'
    have hcopy : copy k = shown s' k := hright
    obtain ⟨hwrt, hkept⟩ := h.of_not_settles hC hsett
    show (write (s', e)).apply copy k = shown (next s' e) k
    by_cases hhits : (write (s', e)).hits k = true
    · obtain ⟨hsome, hnone⟩ := hwrt hhits
      exact absurd ⟨by simpa [apply, hhits] using hsome, hnone⟩ hleaves
    · rw [apply, if_neg hhits, hcopy]
      rcases hkept (Bool.eq_false_iff.mpr hhits) with hnone | hsame
      · by_contra hne
        refine hleaves ⟨?_, hnone⟩
        rw [hnone] at hne
        simpa [apply, hhits] using isSome_iff_ne_none.mpr hne
      · exact hsame.symm
  stale s x hC hstale hsett := by
    obtain ⟨s, copy⟩ := s
    obtain ⟨s', e⟩ := x
    obtain ⟨hs', hC⟩ := hC
    obtain rfl : s' = s := hs'
    obtain ⟨hcopy, hnone⟩ := hstale
    obtain ⟨hwrt, hkept⟩ := h.of_not_settles hC hsett
    by_cases hhits : (write (s', e)).hits k = true
    · exact ⟨by simpa [follow, apply, hhits] using (hwrt hhits).1, (hwrt hhits).2⟩
    · refine ⟨by simpa [follow, apply, hhits] using hcopy, ?_⟩
      rcases hkept (Bool.eq_false_iff.mpr hhits) with hnone' | hsame
      · exact hnone'
      · exact hsame.trans hnone

lemma foldl_follow (s : S) (copy : K → Option B) (events : List E) :
    (met next s events).foldl (follow next write) (s, copy) =
      (events.foldl next s, replay ((met next s events).map write) copy) := by
  induction events generalizing s copy with
  | nil => rfl
  | cons e events ih => exact ih (next s e) _

lemma Shows.copy_iff (h : Shows next C shown write) {s : S} {events : List E}
    (hal : Along next C s events) :
    replay ((met next s events).map write) (shown s) = shown (events.foldl next s) ↔
      ∀ k, ¬ Left (Leaves next shown write k) (Settles next shown write k)
        (met next s events) := by
  rw [funext_iff]
  refine forall_congr' fun k => ?_
  have hmet : Along (follow next write) (fun s x => x.1 = s.1 ∧ C s.1 x.2) (s, shown s)
      (met next s events) := along_met (fun _ _ => rfl) hal
  have hiff := (h.acts k).right_iff_not_left hmet rfl
  rwa [foldl_follow] at hiff

lemma Follows.shows (h : Follows next C shown write loses) : Shows next C shown write := by
  intro s e k v hC hshown
  unfold apply
  split
  · next hhits => rw [h.writes hC hhits, hshown]
  · next hhits =>
      have hloses : ¬ loses k (s, e) := fun hloses => by
        rw [(h.lost hC hloses).2] at hshown
        cases hshown
      rw [← h.keeps hC (Bool.eq_false_iff.mpr hhits) hloses, hshown]

lemma Follows.leaves_iff (h : Follows next C shown write loses) {s : S} {e : E} (hC : C s e)
    (k : K) : Leaves next shown write k (s, e) ↔ loses k (s, e) := by
  constructor
  · rintro ⟨hsome, hnone⟩
    by_contra hloses
    unfold apply at hsome
    split at hsome
    · next hhits =>
        rw [h.writes hC hhits, hnone] at hsome
        cases hsome
    · next hhits =>
        rw [← h.keeps hC (Bool.eq_false_iff.mpr hhits) hloses, hnone] at hsome
        cases hsome
  · intro hloses
    obtain ⟨hsome, hnone⟩ := h.lost hC hloses
    exact ⟨by simpa [apply, h.misses hloses] using hsome, hnone⟩

lemma Follows.copy_iff (h : Follows next C shown write loses) {s : S} {events : List E}
    (hal : Along next C s events) :
    replay ((met next s events).map write) (shown s) = shown (events.foldl next s) ↔
      ∀ k, ¬ Left (loses k) (fun x => (write x).hits k = true) (met next s events) := by
  rw [h.shows.copy_iff hal]
  refine forall_congr' fun k => not_congr (left_congr fun x hx => ?_)
  have hC := of_mem_met hal x hx
  exact ⟨h.leaves_iff hC k, fun hsett => hsett.1, fun hhits => ⟨hhits, h.writes hC hhits⟩⟩

end

end Projection
