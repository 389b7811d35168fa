import Mathlib.Tactic.Common

/-!
# Overwrite

Updates of partial maps that **overwrite**: an update fixes the new content of some keys, and never
looks at what was there before.
-/

universe u v

/-- An update that writes the keys in `hits`, giving each of them the content
`value` (`none` removes the key), and leaves all other keys alone. -/
structure Overwrite (K : Type u) (V : Type v) where
  hits : K → Bool
  value : K → Option V

namespace Overwrite

open Std List

variable {K : Type u} {V : Type v}

def apply (w : Overwrite K V) (m : K → Option V) : K → Option V :=
  fun k => if w.hits k then w.value k else m k

def replay (ws : List (Overwrite K V)) (m : K → Option V) : K → Option V :=
  ws.foldl (fun m w => w.apply m) m

@[simp] lemma replay_nil (m : K → Option V) : replay [] m = m := rfl

@[simp] lemma replay_cons (w : Overwrite K V) (ws : List (Overwrite K V))
    (m : K → Option V) : replay (w :: ws) m = replay ws (w.apply m) := rfl

lemma replay_append (ws₁ ws₂ : List (Overwrite K V)) (m : K → Option V) :
    replay (ws₁ ++ ws₂) m = replay ws₂ (replay ws₁ m) := by
  simp [replay, foldl_append]

variable {ws : List (Overwrite K V)}

lemma replay_of_miss {k : K}
    (h : ∀ w ∈ ws, w.hits k = false) (m : K → Option V) : replay ws m k = m k := by
  induction ws generalizing m with
  | nil => rfl
  | cons w ws ih =>
    rw [replay_cons, ih (fun v hv => h v (mem_cons_of_mem _ hv))]
    simp [apply, h w mem_cons_self]

lemma replay_of_hit {k : K} (h : ∃ w ∈ ws, w.hits k = true)
    (m m' : K → Option V) : replay ws m k = replay ws m' k := by
  induction ws generalizing m m' with
  | nil => obtain ⟨w, hw, -⟩ := h; cases hw
  | cons w ws ih =>
    by_cases hlater : ∃ v ∈ ws, v.hits k = true
    · exact ih hlater _ _
    · -- only the head writes `k`, and it writes the same content into both maps
      have hmiss : ∀ v ∈ ws, v.hits k = false := fun v hv => by
        simpa using fun hv' => hlater ⟨v, hv, hv'⟩
      obtain ⟨v, hv, hhit⟩ := h
      obtain rfl : v = w := by
        rcases mem_cons.mp hv with rfl | hv
        · rfl
        · exact absurd ⟨v, hv, hhit⟩ hlater
      rw [replay_cons, replay_cons, replay_of_miss hmiss, replay_of_miss hmiss]
      simp [apply, hhit]

lemma replay_cons_of_mem {w : Overwrite K V} (h : w ∈ ws)
    (m : K → Option V) : replay (w :: ws) m = replay ws m := by
  funext k
  rw [replay_cons]
  by_cases hhit : ∃ v ∈ ws, v.hits k = true
  · exact replay_of_hit hhit _ _
  · have hmiss : ∀ v ∈ ws, v.hits k = false := fun v hv =>
      Bool.eq_false_iff.mpr fun hk => hhit ⟨v, hv, hk⟩
    rw [replay_of_miss hmiss, replay_of_miss hmiss]
    simp [apply, hmiss w h]

lemma replay_of_agree {k : K} {x : Option V}
    (h : ∃ w ∈ ws, w.hits k = true) (hag : ∀ w ∈ ws, w.hits k = true → w.value k = x)
    (m : K → Option V) : replay ws m k = x := by
  induction ws generalizing m with
  | nil => obtain ⟨w, hw, -⟩ := h; cases hw
  | cons w ws ih =>
    rw [replay_cons]
    by_cases hlater : ∃ v ∈ ws, v.hits k = true
    · exact ih hlater (fun v hv => hag v (mem_cons_of_mem _ hv)) _
    · have hmiss : ∀ v ∈ ws, v.hits k = false := fun v hv => by
        simpa using fun hv' => hlater ⟨v, hv, hv'⟩
      have hhit : w.hits k = true := by
        obtain ⟨v, hv, hhit⟩ := h
        rcases mem_cons.mp hv with rfl | hv
        · exact hhit
        · exact absurd ⟨v, hv, hhit⟩ hlater
      rw [replay_of_miss hmiss, ← hag w mem_cons_self hhit]
      simp [apply, hhit]

lemma replay_suffix_again (ws₁ ws₂ : List (Overwrite K V)) (m : K → Option V) :
    replay ws₂ (replay (ws₁ ++ ws₂) m) = replay (ws₁ ++ ws₂) m := by
  funext k
  rw [replay_append]
  by_cases hhit : ∃ w ∈ ws₂, w.hits k = true
  · exact replay_of_hit hhit _ _
  · have hmiss : ∀ w ∈ ws₂, w.hits k = false := fun w hw => by
      simpa using fun hw' => hhit ⟨w, hw, hw'⟩
    rw [replay_of_miss hmiss]

/-! ### Tree maps

Setting, removing and clearing, as updates of what a tree map holds. -/

def skip : Overwrite K V := ⟨fun _ => false, fun _ => none⟩

def clear : Overwrite K V := ⟨fun _ => true, fun _ => none⟩

section

variable [DecidableEq K]

def set (k : K) (v : V) : Overwrite K V := ⟨fun a => decide (k = a), fun _ => some v⟩

def delete (k : K) : Overwrite K V := ⟨fun a => decide (k = a), fun _ => none⟩

def move (old k : K) (v : V) : Overwrite K V :=
  ⟨fun a => decide (k = a ∨ old = a), fun a => if k = a then some v else none⟩

variable [Ord K] [Std.TransOrd K] [Std.LawfulEqOrd K]

def held (m : ExtTreeMap K V) : K → Option V := fun k => m[k]?

omit [DecidableEq K] in
lemma eq_of_held {m m' : ExtTreeMap K V} (h : held m = held m') : m = m' :=
  ExtTreeMap.ext_getElem? fun k => congrFun h k

omit [DecidableEq K] [Std.LawfulEqOrd K] in
lemma skip_held (m : ExtTreeMap K V) : held m = skip.apply (held m) := rfl

omit [DecidableEq K] [Std.LawfulEqOrd K] in
lemma clear_held (m : ExtTreeMap K V) :
    held (∅ : ExtTreeMap K V) = clear.apply (held m) := by
  funext a
  simp [held, clear, apply]

lemma set_held (m : ExtTreeMap K V) (k : K) (v : V) :
    held (m.insert k v) = (set k v).apply (held m) := by
  funext a
  simp [held, set, apply, ExtTreeMap.getElem?_insert]

lemma delete_held (m : ExtTreeMap K V) (k : K) :
    held (m.erase k) = (delete k).apply (held m) := by
  funext a
  simp [held, delete, apply, ExtTreeMap.getElem?_erase]

lemma move_held (m : ExtTreeMap K V) (old k : K) (v : V) :
    held ((m.erase old).insert k v) = (move old k v).apply (held m) := by
  rw [set_held, delete_held]
  funext a
  by_cases hk : k = a <;> simp [move, set, delete, apply, hk]

end

/-! ### Machines whose operations overwrite

A machine shows a map, and each of its operations overwrites that map, in the states that
satisfy an invariant. -/

section

variable {S O : Type*} {step : S → O → S} {write : O → Overwrite K V}
variable (view : S → K → Option V) (Inv : S → Prop)

lemma view_foldl
    (hstep : ∀ s o, Inv s → Inv (step s o) ∧ view (step s o) = (write o).apply (view s))
    {s : S} (hs : Inv s) (ops : List O) :
    Inv (ops.foldl step s) ∧ view (ops.foldl step s) = replay (ops.map write) (view s) := by
  induction ops generalizing s with
  | nil => exact ⟨hs, rfl⟩
  | cons o ops ih =>
    obtain ⟨hinv, hview⟩ := hstep s o hs
    rw [foldl_cons, map_cons, replay_cons, ← hview]
    exact ih hinv

lemma view_redelivered
    (hstep : ∀ s o, Inv s → Inv (step s o) ∧ view (step s o) = (write o).apply (view s))
    {s : S} (hs : Inv s) (ops₁ ops₂ : List O) :
    view (ops₂.foldl step ((ops₁ ++ ops₂).foldl step s)) = view ((ops₁ ++ ops₂).foldl step s) := by
  obtain ⟨hinv, hview⟩ := view_foldl view Inv hstep hs (ops₁ ++ ops₂)
  rw [(view_foldl view Inv hstep hinv ops₂).2, hview, map_append, replay_suffix_again]

end

/-! ### Catching up

A machine works through a log. When it is set back to an earlier place in the log, while its
state stays as it is, it gets to the same final state from there. -/

section

variable {S O : Type*} {step : S → O → S}

def Absorbs (step : S → O → S) : Prop :=
  ∀ (s : S) (o : O) (ops : List O), o ∈ ops → ops.foldl step (step s o) = ops.foldl step s

lemma Absorbs.of_view {write : O → Overwrite K V} {view : S → K → Option V}
    (hinj : ∀ s s', view s = view s' → s = s')
    (hstep : ∀ s o, view (step s o) = (write o).apply (view s)) : Absorbs step := by
  have hview : ∀ (s : S) (ops : List O),
      view (ops.foldl step s) = replay (ops.map write) (view s) := fun s ops =>
    (view_foldl view (fun _ => True) (fun s o _ => ⟨trivial, hstep s o⟩) trivial ops).2
  intro s o ops ho
  apply hinj
  rw [hview, hview, hstep, ← replay_cons, replay_cons_of_mem (List.mem_map_of_mem ho)]

/-- With the rest of the log, and just as well with any longer end of it, the machine gets from
`s` to `final`. -/
def CatchesUp (step : S → O → S) (log rest : List O) (final s : S) : Prop :=
  ∀ ops, rest <:+ ops → ops <:+ log → ops.foldl step s = final

variable {log rest rest' : List O} {final s : S} {o : O}

lemma CatchesUp.start (step : S → O → S) (log : List O) (s : S) :
    CatchesUp step log log (log.foldl step s) s := by
  intro ops hlong hshort
  rw [hshort.eq_of_length_le hlong.length_le]

lemma CatchesUp.done (h : CatchesUp step log [] final s) : s = final :=
  h [] suffix_rfl (nil_suffix)

lemma CatchesUp.next (h : CatchesUp step log (o :: rest) final s) (habsorbs : Absorbs step)
    (hrest : o :: rest <:+ log) : CatchesUp step log rest final (step s o) := by
  intro ops hlong hshort
  -- the operation is either the last one before `ops` or one of them
  rcases suffix_or_suffix_of_suffix hshort hrest with hsub | hsub
  · rcases suffix_cons_iff.mp hsub with rfl | hsub
    · rw [habsorbs s o _ mem_cons_self]
      exact h _ suffix_rfl hrest
    · rw [hsub.eq_of_length_le hlong.length_le]
      exact h _ suffix_rfl hrest
  · rw [habsorbs s o ops (hsub.subset mem_cons_self)]
    exact h ops hsub hshort

lemma CatchesUp.extend (h : CatchesUp step log rest final s) (more : List O) :
    CatchesUp step (log ++ more) (rest ++ more) (more.foldl step final) s := by
  intro ops hlong hshort
  obtain ⟨ops, rfl⟩ : ∃ ops', ops = ops' ++ more := by
    obtain ⟨pre, rfl⟩ := hlong
    exact ⟨pre ++ rest, by rw [append_assoc]⟩
  rw [suffix_append_inj_of_length_eq rfl] at hlong hshort
  rw [foldl_append, h ops hlong.1 hshort.1]

lemma CatchesUp.back (h : CatchesUp step log rest final s) (hrest : rest <:+ rest') :
    CatchesUp step log rest' final s :=
  fun ops hlong hshort => h ops (hrest.trans hlong) hshort

end

end Overwrite
