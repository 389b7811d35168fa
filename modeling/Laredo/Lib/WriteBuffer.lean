import Laredo.Lib.KeyedMap
import Laredo.Lib.Overwrite

/-!
# Write buffer

Buffers that **collapse** writes: a finite map that keeps, for each key, the last write to it.
-/

universe u v w

namespace WriteBuffer

open KeyedMap Std

variable {K : Type u} {V : Type v} {W : Type w}

section

variable [DecidableEq K] {key : W → K} {value : W → Option V}

def overwrite (key : W → K) (value : W → Option V) (x : W) : Overwrite K V where
  hits k := decide (key x = k)
  value _ := value x

lemma replay_of_miss {xs : List W} {k : K} (h : ∀ x ∈ xs, key x ≠ k) (m : K → Option V) :
    Overwrite.replay (xs.map (overwrite key value)) m k = m k := by
  refine Overwrite.replay_of_miss ?_ m
  intro o ho
  obtain ⟨x, hx, rfl⟩ := List.mem_map.mp ho
  simpa [overwrite] using h x hx

lemma replay_of_mem {xs : List W} (hnd : (xs.map key).Nodup) {x : W} (hx : x ∈ xs)
    (m : K → Option V) : Overwrite.replay (xs.map (overwrite key value)) m (key x) = value x := by
  refine Overwrite.replay_of_agree ⟨_, List.mem_map_of_mem hx, by simp [overwrite]⟩ ?_ m
  intro o ho hhit
  obtain ⟨y, hy, rfl⟩ := List.mem_map.mp ho
  have hkey : key y = key x := by simpa [overwrite] using hhit
  rw [List.inj_on_of_nodup_map hnd hy hx hkey]
  rfl

end

variable [Ord K] [Std.TransOrd K]

def Bridges (value : W → Option V) (b : ExtTreeMap K W) (m m' : K → Option V) : Prop :=
  ∀ k, m' k = b[k]?.elim (m k) value

variable {key : W → K} {value : W → Option V} {b : ExtTreeMap K W} {m m' m'' : K → Option V}

lemma Bridges.empty : Bridges value (∅ : ExtTreeMap K W) m m := by
  intro k
  simp

lemma Bridges.merge {older newer : ExtTreeMap K W} (holder : Bridges value older m m')
    (hnewer : Bridges value newer m' m'') (hb : ∀ k : K, b[k]? = newer[k]?.or older[k]?) :
    Bridges value b m m'' := by
  intro k
  have hk := hnewer k
  rw [hb]
  cases hn : newer[k]? with
  | some x =>
    rw [hn] at hk
    exact hk
  | none =>
    rw [hn] at hk
    rw [hk]
    exact holder k

variable [Std.LawfulEqOrd K] [DecidableEq K]

lemma Bridges.put (h : Bridges value b m m') (x : W) :
    Bridges value (put key b x) m ((overwrite key value x).apply m') := by
  intro k
  rw [getElem?_put]
  unfold Overwrite.apply overwrite
  by_cases hk : key x = k
  · simp [hk]
  · simp only [hk, decide_false, Bool.false_eq_true, if_false]
    exact h k

lemma Bridges.replay (h : Bridges value b m m') (hkd : Keyed key b) {xs : List W}
    (hxs : xs.Perm (b.toList.map Prod.snd)) :
    Overwrite.replay (xs.map (overwrite key value)) m = m' := by
  funext k
  rw [h k]
  cases hb : b[k]? with
  | some x =>
    obtain rfl := hkd k x hb
    exact replay_of_mem (nodup_keys_of_values hkd hxs)
      ((mem_values hkd hxs x).mpr hb) m
  | none =>
    refine replay_of_miss (fun x hx hk => ?_) m
    have hx' := (mem_values hkd hxs x).mp hx
    rw [hk, hb] at hx'
    cases hx'

end WriteBuffer
