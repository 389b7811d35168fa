import Laredo.Lib.KeyedMap
import Laredo.Lib.Projection
import Laredo.Types

/-!
# Source table

What a source replicates: a table of rows under their keys, and the log of the changes committed to
it at increasing positions.
-/

namespace Laredo

open List KeyedMap Overwrite Row

variable {P V : Type}

inductive TableChange (V : Type)
  | insert (row : Row V)
  | update (row : Row V) (identity : Option (Row V))
  | delete (identity : Option (Row V))
  | truncate

namespace TableChange

def apply (key : Row V → String) (table : Store V) : TableChange V → Store V
  | .insert row => KeyedMap.put key table row
  | .update row none => KeyedMap.put key table row
  | .update row (some old) =>
      KeyedMap.put key (table.erase (key old)) row
  | .delete identity => table.erase (key (orEmpty identity))
  | .truncate => ∅

def KeepsKey (key : Row V → String) : TableChange V → Prop
  | .update row (some old) => key old = key row
  | _ => True

/-- The change can be made to the table as it is, and carries the rows it is about: an insert
is of a row that is not there, an update and a delete are of one that is, and an update moves
its row only to a key that is free. -/
def Fits (key : Row V → String) (table : Store V) : TableChange V → Prop
  | .insert row => table[key row]? = none
  | .update row (some old) =>
      table[key old]? = some old ∧ (key row = key old ∨ table[key row]? = none)
  | .delete (some old) => table[key old]? = some old
  | .truncate => True
  | .update _ none | .delete none => False

def FitsByKey (key : Row V → String) (table : Store V) : TableChange V → Prop
  | .insert row => table[key row]? = none
  | .update row (some identity) =>
      table[key identity]?.isSome ∧ (key row = key identity ∨ table[key row]? = none)
  | .update _ none => False
  | .delete _ | .truncate => True

instance (key : Row V → String) (table : Store V) :
    (ch : TableChange V) → Decidable (ch.FitsByKey key table)
  | .insert row => inferInstanceAs (Decidable (table[key row]? = none))
  | .update row (some identity) => inferInstanceAs (Decidable
      (table[key identity]?.isSome ∧ (key row = key identity ∨ table[key row]? = none)))
  | .update _ none => isFalse id
  | .delete _ | .truncate => isTrue trivial

instance [DecidableEq (Row V)] (key : Row V → String) (table : Store V) :
    (ch : TableChange V) → Decidable (ch.Fits key table)
  | .insert row => inferInstanceAs (Decidable (table[key row]? = none))
  | .update row (some old) => inferInstanceAs
      (Decidable (table[key old]? = some old ∧ (key row = key old ∨ table[key row]? = none)))
  | .delete (some old) => inferInstanceAs (Decidable (table[key old]? = some old))
  | .truncate => isTrue trivial
  | .update _ none | .delete none => isFalse id

variable {key : Row V → String} {table : Store V} {ch : TableChange V}

lemma Fits.byKey (h : ch.Fits key table) : ch.FitsByKey key table := by
  cases ch with
  | insert row => exact h
  | update row identity =>
    cases identity with
    | none => exact h
    | some old => exact ⟨by rw [h.1]; rfl, h.2⟩
  | delete identity => trivial
  | truncate => trivial

def applyByIdentity (key : Row V → String) (store : Store V) : TableChange V → Store V
  | .update row identity => KeyedMap.put key (store.erase (key (orEmpty identity))) row
  | ch => ch.apply key store

/-- As `FitsByKey`, for a source that sends no identity with an update that keeps the key. No other
row goes by the key of the row with no columns. -/
def FitsAsSent (key : Row V → String) (table : Store V) : TableChange V → Prop
  | .update row none => table[key row]?.isSome ∧ (key row = key ∅ ∨ table[key ∅]? = none)
  | ch => ch.FitsByKey key table

instance (key : Row V → String) (table : Store V) :
    (ch : TableChange V) → Decidable (ch.FitsAsSent key table)
  | .update row none => inferInstanceAs
      (Decidable (table[key row]?.isSome ∧ (key row = key ∅ ∨ table[key ∅]? = none)))
  | .insert row => inferInstanceAs (Decidable ((TableChange.insert row).FitsByKey key table))
  | .update row (some identity) => inferInstanceAs
      (Decidable ((TableChange.update row (some identity)).FitsByKey key table))
  | .delete _ | .truncate => isTrue trivial

lemma FitsByKey.asSent (h : ch.FitsByKey key table) : ch.FitsAsSent key table := by
  cases ch with
  | update row identity =>
    cases identity with
    | none => exact h.elim
    | some identity => exact h
  | insert row => exact h
  | delete identity => exact h
  | truncate => exact h

lemma keyed_apply (h : KeyedMap.Keyed key table) (ch : TableChange V) :
    KeyedMap.Keyed key (ch.apply key table) := by
  cases ch with
  | insert row => exact h.put row
  | update row identity =>
    cases identity with
    | none => exact h.put row
    | some old => exact (h.erase _).put row
  | delete identity => exact h.erase _
  | truncate => exact KeyedMap.Keyed.empty

lemma keyed_foldl (h : KeyedMap.Keyed key table) (hist : List (TableChange V)) :
    KeyedMap.Keyed key (hist.foldl (fun table ch => ch.apply key table) table) := by
  induction hist generalizing table with
  | nil => exact h
  | cons ch hist ih => exact ih (keyed_apply h ch)

def overwrite (key : Row V → String) : TableChange V → Overwrite String (Row V)
  | .insert row | .update row none =>
      { hits := fun k => decide (key row = k), value := fun _ => some row }
  | .update row (some old) =>
      { hits := fun k => decide (key row = k ∨ key old = k)
        value := fun k => if key row = k then some row else none }
  | .delete identity =>
      { hits := fun k => decide (key (orEmpty identity) = k), value := fun _ => none }
  | .truncate => { hits := fun _ => true, value := fun _ => none }

lemma getElem?_apply (key : Row V → String) (table : Store V) (ch : TableChange V) (k : String) :
    (ch.apply key table)[k]? = (ch.overwrite key).apply (fun k => table[k]?) k := by
  cases ch with
  | insert row => simp [apply, overwrite, Overwrite.apply, getElem?_put]
  | update row identity =>
    cases identity with
    | none => simp [apply, overwrite, Overwrite.apply, getElem?_put]
    | some old =>
      by_cases hrow : key row = k
      · simp [apply, overwrite, Overwrite.apply, getElem?_put, hrow]
      · simp [apply, overwrite, Overwrite.apply, getElem?_put, KeyedMap.getElem?_erase, hrow]
  | delete identity => simp [apply, overwrite, Overwrite.apply, KeyedMap.getElem?_erase]
  | truncate => simp [apply, overwrite, Overwrite.apply]

def replay (key : Row V → String) (table : Store V) (log : List (P × TableChange V)) : Store V :=
  log.foldl (fun table c => c.2.apply key table) table

@[simp] lemma replay_nil (key : Row V → String) (table : Store V) :
    replay key table ([] : List (P × TableChange V)) = table := rfl

@[simp] lemma replay_cons (key : Row V → String) (table : Store V) (c : P × TableChange V)
    (log : List (P × TableChange V)) :
    replay key table (c :: log) = replay key (c.2.apply key table) log := rfl

@[simp] lemma replay_append (key : Row V → String) (table : Store V)
    (log log' : List (P × TableChange V)) :
    replay key table (log ++ log') = replay key (replay key table log) log' :=
  foldl_append

lemma held_apply (key : Row V → String) (table : Store V) (ch : TableChange V) :
    held (ch.apply key table) = (ch.overwrite key).apply (held table) :=
  funext (getElem?_apply key table ch)

lemma replay_again (key : Row V → String) (table : Store V)
    (log log' : List (P × TableChange V)) :
    replay key (replay key table (log ++ log')) log' = replay key table (log ++ log') :=
  eq_of_held (view_redelivered held (fun _ => True)
    (fun table c _ => ⟨trivial, held_apply key table c.2⟩) trivial log log')

def WellFormed (key : Row V → String) (table : Store V) (history : List (P × TableChange V)) :
    Prop :=
  Stale.Along (fun table x => x.2.apply key table) (fun table x => x.2.Fits key table) table history

instance [DecidableEq (Row V)] (key : Row V → String) (table : Store V)
    (history : List (P × TableChange V)) : Decidable (WellFormed key table history) :=
  inferInstanceAs (Decidable (Stale.Along _ _ _ _))

/-- What a change does to a copy that files rows by their own key only: what an update finds
under the old key stays. -/
def applyBlind (key : Row V → String) (table : Store V) : TableChange V → Store V
  | .insert row | .update row _ => KeyedMap.put key table row
  | .delete identity => table.erase (key (orEmpty identity))
  | .truncate => ∅

lemma applyBlind_eq (hkp : ch.KeepsKey key)
    (table : Store V) : ch.applyBlind key table = ch.apply key table := by
  cases ch with
  | update row identity =>
    cases identity with
    | none => rfl
    | some old =>
      have hkey : key old = key row := hkp
      refine Std.ExtTreeMap.ext_getElem? fun k => ?_
      by_cases hk : key row = k
      · simp [applyBlind, apply, getElem?_put, hk]
      · simp [applyBlind, apply, getElem?_put, KeyedMap.getElem?_erase, hkey, hk]
  | _ => rfl

def replayBlind (key : Row V → String) (table : Store V) (log : List (P × TableChange V)) :
    Store V :=
  log.foldl (fun table c => c.2.applyBlind key table) table

def Moves (key : Row V → String) (k : String) : TableChange V → Prop
  | .update row (some old) => key old = k ∧ key row ≠ k
  | _ => False

/-- The change says what is under the key `k`, also to a copy that does not look at old
rows. -/
def Hits (key : Row V → String) (k : String) : TableChange V → Prop
  | .insert row | .update row _ => key row = k
  | .delete identity => key (orEmpty identity) = k
  | .truncate => True

def unaware : TableChange V → TableChange V
  | .update row _ => .update row none
  | ch => ch

lemma applyBlind_eq_unaware (key : Row V → String) (table : Store V) (ch : TableChange V) :
    ch.applyBlind key table = ch.unaware.apply key table := by
  cases ch <;> rfl

lemma hits_unaware (key : Row V → String) (k : String) (ch : TableChange V) :
    (ch.unaware.overwrite key).hits k = true ↔ ch.Hits key k := by
  cases ch <;> simp [unaware, overwrite, Hits]

lemma blind_follows (key : Row V → String) :
    Projection.Follows (fun (table : Store V) (ch : TableChange V) => ch.apply key table)
      (fun table ch => ch.Fits key table) held (fun x => x.2.unaware.overwrite key)
      (fun k x => x.2.Moves key k) where
  writes := by
    intro table ch k _ hhits
    show _ = (ch.apply key table)[k]?
    rw [getElem?_apply]
    rw [hits_unaware] at hhits
    cases ch with
    | insert row | delete identity => simp_all [unaware, overwrite, Overwrite.apply, Hits]
    | update row identity => cases identity <;> simp_all [unaware, overwrite, Overwrite.apply, Hits]
    | truncate => rfl
  misses := by
    rintro ⟨p, ch⟩ k hmoves
    cases ch with
    | update row identity =>
      cases identity with
      | none => cases hmoves
      | some old => simpa [unaware, overwrite] using hmoves.2
    | insert | delete | truncate => cases hmoves
  lost := by
    intro table ch k hfits hmoves
    cases ch with
    | update row identity =>
      cases identity with
      | none => cases hmoves
      | some old =>
        obtain ⟨hold, hrow⟩ := hmoves
        refine ⟨?_, ?_⟩
        · show (table[k]?).isSome
          rw [← hold, hfits.1]
          rfl
        · show ((TableChange.update row (some old)).apply key table)[k]? = none
          simp [getElem?_apply, overwrite, Overwrite.apply, hold, hrow]
    | insert | delete | truncate => cases hmoves
  keeps := by
    intro table ch k _ hmiss hmoves
    show (ch.apply key table)[k]? = table[k]?
    rw [getElem?_apply]
    have hnot : ¬ ch.Hits key k := by
      rw [← hits_unaware, hmiss]
      exact Bool.false_ne_true
    cases ch with
    | insert row | delete identity => simp_all [overwrite, Overwrite.apply, Hits]
    | update row identity => cases identity <;> simp_all [overwrite, Overwrite.apply, Hits, Moves]
    | truncate => exact absurd trivial hnot

lemma replayBlind_eq_iff {history : List (P × TableChange V)} (h : WellFormed key table history) :
    replayBlind key table history = replay key table history ↔
      ∀ k, ¬ Stale.Left (Moves key k) (Hits key k) (history.map Prod.snd) := by
  have hal : Stale.Along (fun table ch => ch.apply key table)
      (fun table ch => ch.Fits key table) table (history.map Prod.snd) :=
    (Stale.along_map Prod.snd).mpr h
  have hend : (history.map Prod.snd).foldl (fun table ch => ch.apply key table) table =
      replay key table history := foldl_map
  have hblind : held (replayBlind key table history) =
      Overwrite.replay (history.map fun x => x.2.unaware.overwrite key) (held table) := by
    refine (view_foldl held (fun _ => True) (fun table x _ => ⟨trivial, ?_⟩)
      trivial history).2
    rw [applyBlind_eq_unaware]
    exact held_apply key table x.2.unaware
  have hcopy := (blind_follows key).copy_iff hal
  rw [Projection.map_met _ fun ch : TableChange V => ch.unaware.overwrite key, List.map_map,
    hend] at hcopy
  have hleft : ∀ k, Stale.Left (fun x => x.2.Moves key k)
      (fun x => (x.2.unaware.overwrite key).hits k = true)
      (Projection.met (fun table ch => ch.apply key table) table (history.map Prod.snd)) ↔
      Stale.Left (Moves key k) (Hits key k) (history.map Prod.snd) := fun k =>
    Projection.left_met_iff (fun _ ch _ => ⟨Iff.rfl, hits_unaware key k ch⟩) hal
  refine Iff.trans ⟨fun heq => ?_, fun hhl => ?_⟩
    (hcopy.trans (forall_congr' fun k => not_congr (hleft k)))
  · exact hblind.symm.trans (congrArg _ heq)
  · exact eq_of_held (hblind.trans hhl)

end TableChange

structure SourceTable (P V : Type) (key : Row V → String) where
  order : PositionOrder P
  initial : Store V
  keyed : KeyedMap.Keyed key initial
  changes : List (P × TableChange V)
  increasing : changes.Pairwise (fun a b => order.Lt a.1 b.1)

namespace SourceTable

variable {key : Row V → String} (src : SourceTable P V key)

def tableAt (p : P) : Store V :=
  (src.changes.filter (fun c => decide (src.order.Le c.1 p))).foldl
    (fun table c => c.2.apply key table) src.initial

lemma keyed_tableAt (p : P) : KeyedMap.Keyed key (src.tableAt p) := by
  unfold tableAt
  generalize src.changes.filter (fun c => decide (src.order.Le c.1 p)) = log
  have hkd := src.keyed
  generalize src.initial = table at hkd ⊢
  induction log generalizing table with
  | nil => exact hkd
  | cons c log ih => exact ih _ (c.2.keyed_apply hkd)

structure IsNext (p : P) (c : P × TableChange V) : Prop where
  mem : c ∈ src.changes
  after : src.order.Lt p c.1
  first : ∀ d ∈ src.changes, src.order.Lt p d.1 → src.order.Le c.1 d.1

variable {src} {q : P}

lemma tableAt_congr {p : P} (h : ∀ c ∈ src.changes, src.order.Le c.1 p ↔ src.order.Le c.1 q) :
    src.tableAt p = src.tableAt q := by
  unfold tableAt
  rw [filter_congr (q := fun c => decide (src.order.Le c.1 q))]
  intro c hc
  exact decide_eq_decide.mpr (h c hc)

lemma tableAt_eq_of_le {p : P} (hpq : src.order.Le p q) (hqp : src.order.Le q p) :
    src.tableAt p = src.tableAt q :=
  tableAt_congr fun _ _ => ⟨fun h => h.trans hpq, fun h => h.trans hqp⟩

lemma IsNext.tableAt_between {p : P} {c : P × TableChange V} (hc : src.IsNext p c)
    (hpq : src.order.Le p q) (hq : src.order.Lt q c.1) : src.tableAt q = src.tableAt p := by
  refine tableAt_congr fun d hd => ⟨fun hdq => ?_, fun hdp => hdp.trans hpq⟩
  by_contra hdp
  have hcd := hc.first d hd (Comparator.not_le.mp hdp)
  exact ((hcd.trans hdq).trans_lt hq).irrefl

lemma IsNext.tableAt {p : P} {c : P × TableChange V} (hc : src.IsNext p c) :
    src.tableAt c.1 = c.2.apply key (src.tableAt p) := by
  obtain ⟨l₁, l₂, hspl⟩ := append_of_mem hc.mem
  have hinc := src.increasing
  rw [hspl, pairwise_append, pairwise_cons] at hinc
  obtain ⟨-, ⟨hlater, -⟩, hbefore⟩ := hinc
  -- what comes before `c` in the log is at or before `p`, what comes after is not
  have hleft : ∀ d ∈ l₁, src.order.Le d.1 c.1 ∧ src.order.Le d.1 p := by
    intro d hd
    have hdc := hbefore d hd c mem_cons_self
    refine ⟨hdc.le, Comparator.not_lt.mp fun hpd => ?_⟩
    have hcd := hc.first d (by simp [hspl, hd]) hpd
    exact (hcd.trans_lt hdc).irrefl
  have hright : ∀ d ∈ l₂, ¬ src.order.Le d.1 c.1 ∧ ¬ src.order.Le d.1 p := fun d hd =>
    ⟨(hlater d hd).not_le, (hc.after.trans (hlater d hd)).not_le⟩
  have hat : src.changes.filter (fun d => decide (src.order.Le d.1 c.1)) = l₁ ++ [c] := by
    rw [hspl, filter_append, filter_eq_self.mpr (by simpa using fun a b h => (hleft (a, b) h).1),
      filter_cons_of_pos (by simpa using Comparator.Le.refl _ _),
      filter_eq_nil_iff.mpr (by simpa using fun a b h => (hright (a, b) h).1)]
  have hbef : src.changes.filter (fun d => decide (src.order.Le d.1 p)) = l₁ := by
    rw [hspl, filter_append, filter_eq_self.mpr (by simpa using fun a b h => (hleft (a, b) h).2),
      filter_cons_of_neg (by simpa using hc.after.not_le),
      filter_eq_nil_iff.mpr (by simpa using fun a b h => (hright (a, b) h).2), append_nil]
  unfold SourceTable.tableAt
  rw [hat, hbef, foldl_append]
  rfl

lemma filter_upTo_split {order : PositionOrder P} {log : List (P × TableChange V)}
    (hinc : log.Pairwise (fun x y => order.Lt x.1 y.1)) {b : P} (hbq : order.Le b q) :
    log.filter (fun x => decide (order.Le x.1 q)) = log.filter (fun x => decide (order.Le x.1 b)) ++
        log.filter (fun x => decide (order.Le x.1 q) && decide (¬ order.Le x.1 b)) := by
  induction log with
  | nil => rfl
  | cons x rest ih =>
    obtain ⟨hx, hrest⟩ := pairwise_cons.mp hinc
    by_cases hxb : order.Le x.1 b
    · simp [hxb, hxb.trans hbq, ih hrest]
    · have hnone : rest.filter (fun x => decide (order.Le x.1 b)) = [] := by
        refine filter_eq_nil_iff.mpr fun y hy => ?_
        have hby := (Comparator.not_le.mp hxb).trans (hx y hy)
        simpa using hby.not_le
      have hih := ih hrest
      rw [hnone, nil_append] at hih
      simp [filter_cons, hxb, hnone, hih]

variable (src) in
def since (a : P) : SourceTable P V key where
  order := src.order
  initial := src.tableAt a
  keyed := src.keyed_tableAt a
  changes := src.changes.filter (fun x => decide (¬ src.order.Le x.1 a))
  increasing := src.increasing.filter _

lemma tableAt_since {a : P} (haq : src.order.Le a q) :
    (src.since a).tableAt q = src.tableAt q := by
  simp only [tableAt, since, List.filter_filter]
  rw [filter_upTo_split src.increasing haq, foldl_append]
  rfl

lemma replay_tableAt {done rest : List (P × TableChange V)} (hspl : src.changes = done ++ rest)
    {b : P} (hdone : ∀ x ∈ done, src.order.Le x.1 b) (hbq : src.order.Le b q) :
    TableChange.replay key (src.tableAt b) (rest.filter (fun x => decide (src.order.Le x.1 q))) =
      src.tableAt q := by
  have htab : ∀ p, (∀ x ∈ done, src.order.Le x.1 p) → src.tableAt p =
      TableChange.replay key src.initial
        (done ++ rest.filter (fun x => decide (src.order.Le x.1 p))) := by
    intro p hp
    unfold tableAt TableChange.replay
    rw [hspl, filter_append, filter_eq_self.mpr (fun x hx => by simpa using hp x hx)]
  have hinc := src.increasing
  rw [hspl] at hinc
  have hcut := filter_upTo_split (pairwise_append.mp hinc).2.1 hbq
  rw [hcut, htab b hdone, htab q fun x hx => (hdone x hx).trans hbq, hcut,
    TableChange.replay_append, TableChange.replay_again, ← TableChange.replay_append, append_assoc]

end SourceTable

end Laredo
