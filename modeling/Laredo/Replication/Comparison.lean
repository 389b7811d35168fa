import Laredo.Replication.Filter

/-!
# Comparison

The comparisons of a subscription filter on Go values
(`service/replication/subscription_filter.go`).
-/

namespace Laredo.Replication

open FilterValue Row
open Fanout (JournalEntry)

inductive NumberType
  | int | int8 | int16 | int32 | int64 | uint | uint8 | uint16 | uint32 | uint64 | float32 | float64
  deriving DecidableEq

inductive CompositeType
  | list | object | bytes
  deriving DecidableEq

inductive Any (N C : Type)
  | nil
  | bool (b : Bool)
  | str (s : String)
  | number (ty : NumberType) (n : N)
  | composite (ty : CompositeType) (content : C)

/-- Conversion to `float64`, `==` on `float64`, and `%v`. -/
class GoNumber (N C : Type) where
  toFloat64 : NumberType → N → N
  eq : N → N → Bool
  sprintNumber : NumberType → N → String
  sprintComposite : CompositeType → C → String

namespace Any

variable {N C : Type} [GoNumber N C]

def normalize : Any N C → Any N C
  | .number .float64 n => .number .float64 n
  | .number ty n => .number .float64 (GoNumber.toFloat64 C ty n)
  | v => v

def equal : Any N C → Any N C → Option Bool
  | .nil, .nil => some true
  | .bool a, .bool b => some (a = b)
  | .str s, .str t => some (s = t)
  | .number ty n, .number ty' n' => some (ty = ty' && GoNumber.eq C n n')
  | .composite ty _, .composite ty' _ => if ty = ty' then none else some false
  | _, _ => some false

def Same : Any N C → Any N C → Prop
  | .nil, .nil => True
  | .bool a, .bool b => a = b
  | .str s, .str t => s = t
  | .number ty n, .number ty' n' => ty = ty' ∧ GoNumber.eq C n n' = true
  | .composite ty content, .composite ty' content' => ty = ty' ∧ content = content'
  | _, _ => False

def Clash : Any N C → Any N C → Prop
  | .composite ty _, .composite ty' _ => ty = ty'
  | _, _ => False

lemma equal_eq_none_iff (v w : Any N C) : v.equal w = none ↔ v.Clash w := by
  cases v <;> cases w <;> simp [equal, Clash]

lemma equal_iff_same {v w : Any N C} {b : Bool} (h : v.equal w = some b) :
    b = true ↔ v.Same w := by
  cases v <;> cases w <;> grind [equal, Same]

end Any

variable {N C P : Type} [GoNumber N C]

instance : FilterValue (Any N C) where
  nil := .nil
  sprint
    | .nil => "<nil>"
    | .bool b => toString b
    | .str s => s
    | .number ty n => GoNumber.sprintNumber C ty n
    | .composite ty content => GoNumber.sprintComposite N ty content
  sprint_nil := rfl
  isNil v := v matches .nil
  isNil_iff v := by cases v <;> simp
  normalize := Any.normalize
  eq v w := (v.equal w).getD false
  asString
    | .str s => some s
    | _ => none

/-- A loop that returns `stop` at the first element with that answer; `none` is a panic. -/
def scan {α : Type} (stop : Bool) (f : α → Option Bool) : List α → Option Bool
  | [] => some !stop
  | x :: xs =>
      match f x with
      | none => none
      | some b => if b = stop then some stop else scan stop f xs

def Reached {α : Type} (stop : Bool) (f : α → Option Bool) (bad : α → Prop) (xs : List α) : Prop :=
  ∃ before x after, xs = before ++ x :: after ∧ (∀ y ∈ before, f y = some !stop) ∧ bad x

section

variable {α : Type} {stop : Bool} {f : α → Option Bool} {bad : α → Prop} {xs : List α}

lemma scan_eq_none_iff (hbad : ∀ x, f x = none ↔ bad x) :
    scan stop f xs = none ↔ Reached stop f bad xs := by
  induction xs with
  | nil => simp [scan, Reached]
  | cons x xs ih =>
    have hcons : Reached stop f bad (x :: xs) ↔ bad x ∨ f x = some !stop ∧
        Reached stop f bad xs := by
      constructor
      · rintro ⟨before, y, after, heq, hbef, hy⟩
        cases before with
        | nil =>
          cases heq
          exact .inl hy
        | cons z before =>
          cases heq
          exact .inr ⟨hbef _ List.mem_cons_self, before, y, after, rfl,
            fun w hw => hbef w (List.mem_cons_of_mem _ hw), hy⟩
      · rintro (hx | ⟨hx, before, y, after, rfl, hbef, hy⟩)
        · exact ⟨[], x, xs, rfl, by simp, hx⟩
        · exact ⟨x :: before, y, after, rfl, by simpa [hx] using hbef, hy⟩
    rw [hcons, ← hbad, ← ih, scan]
    cases f x with
    | none => simp
    | some b => cases b <;> cases stop <;> simp

lemma scan_eq_some {b : Bool} (h : scan stop f xs = some b) :
    (b = stop ∧ ∃ x ∈ xs, f x = some stop) ∨ (b = !stop) ∧ ∀ x ∈ xs, f x = some !stop := by
  induction xs with
  | nil =>
    cases h
    simp
  | cons x xs ih =>
    rw [scan] at h
    split at h
    · cases h
    next c hc =>
      split at h
      next hstop =>
        cases h
        exact .inl ⟨rfl, x, List.mem_cons_self, hstop ▸ hc⟩
      next hgo =>
        have hx : f x = some !stop := by cases c <;> cases stop <;> simp_all
        rcases ih h with ⟨hb, y, hy, hstop⟩ | ⟨hb, hall⟩
        · exact .inl ⟨hb, y, List.mem_cons_of_mem _ hy, hstop⟩
        · exact .inr ⟨hb, by simpa [hx] using hall⟩

end

def Condition.run (v : Any N C) : Condition (Any N C) → Option Bool
  | .equals want => v.normalize.equal want
  | .startsWith start =>
      match asString v with
      | some s => some (start.toList.isPrefixOf s.toList)
      | none => some false
  | .oneOf wants => scan true v.normalize.equal wants

def CompiledPredicate.run (p : CompiledPredicate (Any N C)) (row : Option (Row (Any N C))) :
    Option Bool :=
  match (orEmpty row)[p.field]? with
  | none => some false
  | some v => if isNil v then some false else p.cond.run v

def runRow (f : SubscriptionFilter (Any N C)) (row : Option (Row (Any N C))) : Option Bool :=
  scan false (fun p => p.run row) f.preds

def runEntry (f : SubscriptionFilter (Any N C)) (e : JournalEntry P (Any N C)) : Option Bool :=
  match e.action with
  | .delete => runRow f e.oldValues
  | .truncate => some true
  | .insert | .update => runRow f e.newValues

section

variable (v : Any N C)

def Condition.Holds : Condition (Any N C) → Prop
  | .equals want => v.normalize.Same want
  | .startsWith start => ∃ s, v = .str s ∧ start.toList.isPrefixOf s.toList
  | .oneOf wants => ∃ want ∈ wants, v.normalize.Same want

/-- The condition gets to comparing two lists, two objects or two byte slices. -/
def Condition.Clashes : Condition (Any N C) → Prop
  | .equals want => v.normalize.Clash want
  | .startsWith _ => False
  | .oneOf wants => Reached true v.normalize.equal v.normalize.Clash wants

variable {v} {cond : Condition (Any N C)}

lemma Condition.run_eq_none_iff : cond.run v = none ↔ cond.Clashes v := by
  cases cond with
  | equals want => exact Any.equal_eq_none_iff _ _
  | startsWith start => cases v <;> simp [run, Clashes, asString]
  | oneOf wants => exact scan_eq_none_iff (Any.equal_eq_none_iff _)

lemma Condition.run_iff_holds {b : Bool} (h : cond.run v = some b) : b = true ↔ cond.Holds v := by
  cases cond with
  | equals want => exact Any.equal_iff_same h
  | startsWith start =>
    cases v with
    | str s =>
      have hb := Option.some.inj h
      simp [Holds, ← hb]
    | _ => simp_all [run, Holds, asString]
  | oneOf wants =>
    rcases scan_eq_some h with ⟨rfl, want, hwant, heq⟩ | ⟨rfl, hall⟩
    · exact iff_of_true rfl ⟨want, hwant, (Any.equal_iff_same heq).mp rfl⟩
    · refine iff_of_false (by simp) ?_
      rintro ⟨want, hwant, hsame⟩
      exact absurd ((Any.equal_iff_same (hall want hwant)).mpr hsame) (by simp)

lemma Condition.not_clashes_nil : ¬ cond.Clashes (.nil : Any N C) := by
  cases cond <;> simp [Clashes, Any.normalize, Any.Clash, Reached]

end

namespace CompiledPredicate

variable (p : CompiledPredicate (Any N C)) (row : Option (Row (Any N C)))

def Holds : Prop := ∃ v, (orEmpty row)[p.field]? = some v ∧ p.cond.Holds v

def Clashes : Prop := ∃ v, (orEmpty row)[p.field]? = some v ∧ p.cond.Clashes v

def AsksNull : Prop := (orEmpty row)[p.field]? = some .nil ∧ p.cond.Holds (.nil : Any N C)

variable {p row}

lemma run_eq_none_iff : p.run row = none ↔ p.Clashes row := by
  unfold run Clashes
  cases (orEmpty row)[p.field]? with
  | none => simp
  | some v =>
    cases v with
    | nil => simpa [isNil] using Condition.not_clashes_nil
    | _ => simp [isNil, Condition.run_eq_none_iff]

lemma run_iff_holds_iff {b : Bool} (h : p.run row = some b) :
    (b = true ↔ p.Holds row) ↔ ¬ p.AsksNull row := by
  unfold run at h
  unfold Holds AsksNull
  cases hcol : (orEmpty row)[p.field]? with
  | none => simp_all
  | some v =>
    simp only [hcol] at h
    split at h
    next hnil =>
      obtain rfl : v = .nil := (isNil_iff v).mp hnil
      cases h
      simp
    next hnil =>
      have hne : v ≠ .nil := fun heq => hnil ((isNil_iff v).mpr heq)
      simp [Condition.run_iff_holds h, hne]

lemma matchRow_of_run {b : Bool} (h : p.run row = some b) : p.matchRow row = b := by
  unfold run at h
  unfold CompiledPredicate.matchRow
  cases hcol : (orEmpty row)[p.field]? with
  | none => simp_all
  | some v =>
    simp only [hcol] at h ⊢
    split at h
    next hnil => simp_all
    next hnil =>
      rw [if_neg hnil]
      cases hcond : p.cond with
      | equals want =>
        simp only [hcond, Condition.run] at h
        simp [eq, FilterValue.normalize, h]
      | startsWith start =>
        simp only [hcond, Condition.run] at h
        split at h <;> simp_all
      | oneOf wants =>
        rw [hcond] at h
        rcases scan_eq_some h with ⟨rfl, want, hwant, heq⟩ | ⟨rfl, hall⟩
        · refine List.any_eq_true.mpr ⟨want, hwant, ?_⟩
          simp [eq, FilterValue.normalize, heq]
        · refine List.any_eq_false.mpr fun want hwant => ?_
          simp [eq, FilterValue.normalize, hall want hwant]

end CompiledPredicate

variable {f : SubscriptionFilter (Any N C)} {row : Option (Row (Any N C))}

def Unpanicked (f : SubscriptionFilter (Any N C)) (row : Option (Row (Any N C))) : Prop :=
  ¬ Reached false (fun p => p.run row) (fun p => p.Clashes row) f.preds

lemma runRow_eq_iff : runRow f row = some (matchRow (some f) row) ↔ Unpanicked f row := by
  unfold Unpanicked
  rw [← scan_eq_none_iff fun p : CompiledPredicate (Any N C) => p.run_eq_none_iff]
  cases hrun : scan false (fun p => p.run row) f.preds with
  | none => simp [runRow, hrun]
  | some b =>
    suffices matchRow (some f) row = b by simp [runRow, hrun, this]
    rcases scan_eq_some hrun with ⟨rfl, p, hp, hfalse⟩ | ⟨rfl, hall⟩
    · exact List.all_eq_false.mpr ⟨p, hp, by simp [CompiledPredicate.matchRow_of_run hfalse]⟩
    · exact List.all_eq_true.mpr fun p hp => CompiledPredicate.matchRow_of_run (hall p hp)

/-- **A filter has a verdict** just when no comparison it gets to is of two lists, two objects or
two byte slices; and what a predicate then says is whether it holds of the JSON value of the column
just when it does not ask a null column for null. -/
theorem verdict_iff (f : SubscriptionFilter (Any N C)) (row : Option (Row (Any N C)))
    (e : JournalEntry P (Any N C)) :
    ((runRow f row = some (matchRow (some f) row) ∧
      ∀ p ∈ f.preds, p.run row ≠ none → (p.matchRow row = true ↔ p.Holds row)) ↔
      Unpanicked f row ∧ ∀ p ∈ f.preds, ¬ p.Clashes row → ¬ p.AsksNull row) ∧
    (runEntry f e = some (matchEntry (some f) e) ↔ (e.action = .delete → Unpanicked f e.oldValues) ∧
      (e.action = .insert ∨ e.action = .update → Unpanicked f e.newValues)) := by
  refine ⟨and_congr runRow_eq_iff (forall₂_congr fun p hp => ?_), ?_⟩
  · rw [← p.run_eq_none_iff]
    refine forall_congr' fun hrun => ?_
    obtain ⟨b, hb⟩ := Option.ne_none_iff_exists'.mp hrun
    rw [p.matchRow_of_run hb]
    exact p.run_iff_holds_iff hb
  · unfold runEntry matchEntry
    cases e.action <;> simp [runRow_eq_iff]

/-- Whole numbers, and composites by their text. -/
instance : GoNumber Int String where
  toFloat64 _ n := n
  eq n n' := n = n'
  sprintNumber _ n := toString n
  sprintComposite _ content := content

/-- A filter on a list is accepted, and panics on a row with a list in the column. -/
theorem list_predicate_panics : ∃ f : SubscriptionFilter (Any Int String),
    compileSubscriptionFilter [⟨"tags", some (.equals (.composite .list "[a]"))⟩] = .ok (some f) ∧
    runRow f (some (.ofList [("tags", Any.composite .list "[b]")])) = none :=
  ⟨_, rfl, rfl⟩

end Laredo.Replication
