import Laredo.Engine.AckSafety
import Laredo.Engine.SyncTarget

/-!
# Row count

One pipeline into an `IndexedTarget` with what runs beside its consumer: `scanExpiredRows`,
`runValidationScanner`, and what loads rows.
-/

namespace Laredo.Engine

open Transition KeyedMap Shop Std List Option Function Row
open Fanout (Op)
open Memory (IndexedTarget buildKey)

inductive Worker
  | consumer
  | scanner
  | loader
  deriving DecidableEq

structure Tally (P V : Type) where
  target : IndexedTarget V
  expectedRows : Int
  owed : Worker → Option (Op P V)
  /-- `expiredKeys`: the rows still to delete, with the time each was found expired. -/
  collected : List (Row V × Int)
  expected : Option Int
  reports : List (Int × Int)
  halted : Bool

inductive TallyAct (P V : Type)
  | call (w : Worker) (op : Op P V)
  | count (w : Worker)
  | collect
  | expire (now : Int)
  | abandon
  | reset
  | restore (rows : List (Row V))
  | load
  | check

namespace Tally

variable {P V : Type}

def start (t : IndexedTarget V) : Tally P V := ⟨t, 0, fun _ => none, [], none, [], false⟩

def counted : Op P V → Int → Int
  | .onBaselineRow _, n | .onInsert _, n => n + 1
  | .onDelete _, n => n - 1
  | .onTruncate, _ => 0
  | _, n => n

variable [GoValue V]

def call (σ : Tally P V) (w : Worker) (op : Op P V) : Tally P V :=
  { σ with target := σ.target.apply op, owed := Function.update σ.owed w (some op) }

inductive Step (p : ResolvedPipeline V) (σ : Tally P V) : TallyAct P V → Tally P V → Prop
  | change {ch : TableChange V} (now : Int) (event : ChangeEvent P V)
      (hfree : σ.owed .consumer = none) (hcall : p.applyChangeToTarget now event = some ch) :
      Step p σ (.call .consumer ch.op) (σ.call .consumer ch.op)
  | baselineRow {r : Row V} (now : Int) (row : Row V) (hfree : σ.owed .loader = none)
      (hrow : p.baselineRow now row = some r) :
      Step p σ (.call .loader (.onBaselineRow r)) (σ.call .loader (.onBaselineRow r))
  | truncate (hfree : σ.owed .loader = none) :
      Step p σ (.call .loader .onTruncate) (σ.call .loader .onTruncate)
  | count {w : Worker} {op : Op P V} (howed : σ.owed w = some op) :
      Step p σ (.count w)
        { σ with
          expectedRows := counted op σ.expectedRows
          owed := Function.update σ.owed w none }
  | collect {rows : List (Row V)} (clock : Row V → Int) (hfree : σ.owed .scanner = none)
      (hidle : σ.collected = [])
      (hrows : rows.Perm ((σ.target.store.toList.map Prod.snd).filter
        fun r => p.isRowExpired (clock r) r)) :
      Step p σ .collect { σ with collected := rows.map fun r => (r, clock r) }
  | expire {row : Row V} {seen : Int} {rest : List (Row V × Int)} (now : Int)
      (hfree : σ.owed .scanner = none) (hnext : σ.collected = (row, seen) :: rest) :
      Step p σ (.expire now) { σ.call .scanner (.onDelete (some row)) with collected := rest }
  | abandon : Step p σ .abandon { σ with collected := [] }
  | reset (hfree : σ.owed .loader = none) : Step p σ .reset { σ with expectedRows := 0 }
  | restore (rows : List (Row V)) (hfree : σ.owed .loader = none) :
      Step p σ (.restore rows) { σ with target := σ.target.restoreSnapshot rows }
  | load : Step p σ .load { σ with expected := some σ.expectedRows }
  | check {n : Int} (hloaded : σ.expected = some n) :
      Step p σ .check
        { σ with
          expected := none
          reports := σ.reports ++ [(n, (σ.target.count : Int))]
          halted := σ.halted || (n ≠ σ.target.count ∧ p.validationAction ≠ .warn) }

/-- The callback changes the number of rows the way it is counted: what is inserted is not
there, what is deleted is there, and an update replaces one row. -/
def Alters (t : IndexedTarget V) : Op P V → Prop
  | .onBaselineRow row | .onInsert row => buildKey t.pkCols row ∉ t.store
  | .onUpdate row identity =>
      if buildKey t.pkCols (orEmpty identity) ∈ t.store then
        buildKey t.pkCols row = buildKey t.pkCols (orEmpty identity) ∨
          buildKey t.pkCols row ∉ t.store
      else buildKey t.pkCols row ∈ t.store
  | .onDelete identity => buildKey t.pkCols (orEmpty identity) ∈ t.store
  | _ => True

def Fits (σ : Tally P V) (op : Op P V) : Prop :=
  Alters σ.target op ∧ (∀ w, σ.owed w ≠ some .onTruncate) ∧
    (op = .onTruncate → ∀ w, σ.owed w = none)

/-- The counter stays even with the rows: the callbacks fit, a baseline starts on an empty
target, a snapshot has as many rows as were counted, and nothing comes between the two reads
of the validation. -/
def Even (σ : Tally P V) : TallyAct P V → Prop
  | .call _ op => σ.Fits op
  | .expire _ => ∀ row seen rest, σ.collected = (row, seen) :: rest → σ.Fits (.onDelete (some row))
  | .reset => (∀ w, σ.owed w = none) ∧ σ.target.store = ∅
  | .restore rows => (∀ w, σ.owed w = none) ∧ (rows.map (buildKey σ.target.pkCols)).Nodup ∧
      rows.length = σ.expectedRows
  | .check => (∀ w, σ.owed w = none) ∧ σ.expected = some σ.expectedRows
  | _ => True

lemma count_apply {t : IndexedTarget V} {op : Op P V} (h : Alters t op) :
    ((t.apply op).count : Int) = counted op t.count := by
  cases op with
  | onBaselineRow row | onInsert row =>
    have hsize := size_put (buildKey t.pkCols) t.store row
    rw [if_neg h] at hsize
    simp [IndexedTarget.apply, IndexedTarget.count, counted, hsize]
  | onBaselineComplete | setChangePosition | onTruncate => rfl
  | onDelete identity =>
    have hsize := size_erase (show _ ∈ t.store from h)
    simp only [IndexedTarget.apply, IndexedTarget.count, counted, (t.store_onDelete identity).1]
    omega
  | onUpdate row identity =>
    simp only [IndexedTarget.apply, IndexedTarget.count, counted,
      (t.store_onUpdate row identity).1, size_put, ExtTreeMap.mem_erase, ne_eq,
      Std.LawfulEqOrd.compare_eq_iff_eq]
    by_cases hold : buildKey t.pkCols (orEmpty identity) ∈ t.store
    · have hsize := size_erase hold
      simp only [Alters, if_pos hold] at h
      rw [if_neg (by grind), hsize]
    · simp only [Alters, if_neg hold] at h
      have hne : buildKey t.pkCols (orEmpty identity) ≠ buildKey t.pkCols row := by grind
      rw [if_pos ⟨hne, h⟩, erase_eq_of_none (ExtTreeMap.getElem?_eq_none hold)]

omit [GoValue V] in
lemma counted_eq_add {op : Op P V} (h : op ≠ .onTruncate) (n : Int) :
    counted op n = n + counted op 0 := by
  cases op <;> simp_all [counted, Int.sub_eq_add_neg]

def worth : Option (Op P V) → Int
  | some op => counted op 0
  | none => 0

def dues (owed : Worker → Option (Op P V)) : Int :=
  worth (owed .consumer) + worth (owed .scanner) + worth (owed .loader)

omit [GoValue V] in
lemma dues_update (owed : Worker → Option (Op P V)) (w : Worker) (o : Option (Op P V)) :
    dues (Function.update owed w o) = dues owed - worth (owed w) + worth o := by
  cases w <;> simp only [dues, update_self, ne_eq, reduceCtorEq, not_false_eq_true,
    update_of_ne] <;> omega

/-- The counter with what is still owed to it is the number of rows. A truncate is owed by one
alone. -/
structure Balanced (σ : Tally P V) : Prop where
  even : (∀ w, σ.owed w ≠ some .onTruncate) → σ.expectedRows + dues σ.owed = σ.target.count
  truncated : ∀ w, σ.owed w = some .onTruncate →
    σ.target.count = 0 ∧ ∀ w', w' ≠ w → σ.owed w' = none
  reports : ∀ r ∈ σ.reports, r.1 = r.2
  halted : σ.halted = false

variable {p : ResolvedPipeline V} {σ σ' : Tally P V} {w : Worker} {op : Op P V} {a : TallyAct P V}

omit [GoValue V] in
lemma Balanced.settled (h : σ.Balanced) (howed : ∀ w, σ.owed w = none) :
    σ.expectedRows = σ.target.count := by
  have heven := h.even fun w => by simp [howed w]
  simpa [dues, worth, howed] using heven

lemma Balanced.call (h : σ.Balanced) (hfree : σ.owed w = none) (hfits : σ.Fits op) :
    (σ.call w op).Balanced := by
  obtain ⟨halters, hnone, hfst⟩ := hfits
  have hcount := count_apply halters
  by_cases hop : op = .onTruncate
  · subst hop
    refine ⟨fun hnot => absurd (update_self ..) (hnot w), ?_, h.reports, h.halted⟩
    intro w' hw'
    obtain rfl : w' = w := by
      by_contra hne
      simp [Tally.call, update_of_ne hne, hfst rfl] at hw'
    refine ⟨rfl, fun w'' hne => ?_⟩
    simp [Tally.call, update_of_ne hne, hfst rfl]
  · have heven := h.even hnone
    rw [counted_eq_add hop] at hcount
    refine ⟨fun _ => ?_, fun w' hw' => ?_, h.reports, h.halted⟩
    · simp only [Tally.call, dues_update, hfree, worth]
      omega
    · by_cases hne : w' = w
      · subst hne
        simp [Tally.call, hop] at hw'
      · simp [Tally.call, update_of_ne hne, hnone] at hw'

omit [GoValue V] in
lemma Balanced.count (h : σ.Balanced) (howed : σ.owed w = some op) : Balanced { σ with
      expectedRows := counted op σ.expectedRows, owed := Function.update σ.owed w none } := by
  by_cases hop : op = .onTruncate
  · subst hop
    obtain ⟨hzero, hothers⟩ := h.truncated w howed
    have hnone : ∀ w', Function.update σ.owed w none w' = none := by
      intro w'
      by_cases hne : w' = w
      · simp [hne]
      · simp [update_of_ne hne, hothers w' hne]
    refine ⟨fun _ => ?_, fun w' hw' => ?_, h.reports, h.halted⟩
    · simp [dues, worth, hnone, counted, hzero]
    · cases (hnone w').symm.trans hw'
  · -- whoever owed a truncate would owe it alone
    have hnone : ∀ w', σ.owed w' ≠ some .onTruncate := by
      intro w' hw'
      by_cases hne : w = w'
      · subst hne
        exact hop (some.inj (howed.symm.trans hw'))
      · cases howed.symm.trans ((h.truncated w' hw').2 w hne)
    have heven := h.even hnone
    refine ⟨fun _ => ?_, fun w' hw' => ?_, h.reports, h.halted⟩
    · simp only [dues_update, howed, counted_eq_add hop σ.expectedRows, worth]
      omega
    · by_cases hne : w' = w
      · simp [hne] at hw'
      · exact absurd ((update_of_ne hne ..).symm.trans hw') (hnone w')

lemma count_restoreSnapshot {t : IndexedTarget V} {rows : List (Row V)}
    (h : (rows.map (buildKey t.pkCols)).Nodup) : (t.restoreSnapshot rows).count = rows.length := by
  have hrows := ((SyncTarget.indexed t : SyncTarget Unit V).rows_restoreSnapshot rows).1
  have hsize := (size_load_eq_iff (buildKey t.pkCols) ∅ rows).mpr ⟨h, by simp⟩
  rw [ExtTreeMap.size_empty, Nat.zero_add] at hsize
  exact (congrArg ExtTreeMap.size hrows).trans hsize

lemma Balanced.step (h : σ.Balanced) (hok : σ.Even a) (hs : Step p σ a σ') : σ'.Balanced := by
  cases hs with
  | change _ _ hfree _ | baselineRow _ _ hfree _ | truncate hfree => exact h.call hfree hok
  | count howed => exact h.count howed
  | expire _ hfree hnext =>
    obtain ⟨heven, htrun, hreports, hhalted⟩ := h.call hfree (hok _ _ _ hnext)
    exact ⟨heven, htrun, hreports, hhalted⟩
  | collect | abandon | load => exact ⟨h.even, h.truncated, h.reports, h.halted⟩
  | reset _ =>
    obtain ⟨howed, hemp⟩ := hok
    refine ⟨fun _ => ?_, fun w hw => ?_, h.reports, h.halted⟩
    · simp [dues, worth, howed, IndexedTarget.count, hemp]
    · cases (howed w).symm.trans hw
  | restore rows _ =>
    obtain ⟨howed, hnd, hlen⟩ := hok
    refine ⟨fun _ => ?_, fun w hw => ?_, h.reports, h.halted⟩
    · rw [count_restoreSnapshot hnd, hlen]
      simp [dues, worth, howed]
    · cases (howed w).symm.trans hw
  | check hloaded =>
    obtain ⟨howed, hexpe⟩ := hok
    cases hexpe.symm.trans hloaded
    have hcount := h.settled howed
    refine ⟨h.even, h.truncated, ?_, ?_⟩
    · intro r hr
      rcases mem_append.mp hr with hr | hr
      · exact h.reports r hr
      · obtain rfl := mem_singleton.mp hr
        exact hcount
    · simp [hcount, h.halted]

/-- **The drift counter equals the row count while every callback is counted for what it does**,
when nobody is between a callback and its count; and no validation moves the pipeline to ERROR. -/
theorem drift_counter_is_even (p : ResolvedPipeline V) {t : IndexedTarget V} (ht : t.store = ∅)
    {σ : Tally P V} (hreach : Reach (Step p) Even (start t) σ) :
    ((∀ w, σ.owed w = none) → σ.expectedRows = σ.target.count) ∧
      (∀ r ∈ σ.reports, r.1 = r.2) ∧ σ.halted = false := by
  have h : σ.Balanced := by
    refine hreach.invariant Balanced ?_ fun h hok hs => h.step hok hs
    refine ⟨fun _ => ?_, nofun, nofun, rfl⟩
    simp [start, dues, worth, IndexedTarget.count, ht]
  exact ⟨h.settled, h.reports, h.halted⟩

def shopPipeline : ResolvedPipeline Text where
  table := accounts.table
  ttlFunc := some fun row => if row.contains "renewed" then some 100 else some 10
  validationAction := .fail

def shopStart : Tally Int Text := start { IndexedTarget.new [] [] with pkCols := ["id"] }

theorem drift_counter_is_even_run : ∃ σ : Tally Int Text,
    Reach (Step shopPipeline) Even shopStart σ ∧ σ.reports = [(1, 1), (0, 0)] ∧
      ((∀ w, σ.owed w = none) → σ.expectedRows = σ.target.count) ∧
      (∀ r ∈ σ.reports, r.1 = r.2) ∧ σ.halted = false := by
  have h : Reach (Step shopPipeline) Even shopStart _ := .refl _
  have h := h
    |>.snoc (.change 0 (insert .accounts 11 "7") rfl rfl)
    |>.snoc (.count (w := .consumer) rfl)
    |>.snoc .load
    |>.snoc (.check rfl)
    |>.snoc (.collect (fun _ => 20) rfl rfl (.refl _))
    |>.snoc (.expire 20 rfl rfl) (by
      intro row seen rest hnext
      cases hnext
      exact ⟨rfl, by rintro ⟨⟩ <;> nofun, nofun⟩)
    |>.snoc (.count (w := .scanner) rfl)
    |>.snoc .load
    |>.snoc (.check rfl)
  exact ⟨_, h, rfl, drift_counter_is_even shopPipeline rfl h⟩

/-- A snapshot with one row is restored and not counted, and the validation moves the pipeline to
ERROR. -/
theorem drift_counter_goes_astray :
    (∃ σ, Run (Step shopPipeline) shopStart σ ∧
      (∀ w, σ.owed w = none) ∧ σ.reports = [(0, 1)] ∧ σ.halted = true) ∧
    ∃ σ, Run (Step shopPipeline) shopStart σ ∧
      (∀ w, σ.owed w = none) ∧ σ.expectedRows = 2 ∧ σ.target.count = 1 := by
  constructor
  · have h : Run (Step shopPipeline) shopStart _ := .refl _
    have h := h
      |>.snoc (.restore [row "7"] rfl)
      |>.snoc .load
      |>.snoc (.check rfl)
    exact ⟨_, h, fun _ => rfl, rfl, rfl⟩
  · have h : Run (Step shopPipeline) shopStart _ := .refl _
    have h := h
      |>.snoc (.change 0 (insert .accounts 11 "7") rfl rfl)
      |>.snoc (.count (w := .consumer) rfl)
      |>.snoc (.change 0 (insert .accounts 11 "7") rfl rfl)
      |>.snoc (.count (w := .consumer) rfl)
    exact ⟨_, h, by rintro ⟨⟩ <;> rfl, rfl, rfl⟩

omit [GoValue V] in
lemma isRowExpired_mono {p : ResolvedPipeline V} {r : Row V} {t now : Int}
    (h : p.isRowExpired t r = true) (hle : t ≤ now) : p.isRowExpired now r = true := by
  unfold ResolvedPipeline.isRowExpired at h ⊢
  grind

def Due (p : ResolvedPipeline V) (σ : Tally P V) : Prop :=
  ∀ x ∈ σ.collected, p.isRowExpired x.2 x.1 = true

lemma Due.step (h : σ.Due p) (hs : Step p σ a σ') : σ'.Due p := by
  cases hs with
  | collect clock _ _ hrows =>
    intro x hx
    obtain ⟨r, hr, rfl⟩ := List.mem_map.mp hx
    exact (List.mem_filter.mp (hrows.mem_iff.mp hr)).2
  | expire _ _ hnext => exact fun x hx => h x (hnext ▸ mem_cons_of_mem _ hx)
  | abandon => nofun
  | _ => exact h

/-- The row that is deleted next is not stored any more, or it is stored as it was seen; and the
clock has not gone back since. -/
def Current (σ : Tally P V) (now : Int) : Prop :=
  ∀ row seen rest, σ.collected = (row, seen) :: rest → seen ≤ now ∧
    ∀ r, σ.target.store[buildKey σ.target.pkCols row]? = some r → r = row

/-- **The scanner deletes expired rows only, if they are as it has seen them.** In every
interleaving with the consumer and the loader, a delete of the scanner leaves every row where it
is that has not expired at that time. -/
theorem scanner_deletes_expired (p : ResolvedPipeline V) (t : IndexedTarget V) {σ σ' : Tally P V}
    (hreach : Run (Step p) (start t) σ) {now : Int}
    (hs : Step p σ (.expire now) σ') (hcurrent : σ.Current now) (k : String) (r : Row V)
    (hr : σ.target.store[k]? = some r) :
    σ'.target.store[k]? = some r ∨ p.isRowExpired now r = true := by
  have hdue : σ.Due p := hreach.invariant (Due p) nofun fun h _ hs => h.step hs
  cases hs with
  | @expire row seen rest _ _ hnext =>
    obtain ⟨hle, hsame⟩ := hcurrent row seen rest hnext
    have hst := (σ.target.store_onDelete (some row)).1
    by_cases hk : buildKey σ.target.pkCols row = k
    · obtain rfl := hsame r (hk ▸ hr)
      exact .inr (isRowExpired_mono (hdue (r, seen) (hnext ▸ mem_cons_self)) hle)
    · refine .inl ((congrArg (·[k]?) hst).trans ?_)
      rw [getElem?_erase, if_neg (by exact hk), hr]

theorem scanner_deletes_expired_run : ∃ σ σ' : Tally Int Text, Run (Step shopPipeline) shopStart σ ∧
      Step shopPipeline σ (.expire 21) σ' ∧ σ.Current 21 ∧ σ.target.count = 1 ∧
      σ'.target.count = 0 ∧ ∀ (k : String) r, σ.target.store[k]? = some r →
        σ'.target.store[k]? = some r ∨ shopPipeline.isRowExpired 21 r = true := by
  have h : Run (Step shopPipeline) shopStart _ := .refl _
  have h := h
    |>.snoc (.change 0 (insert .accounts 11 "7") rfl rfl)
    |>.snoc (.count (w := .consumer) rfl)
    |>.snoc (.collect (fun _ => 20) rfl rfl (.refl _))
  refine ⟨_, _, h, .expire 21 rfl rfl, ?current, rfl, rfl,
    scanner_deletes_expired shopPipeline _ h (.expire 21 rfl rfl) ?current⟩
  intro row seen rest hnext
  cases hnext
  exact ⟨by decide, fun r hr => (some.inj hr).symm⟩

/-- The row is renewed until 100 after the scanner has seen it at 20, and deleted at 21. -/
theorem refreshed_row_is_deleted : ∃ σ σ' : Tally Int Text, Run (Step shopPipeline) shopStart σ ∧
      Step shopPipeline σ (.expire 21) σ' ∧
      (∃ r, σ.target.store.toList.map Prod.snd = [r] ∧ shopPipeline.isRowExpired 21 r = false) ∧
      σ'.target.count = 0 := by
  have h : Run (Step shopPipeline) shopStart _ := .refl _
  have h := h
    |>.snoc (.change 0 (insert .accounts 11 "7") rfl rfl)
    |>.snoc (.count (w := .consumer) rfl)
    |>.snoc (.collect (fun _ => 20) rfl rfl (.refl _))
    |>.snoc (.change 20 ⟨accounts.table, .update, some 12,
      some ((row "7").insert "renewed" none), some (row "7")⟩ rfl rfl)
  exact ⟨_, _, h, .expire 21 rfl rfl, ⟨_, rfl, rfl⟩, rfl⟩

end Tally

end Laredo.Engine
