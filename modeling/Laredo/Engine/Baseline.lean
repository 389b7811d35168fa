import Laredo.Engine.Lifecycle

/-!
# Baseline

What a baseline leaves in a target.
-/

namespace Laredo.Engine

open Transition List Shop

variable {ι P V : Type}

namespace ResolvedPipeline

variable (p : ResolvedPipeline V)

def given (i : ι) (es : List (Emitted ι V)) : List (Row V) :=
  (es.filter (fun e => decide (e.table = p.table))).filterMap fun e => p.baselineRow (e.now i) e.row

lemma given_cons (i : ι) (e : Emitted ι V) (es : List (Emitted ι V)) :
    p.given i (e :: es) = p.given i [e] ++ p.given i es := by
  simp only [given, ← filterMap_append, ← filter_append]
  rfl

lemma Plain.given {p : ResolvedPipeline V} (h : p.Plain) (i : ι) (es : List (Emitted ι V)) :
    p.given i es = (es.filter (fun e => decide (e.table = p.table))).map (·.row) := by
  simp [ResolvedPipeline.given, h.baselineRow]

end ResolvedPipeline

variable [GoValue V]

namespace Member

variable {m₀ m : Member P V} {rows : List (Row V)}

/-- The pipeline went into a baseline as `m₀` and was given `rows` so far, or it is out. -/
def Loaded (m₀ : Member P V) (rows : List (Row V)) (m : Member P V) : Prop :=
  (m.state = .error ∨ m.state = .stopped) ∨
    m.state = .baselining ∧ m.target.key = m₀.target.key ∧
      m.target.rows = KeyedMap.load m₀.target.key m₀.target.rows rows

lemma loaded_transition (m : Member P V) : m.Loaded [] (m.transition .baselining) := by
  unfold transition
  split
  · next hdead => exact .inl hdead
  · exact .inr ⟨rfl, rfl, rfl⟩

lemma Loaded.dispatchBaselineRow (p : ResolvedPipeline V) (i : ι) (e : Emitted ι V)
    (h : Loaded m₀ rows m) :
    Loaded m₀ (rows ++ p.given i [e]) (m.dispatchBaselineRow p i e) := by
  unfold Member.dispatchBaselineRow
  rcases h with hdead | ⟨hstt, hkey, hrows⟩
  · have hskip : p.table ≠ e.table ∨ m.state ≠ .baselining := by
      refine .inr fun hb => ?_
      rcases hdead with h | h <;> simp [hb] at h
    rw [if_pos hskip]
    exact .inl hdead
  · by_cases htab : e.table = p.table
    · have hpass : ¬ (p.table ≠ e.table ∨ m.state ≠ .baselining) := by simp [htab, hstt]
      rw [if_neg hpass]
      cases hrow : p.baselineRow (e.now i) e.row with
      | none =>
        refine .inr ⟨hstt, hkey, ?_⟩
        simpa [ResolvedPipeline.given, htab, hrow] using hrows
      | some r =>
        dsimp only
        split
        · exact .inl (.inl rfl)
        · obtain ⟨happly, hsame, -⟩ := m.target.rows_apply (e.append i) (.onBaselineRow r)
          refine .inr ⟨hstt, hsame.trans hkey, happly.trans ?_⟩
          simp [ResolvedPipeline.given, htab, hrow, SyncTarget.effect, hkey, hrows, KeyedMap.load]
    · have hskip : p.table ≠ e.table ∨ m.state ≠ .baselining := .inl (Ne.symm htab)
      rw [if_pos hskip]
      refine .inr ⟨hstt, hkey, ?_⟩
      simpa [ResolvedPipeline.given, htab] using hrows

lemma Loaded.foldl_dispatchBaselineRow (p : ResolvedPipeline V) (i : ι)
    (es : List (Emitted ι V)) (h : Loaded m₀ rows m) :
    Loaded m₀ (rows ++ p.given i es) (es.foldl (fun m e => m.dispatchBaselineRow p i e) m) := by
  induction es generalizing m rows with
  | nil => simpa [ResolvedPipeline.given] using h
  | cons e es ih =>
    rw [ResolvedPipeline.given_cons, ← append_assoc]
    exact ih (h.dispatchBaselineRow p i e)

lemma Loaded.completeBaseline (pos : Option P) (fails : Bool) (h : Loaded m₀ rows m) :
    Loaded m₀ rows (m.completeBaseline pos fails) := by
  unfold Member.completeBaseline
  split
  · exact h
  · split
    · exact .inl (.inl rfl)
    · -- neither callback touches the rows
      refine h.imp_right ?_
      rintro ⟨hstt, hkey, hrows⟩
      cases ht : m.target with
      | indexed t | fanout t =>
        rw [ht] at hkey hrows
        exact ⟨hstt, hkey, hrows⟩

lemma Loaded.validate (p : ResolvedPipeline V) (sourceCount : Nat) (h : Loaded m₀ rows m) :
    Loaded m₀ rows (m.validate p sourceCount) := by
  unfold Member.validate
  split
  · exact h
  · dsimp only
    split
    · exact h
    · split
      · exact h
      · exact .inl (.inl rfl)
      · exact .inl (.inl rfl)

lemma Loaded.not_streaming (h : Loaded m₀ rows m) : m.state ≠ .streaming := by
  rcases h with (h | h) | ⟨h, -⟩ <;> simp [h]

lemma Loaded.transition (h : Loaded m₀ rows m) (st : PipelineState) (hst : st ≠ .streaming) :
    (m.transition st).state ≠ .streaming := by
  unfold Member.transition
  split
  · exact h.not_streaming
  · exact hst

lemma Loaded.of_streaming (h : Loaded m₀ rows m)
    (hstt : (m.stream .baselining).state = .streaming) :
    (m.stream .baselining).target.rows = KeyedMap.load m₀.target.key m₀.target.rows rows := by
  rcases h with hdead | ⟨hbase, -, hrows⟩
  · unfold stream at hstt
    rcases hdead with h | h <;> simp [h] at hstt
  · unfold stream
    rw [if_pos hbase]
    exact hrows

end Member

namespace Fleet

variable (f : Fleet ι P V) (c : Config ι P V)

lemma member_dispatchRows (es : List (Emitted ι V)) (i : ι) :
    (es.foldl (fun f e => f.dispatchBaselineRow c e) f).member i =
      es.foldl (fun m e => m.dispatchBaselineRow (c.pipeline i) i e) (f.member i) := by
  induction es generalizing f with
  | nil => rfl
  | cons e es ih => exact ih (f.dispatchBaselineRow c e)

variable [DecidableEq ι]

lemma rows_runBaseline {b : BaselineRun ι P V} {i : ι} (hpl : (c.pipeline i).Plain)
    (hstt : ((f.runBaseline c b).2.member i).state = .streaming) :
    ((f.runBaseline c b).2.member i).target.rows =
      KeyedMap.load (f.member i).target.key (f.member i).target.rows
        (b.rowsFor (c.pipeline i).table) := by
  have hloaded :=
    (Member.loaded_transition (f.member i)).foldl_dispatchBaselineRow (c.pipeline i) i b.emitted
  rw [nil_append, hpl.given] at hloaded
  have hmb := (f.transitionPipelines .baselining).member_dispatchRows c b.emitted i
  rw [show (f.transitionPipelines .baselining).member i =
    (f.member i).transition .baselining from rfl]
    at hmb
  rw [← hmb] at hloaded
  unfold runBaseline at hstt ⊢
  cases hres : b.result with
  | none =>
    -- nobody is moved to STREAMING
    rw [hres] at hstt
    cases hctx : b.ctxDone with
    | true =>
      rw [hctx] at hstt
      exact absurd hstt hloaded.not_streaming
    | false =>
      rw [hctx] at hstt
      exact absurd hstt (hloaded.transition .error nofun)
  | some position =>
    rw [hres] at hstt
    exact ((hloaded.completeBaseline position _).validate _ _).of_streaming hstt

end Fleet

namespace Member

variable {m : Member P V}

lemma keyed_transition (h : m.target.Keyed) (st : PipelineState) :
    (m.transition st).target.Keyed := by
  unfold transition
  split <;> exact h

lemma keyed_stream (h : m.target.Keyed) (st : PipelineState) : (m.stream st).target.Keyed := by
  unfold stream
  split <;> exact h

lemma keyed_dispatchBaselineRow (h : m.target.Keyed) (p : ResolvedPipeline V) (i : ι)
    (e : Emitted ι V) : (m.dispatchBaselineRow p i e).target.Keyed := by
  unfold dispatchBaselineRow
  split
  · exact h
  · split
    · exact h
    · split
      · exact h
      · exact h.apply _ _

lemma keyed_completeBaseline (h : m.target.Keyed) (pos : Option P) (fails : Bool) :
    (m.completeBaseline pos fails).target.Keyed := by
  have hpos : (m.target.setChangePosition pos).Keyed ∧
      (m.target.setChangePosition pos).onBaselineComplete.Keyed := by
    cases ht : m.target with
    | indexed t | fanout t =>
      rw [ht] at h
      exact ⟨h, h⟩
  unfold completeBaseline
  split
  · exact h
  · split
    · exact hpos.1
    · exact hpos.2

lemma keyed_validate (h : m.target.Keyed) (p : ResolvedPipeline V) (sourceCount : Nat) :
    (m.validate p sourceCount).target.Keyed := by
  unfold validate
  split
  · exact h
  · dsimp only
    split
    · exact h
    · split <;> exact h

lemma keyed_onInit (h : m.target.rows = ∅) (cols : List ColumnDefinition) (fails : Bool) :
    (m.onInit cols fails).target.Keyed := by
  unfold onInit
  split
  · next target hinit =>
      split
      · exact .of_empty h
      · exact .of_empty (SyncTarget.rows_onInit hinit h)
  · exact .of_empty h

end Member

namespace Fleet

variable {f f' : Fleet ι P V} {c : Config ι P V}

def Keyed (f : Fleet ι P V) : Prop := ∀ i, (f.member i).target.Keyed

lemma Keyed.dispatchRows (h : f.Keyed) (es : List (Emitted ι V)) :
    (es.foldl (fun f e => f.dispatchBaselineRow c e) f).Keyed := by
  induction es generalizing f with
  | nil => exact h
  | cons e es ih => exact ih fun i => Member.keyed_dispatchBaselineRow (h i) _ i e

variable [DecidableEq ι]

lemma Keyed.runBaseline (h : f.Keyed) (b : BaselineRun ι P V) : (f.runBaseline c b).2.Keyed := by
  have hloaded := Keyed.dispatchRows (c := c) (f := f.transitionPipelines .baselining)
    (fun i => Member.keyed_transition (h i) _) b.emitted
  unfold Fleet.runBaseline
  split
  · split
    · exact hloaded
    · exact fun i => Member.keyed_transition (hloaded i) _
  · exact fun i => Member.keyed_stream (Member.keyed_validate
      (Member.keyed_completeBaseline (hloaded i) _ _) _ _) _

lemma Keyed.restoreTargets (h : f.Keyed) (snapshot : StoredSnapshot P V) (fails : ι → Bool)
    (l : List ι) : (Fleet.restoreTargets c snapshot fails l f).2.Keyed := by
  induction l generalizing f with
  | nil => exact h
  | cons i rest ih =>
    unfold Fleet.restoreTargets
    split
    · exact ih h
    · split
      · exact h
      · refine ih fun j => ?_
        by_cases hj : j = i
        · subst hj
          simpa using SyncTarget.Keyed.restoreSnapshot _ _
        · simpa [hj] using h j

lemma Keyed.trySnapshotRestore (h : f.Keyed) (snapshot : Option (StoredSnapshot P V))
    (fails : ι → Bool) : (f.trySnapshotRestore c snapshot fails).2.Keyed := by
  unfold Fleet.trySnapshotRestore
  split
  · exact h
  · next snapshot =>
      split
      · exact h
      · have hrst := h.restoreTargets (c := c) snapshot fails c.pipelineIdxs
        split
        · next restored heq =>
            rw [heq] at hrst
            exact hrst
        · next restored heq =>
            rw [heq] at hrst
            exact fun i => Member.keyed_stream (hrst i) _

lemma Keyed.streams (h : f.Keyed) (hstrm : f.Streams c f') : f'.Keyed := by
  obtain ⟨s, ops, -, -, -, -, rfl⟩ := hstrm
  exact fun i => (h i).run (ops i)

end Fleet

variable [DecidableEq ι] {c : Config ι P V}

structure Life.Sound (l : Life ι P V) : Prop where
  keyed : l.fleet.Keyed
  empty : l.phase = .init → ∀ i, (l.fleet.member i).target.rows = ∅

lemma LifeStep.sound {l l' : Life ι P V} {a : LifeAct ι P V} (h : LifeStep c l a l')
    (hl : l.Sound) : l'.Sound := by
  cases h with
  | initFails hph => exact ⟨fun i => Member.keyed_transition (hl.keyed i) _, nofun⟩
  | init schemas fails hph => exact ⟨fun i => Member.keyed_onInit (hl.empty hph i) _ _, nofun⟩
  | resume lastPos hph => exact ⟨fun i => Member.keyed_stream (hl.keyed i) _, nofun⟩
  | noResume hph => exact ⟨hl.keyed, nofun⟩
  | restored snapshot fails hph hrestore | notRestored snapshot fails hph hrestore =>
    have := hl.keyed.trySnapshotRestore (c := c) snapshot fails
    rw [hrestore] at this
    exact ⟨this, nofun⟩
  | baselined b hph hbl | notBaselined b hph hbl =>
    have := hl.keyed.runBaseline (c := c) b
    rw [hbl] at this
    exact ⟨this, nofun⟩
  | @reBaseline pos resumed f hph hstrm =>
    exact ⟨hl.keyed.streams hstrm, by cases resumed <;> nofun⟩
  | streamFails hph hstrm =>
    exact ⟨fun i => Member.keyed_transition (hl.keyed.streams hstrm i) _, nofun⟩
  | streamEnds hph hstrm => exact ⟨hl.keyed.streams hstrm, nofun⟩

/-- **When a baseline is exact**: just when every key in use in the target before is the key of an
emitted row, and no two different emitted rows have the same key. -/
theorem baseline_exact_iff {l₀ l l' : Life ι P V} (hfresh : l₀.Fresh)
    (hrun : Run (LifeStep c) l₀ l) {b : BaselineRun ι P V}
    (hstep : LifeStep c l (.baseline b) l') {i : ι} (hplain : (c.pipeline i).Plain)
    (hstate : (l'.fleet.member i).state = .streaming) :
    (∀ row, (∃ k : String, (l'.fleet.member i).target.rows[k]? = some row) ↔
        row ∈ b.rowsFor (c.pipeline i).table) ↔
      (∀ (k : String) row, (l.fleet.member i).target.rows[k]? = some row →
        ∃ r ∈ b.rowsFor (c.pipeline i).table, (l.fleet.member i).target.key r = k) ∧
      ∀ r ∈ b.rowsFor (c.pipeline i).table, ∀ r' ∈ b.rowsFor (c.pipeline i).table,
        (l.fleet.member i).target.key r = (l.fleet.member i).target.key r' → r = r' := by
  have hsound : l.Sound :=
    hrun.invariant Life.Sound ⟨fun i => .of_empty (hfresh.rows i), fun _ => hfresh.rows⟩
      fun hl _ hstep => hstep.sound hl
  have hfleet : l'.fleet = (l.fleet.runBaseline c b).2 := by
    cases hstep with
    | baselined b hph hbl => rw [hbl]
    | notBaselined b hph hbl => rw [hbl]
  rw [hfleet] at hstate ⊢
  rw [l.fleet.rows_runBaseline c hplain hstate]
  exact KeyedMap.load_exact_iff (hsound.keyed i) _

def Shop.life : Life Shop Int Text where
  fleet := {
    member := fun _ => {
      state := .initializing
      target := .indexed (Memory.IndexedTarget.new [] [])
      ready := false
      validation := none }
    tracker := .new }
  phase := .init

lemma Shop.life_fresh : Shop.life.Fresh := ⟨rfl, fun _ => rfl, fun _ => rfl, rfl⟩

def Shop.accountsBaseline (pos : Int) (ids : List String) : BaselineRun Shop Int Text where
  emitted := ids.map fun id =>
    { table := Shop.accounts.table
      row := Shop.row id
      now := fun _ => 0
      append := fun _ => ⟨0, 0, []⟩
      fails := fun _ => false }
  result := some (some pos)
  ctxDone := false
  completeFails := fun _ => false
  pids := Shop.config.pipelineIdxs

lemma Shop.streams_nothing (f : Fleet Shop Int Text) : f.Streams config f := by
  let c := config
  let start : State Shop Int Text := State.start (fun i => (f.member i).state) f.tracker
  have h : Run (Step c) start _ := .refl _
  have h := h
    |>.snoc (.streamEnd (.inl rfl))
    |>.snoc (.consume .accounts (.exit rfl rfl rfl))
    |>.snoc (.consume .orders (.exit rfl rfl rfl))
  exact ⟨_, fun _ => [], h, rfl, fun i => by cases i <;> rfl, fun _ => rfl, rfl⟩

def Shop.initialised : Life Shop Int Text :=
  ⟨Shop.life.fleet.each fun _ m => m.onInit [⟨"id", true, 1⟩] false, .baseline⟩

lemma Shop.reach_initialised :
    Run (LifeStep config) life initialised := by
  let c := config
  have h : Run (LifeStep c) life _ := .refl _
  have h := h
    |>.snoc (.init (fun _ => [⟨"id", true, 1⟩]) (fun _ => false) rfl)
    |>.snoc (.noResume rfl)
  exact h.snoc (.notRestored none (fun _ => false) rfl rfl) trivial

theorem baseline_exact_iff_run : ∃ l' : Life Shop Int Text,
    LifeStep config initialised (.baseline (accountsBaseline 10 ["7", "8"])) l' ∧
    (l'.fleet.member .accounts).state = .streaming ∧
    ∀ row, (∃ k : String, (l'.fleet.member .accounts).target.rows[k]? = some row) ↔
      row ∈ [Shop.row "7", Shop.row "8"] := by
  have hstep : LifeStep config initialised
      (.baseline (accountsBaseline 10 ["7", "8"])) _ := .baselined _ rfl rfl
  refine ⟨_, hstep, rfl, ?_⟩
  refine (baseline_exact_iff life_fresh reach_initialised hstep ⟨rfl, rfl, rfl⟩ rfl).mpr
    ⟨?_, ?_⟩
  · intro k row h
    have hrow : (∅ : Store Text)[k]? = some row := h
    simp at hrow
  · have hkeys : (Shop.initialised.fleet.member .accounts).target.key (Shop.row "7") ≠
        (Shop.initialised.fleet.member .accounts).target.key (Shop.row "8") := by decide
    intro r (hr : r ∈ [Shop.row "7", Shop.row "8"]) r'
      (hr' : r' ∈ [Shop.row "7", Shop.row "8"]) hkey
    simp only [mem_cons, not_mem_nil, or_false] at hr hr'
    rcases hr with rfl | rfl <;> rcases hr' with rfl | rfl
    · rfl
    · exact absurd hkey hkeys
    · exact absurd hkey.symm hkeys
    · rfl

/-- Two accounts at the first baseline; the stream ends with `ErrReBaselineRequired`, and by then
one of them is gone. -/
theorem rebaseline_keeps_deleted_row : ∃ l l' : Life Shop Int Text, Run (LifeStep config) life l ∧
    LifeStep config l (.baseline (accountsBaseline 12 ["8"])) l' ∧
    (l'.fleet.member .accounts).state = .streaming ∧
    (l'.fleet.member .accounts).validation = some (1, 2) ∧
    (l'.fleet.member .accounts).target.rows["7"]? = some (Shop.row "7") ∧
    Shop.row "7" ∉ (accountsBaseline 12 ["8"]).rowsFor (Shop.config.pipeline .accounts).table := by
  have h := Shop.reach_initialised.snoc
    (.baselined (accountsBaseline 10 ["7", "8"]) rfl rfl) trivial
  have h := h.snoc (.reBaseline rfl (streams_nothing _))
  refine ⟨_, _, h, .baselined _ rfl rfl, rfl, rfl, rfl, fun hmem => ?_⟩
  have hrow := mem_singleton.mp hmem
  have hid := congrArg (fun r : Row Text => r["id"]?) hrow
  simp [Shop.row] at hid

end Laredo.Engine
