import Laredo.Engine.AckSafety
import Laredo.Engine.Rebaseline

/-!
# Reload

`Reload` of a table beside a running stream, for a source whose `Pause` only records that it is
paused.
-/

namespace Laredo.Engine

open TableChange State Transition List Shop

variable {ι P V : Type} [DecidableEq ι]

namespace Reload

def stage (i : ι) : Reload ι P V → Stage P V
  | idle | collect _ _ _ => .out
  | baselining found rest => if i ∈ found ∧ i ∉ rest then .window false else .out
  | truncating found rest => if i ∈ found then .window (decide (i ∉ rest)) else .out
  | reading found => if i ∈ found then .window true else .out
  | rows found pos left => if i ∈ found then .loading pos left else .out
  | row found pos r rest left =>
      if i ∈ found then .loading pos (if i ∈ rest then r :: left else left) else .out
  | completing found pos rest =>
      if i ∈ found then (if i ∈ rest then .loading pos [] else .loaded pos) else .out
  | streaming pos rest => if i ∈ rest then .loaded pos else .out
  | storing pos j rest => if i ∈ j :: rest then .loaded pos else .out
  | failing rest => if i ∈ rest then .doomed else .out

def readAt : Reload ι P V → Option P
  | rows _ pos _ | row _ pos _ _ _ | completing _ pos _ | streaming pos _ | storing pos _ _ =>
      some pos
  | idle | collect _ _ _ | baselining _ _ | truncating _ _ | reading _ | failing _ => none

omit [DecidableEq ι] in
def Walks : Reload ι P V → Prop
  | idle => True
  | collect _ rest found => (found ++ rest).Nodup
  | baselining found rest | truncating found rest | row found _ _ rest _
  | completing found _ rest => found.Nodup ∧ rest.Nodup ∧ rest ⊆ found
  | reading found | rows found _ _ => found.Nodup
  | streaming _ rest | failing rest => rest.Nodup
  | storing _ j rest => (j :: rest).Nodup

omit [DecidableEq ι] in
lemma head_of_walk {found rest : List ι} {i : ι}
    (h : found.Nodup ∧ (i :: rest).Nodup ∧ i :: rest ⊆ found) : i ∈ found ∧ i ∉ rest :=
  ⟨h.2.2 mem_cons_self, (nodup_cons.mp h.2.1).1⟩

lemma readAt_of_stage {r : Reload ι P V} {i : ι} {pos : P} (h : (r.stage i).readAt = some pos) :
    r.readAt = some pos := by
  cases r with
  | idle | collect => cases h
  | baselining | truncating | reading | failing =>
    simp only [stage] at h
    split at h <;> cases h
  | rows | row | streaming | storing =>
    simp only [stage] at h
    split at h
    · exact h
    · cases h
  | completing =>
    simp only [stage] at h
    split at h
    · split at h <;> exact h
    · cases h

end Reload

variable {c : Config ι P V} {s s' : State ι P V} {a : Act ι P V} {i : ι}

lemma ReloadStep.walks (h : ReloadStep c s a s') (hw : s.reload.Walks) : s'.reload.Walks := by
  -- the rest of a walk is one
  have htail : ∀ {j : ι} {found rest : List ι}, found.Nodup ∧ (j :: rest).Nodup ∧
      j :: rest ⊆ found →
      found.Nodup ∧ rest.Nodup ∧ rest ⊆ found := fun ⟨h₁, h₂, h₃⟩ =>
    ⟨h₁, h₂.of_cons, fun _ hx => h₃ (mem_cons_of_mem _ hx)⟩
  cases h with
  | start table hpc => simpa [Reload.Walks] using c.nodup
  | @affected table j rest found hpc htab hstt =>
    simpa [hpc, Reload.Walks, append_assoc] using hw
  | @unaffected table j rest found hpc hnot =>
    rw [hpc] at hw
    exact hw.sublist ((sublist_cons_self j rest).append_left found)
  | refused hpc | failed hpc | resumeSource hpc => trivial
  | @pauseSource table found hpc hfnd =>
    rw [hpc] at hw
    have hnd : found.Nodup := by simpa [Reload.Walks] using hw
    exact ⟨hnd, hnd, fun _ => id⟩
  | baselining hpc | truncate hpc | truncateFails hpc | putRow now hpc | skipRow now hpc
  | rowFails hpc
  | complete hpc | completeFails hpc | completeSkips hpc =>
    rw [hpc] at hw
    exact htail hw
  | toTruncate hpc | nextRow hpc | rowsDone hpc =>
    rw [hpc] at hw
    simp only [setReload, Reload.Walks] at hw ⊢
    tauto
  | toRead hpc | rowDone hpc | toStreaming hpc =>
    rw [hpc] at hw
    exact hw.1
  | snapshot pos rows hpc | checkStreaming hpc => rwa [hpc] at hw
  | readFails hpc => rcases hpc with hpc | hpc <;> rwa [hpc] at hw
  | fail hpc | notStreaming hpc | storeStreaming hpc =>
    rw [hpc] at hw
    exact List.Nodup.of_cons hw

section

variable [GoValue V] {T : SyncTarget P V} (src : SourceTable P V T.key)

inductive StageStep (p : ResolvedPipeline V) (l : Lane P V) :
    Stage P V → Lane P V → Stage P V → Prop
  | stay {st : Stage P V} : StageStep p l st l st
  | enter (hphase : l.phase = .streaming) :
      StageStep p l .out { l with phase := .baselining } (.window false)
  | clear (hwork : l.work.changes = []) :
      StageStep p l (.window false) { l with log := l.log ++ [.truncated] } (.window true)
  | read (pos : P) (rows : List (Row V)) (hrows : rows.Perm ((src.tableAt pos).toList.map Prod.snd))
      (hpast : ∀ e ∈ changesOf l.offered, ∀ q, e.position = some q → src.order.Le q pos) :
      StageStep p l (.window true) l (.loading pos rows)
  | doom {st : Stage P V} (hst : st ≠ .out) : StageStep p l st l .doomed
  | put {pos : P} {r r' : Row V} {left : List (Row V)} (now : Int)
      (hrow : p.baselineRow now r = some r') :
      StageStep p l (.loading pos (r :: left)) { l with log := l.log ++ [.baselineRow r'] }
        (.loading pos left)
  | skip {pos : P} {r : Row V} {left : List (Row V)} (now : Int)
      (hrow : p.baselineRow now r = none) :
      StageStep p l (.loading pos (r :: left)) l (.loading pos left)
  | complete {pos : P} :
      StageStep p l (.loading pos []) { l with log := l.log ++ [.baselineComplete pos] }
        (.loaded pos)
  | pass {st st' : Stage P V} (hst : st ≠ .out) (hphase : l.phase ≠ .baselining) :
      StageStep p l st l st'
  | stream {pos : P} (hphase : l.phase = .baselining) :
      StageStep p l (.loaded pos) { l with phase := .streaming } .out
  | error {st st' : Stage P V} : StageStep p l st { l with phase := .error } st'

variable {src} {p : ResolvedPipeline V} {l l' : Lane P V} {st st' : Stage P V}
    {table : TableIdentifier}

lemma StageStep.dead (h : StageStep src p l st l' st') (hdead : l.Dead) : l'.Dead := by
  cases h with
  | enter hph | stream hph => rcases hdead with h | h <;> simp [hph] at h
  | error => exact .inl rfl
  | _ => exact hdead

lemma StageStep.work (h : StageStep src p l st l' st') : l'.work = l.work := by
  cases h <;> rfl

lemma Tracks.stageStep (h : Tracks src table st l) (hpl : p.Plain)
    (hstep : StageStep src p l st l' st') : Tracks src table st' l' := by
  rcases h with hdead | ⟨done, todo, later, hspl, hat⟩
  · exact .inl (hstep.dead hdead)
  cases hstep with
  | stay => exact .inr ⟨done, todo, later, hspl, hat⟩
  | enter hph => exact .inr ⟨done, todo, later, hspl.congr rfl rfl, rfl, nofun⟩
  | clear hwork => exact .inr ⟨done, todo, later, hspl.congr rfl rfl, hat.clear hwork⟩
  | read pos rows hrows hpast =>
    refine .inr ⟨done, todo, later, hspl, hat.read hrows fun x hx => ?_⟩
    -- what the lane is done with was handed over
    refine hpast (event table x) ?_ x.1 (by simp)
    rw [hspl.offered]
    exact List.mem_map_of_mem (mem_append_left _ hx)
  | doom hst => exact .inr ⟨done, todo, later, hspl, (hat.phase.resolve_left fun h => hst h.2).1⟩
  | put now hrow =>
    rw [hpl.baselineRow, Option.some.injEq] at hrow
    subst hrow
    exact .inr ⟨done, todo, later, hspl.congr rfl rfl, hat.put⟩
  | skip now hrow => simp [hpl.baselineRow] at hrow
  | complete => exact .inr ⟨done, todo, later, hspl.congr rfl rfl, hat.complete⟩
  | pass hst hph => exact absurd (hat.phase.resolve_left fun h => hst h.2).1 hph
  | stream hph => exact .inr ⟨done, todo, later, hspl.congr rfl rfl, hat.stream hspl.changes⟩
  | error => exact .inl (.inl rfl)

lemma StageStep.congr {st₀ st₁ : Stage P V} {l₁ : Lane P V} (h : StageStep src p l st l₁ st₁)
    (hst : st₀ = st) (hl : l' = l₁) (hst' : st' = st₁) : StageStep src p l st₀ l' st' :=
  hst ▸ hl ▸ hst' ▸ h

lemma StageStep.of_eq (hl : l' = l) (hst : st' = st) : StageStep src p l st l' st' :=
  hl ▸ hst ▸ .stay

end

section

variable [GoValue V] {T : SyncTarget P V}

/-- What a source does when a reload of pipeline `i` reads its table: it emits the rows of
the table at the position it returns, and that position is not before a change it has
handed over. -/
def ReadsTable (src : SourceTable P V T.key) (c : Config ι P V) (i : ι) (s : State ι P V) :
    Act ι P V → Prop
  | .snapshot pos rows => ∀ found, s.reload = .reading found → i ∈ found →
      rows.Perm ((src.tableAt pos).toList.map Prod.snd) ∧
        ∀ e ∈ s.handed c i, ∀ q, e.position = some q → src.order.Le q pos
  | _ => True

/-- A reload does no harm to pipeline `i`: it finds the pipeline STREAMING, the consumer has no
change in its hands when the target is truncated, and no change that is turned away or dropped is
past the reading. -/
def ReloadsAtRest (src : SourceTable P V T.key) (c : Config ι P V) (i : ι) (s : State ι P V) :
    Act ι P V → Prop
  | .reload =>
      (∀ found rest, s.reload = .baselining found (i :: rest) → s.pstate i = .streaming) ∧
      (∀ found rest, s.reload = .truncating found (i :: rest) → (s.lane c i).work.changes = []) ∧
      ∀ pos rest, s.reload = .storing pos i rest → s.pstate i = .baselining
  | .turnAway j (.change e) => j = i → (c.pipeline i).table = e.table → s.pstate i = .baselining →
      s.underway c i = [e] ∧
        ∀ pos, s.reload.readAt = some pos → ∀ q, e.position = some q → src.order.Le q pos
  | .discard j (.change e) => j = i → s.pstate i = .baselining →
      ∀ pos, s.reload.readAt = some pos → ∀ q, e.position = some q → src.order.Le q pos
  | .store j _ => j ≠ i
  | _ => True

variable {src : SourceTable P V T.key}

lemma ReloadStep.stageStep (h : ReloadStep c s a s') (hw : s.reload.Walks)
    (hread : ReadsTable src c i s a) (hok : ReloadsAtRest src c i s a) :
    StageStep src (c.pipeline i) (s.lane c i) (s.reload.stage i) (s'.lane c i)
      (s'.reload.stage i) := by
  cases h with
  | start table hpc | affected hpc | unaffected hpc | refused hpc | failed hpc | resumeSource hpc
  | pauseSource hpc | toRead hpc | rowDone hpc | toStreaming hpc | checkStreaming hpc =>
    exact .of_eq rfl (by simp [hpc, Reload.stage])
  | @toTruncate found hpc | @nextRow found pos r rows hpc | @rowsDone found pos hpc =>
    exact .of_eq rfl (by by_cases hi : i ∈ found <;> simp [hpc, Reload.stage, hi])
  | @baselining j found rest hpc =>
    rw [hpc] at hw
    by_cases hj : i = j
    · subst hj
      obtain ⟨hfnd, hrest⟩ := Reload.head_of_walk hw
      exact (StageStep.enter (hok.1 _ _ hpc)).congr (by simp [hpc, Reload.stage])
        (lane_setState_self i _) (by simp [Reload.stage, hfnd, hrest])
    · exact .of_eq (lane_setState_of_ne hj _) (by simp [hpc, Reload.stage, hj])
  | @truncate j found rest hpc =>
    rw [hpc] at hw
    by_cases hj : i = j
    · subst hj
      obtain ⟨hfnd, hrest⟩ := Reload.head_of_walk hw
      exact (StageStep.clear (hok.2.1 _ _ hpc)).congr (by simp [hpc, Reload.stage, hfnd])
        (lane_record_self (s := s) i .truncated) (by simp [Reload.stage, hfnd, hrest])
    · exact .of_eq (lane_record_of_ne (s := s) hj .truncated)
        (by simp [hpc, Reload.stage, hj])
  | @truncateFails j found rest hpc | @fail j rest hpc | @rowFails found rest pos r rows j hpc
  | @completeFails found rest pos j hpc =>
    by_cases hj : i = j
    · subst hj
      exact StageStep.error.congr rfl (lane_setState_self i _) rfl
    · exact .of_eq (lane_setState_of_ne hj _) (by simp [hpc, Reload.stage, hj])
  | @snapshot found pos rows hpc =>
    by_cases hi : i ∈ found
    · obtain ⟨hrows, hpast⟩ := hread found hpc hi
      exact (StageStep.read (l := s.lane c i) pos rows hrows hpast).congr
        (by simp [hpc, Reload.stage, hi]) rfl (by simp [Reload.stage, hi])
    · exact .of_eq rfl (by simp [hpc, Reload.stage, hi])
  | @readFails found pos rows hpc =>
    by_cases hi : i ∈ found
    · refine (StageStep.doom ?_).congr rfl rfl (by simp [Reload.stage, hi])
      rcases hpc with hpc | hpc <;> simp [hpc, Reload.stage, hi]
    · refine .of_eq rfl ?_
      rcases hpc with hpc | hpc <;> simp [hpc, Reload.stage, hi]
  | @putRow found rest pos r r' rows j now hpc hstt hrow =>
    rw [hpc] at hw
    by_cases hj : i = j
    · subst hj
      obtain ⟨hfnd, hrest⟩ := Reload.head_of_walk hw
      have hst : s.reload.stage i = .loading pos (r :: rows) := by simp [hpc, Reload.stage, hfnd]
      exact (StageStep.put now hrow).congr hst
        (lane_record_self (s := s) i (.baselineRow r')) (by simp [Reload.stage, hfnd, hrest])
    · exact .of_eq (lane_record_of_ne (s := s) hj (.baselineRow r'))
        (by simp [hpc, Reload.stage, hj])
  | @skipRow found rest pos r rows j now hpc hskip =>
    rw [hpc] at hw
    by_cases hj : i = j
    · subst hj
      obtain ⟨hfnd, hrest⟩ := Reload.head_of_walk hw
      rcases hskip with hph | hrow
      · exact .pass (by simp [hpc, Reload.stage, hfnd]) hph
      · have hst : s.reload.stage i = .loading pos (r :: rows) := by simp [hpc, Reload.stage, hfnd]
        exact (StageStep.skip now hrow).congr hst rfl (by simp [Reload.stage, hfnd, hrest])
    · exact .of_eq rfl (by simp [hpc, Reload.stage, hj])
  | @complete found rest pos j hpc hstt =>
    rw [hpc] at hw
    by_cases hj : i = j
    · subst hj
      obtain ⟨hfnd, hrest⟩ := Reload.head_of_walk hw
      have hst : s.reload.stage i = .loading pos [] := by simp [hpc, Reload.stage, hfnd]
      exact StageStep.complete.congr hst (lane_record_self (s := s) i (.baselineComplete pos))
        (by simp [Reload.stage, hfnd, hrest])
    · exact .of_eq (lane_record_of_ne (s := s) hj (.baselineComplete pos))
        (by simp [hpc, Reload.stage, hj])
  | @completeSkips found rest pos j hpc hstt =>
    rw [hpc] at hw
    by_cases hj : i = j
    · subst hj
      exact .pass (by simp [hpc, Reload.stage, (Reload.head_of_walk hw).1]) hstt
    · exact .of_eq rfl (by simp [hpc, Reload.stage, hj])
  | @notStreaming pos j rest hpc hstt =>
    by_cases hj : i = j
    · subst hj
      exact .pass (by simp [hpc, Reload.stage]) hstt
    · exact .of_eq rfl (by simp [hpc, Reload.stage, hj])
  | @storeStreaming pos j rest hpc =>
    rw [hpc] at hw
    by_cases hj : i = j
    · subst hj
      have hrest : i ∉ rest := (nodup_cons.mp hw).1
      have hst : s.reload.stage i = .loaded pos := by simp [hpc, Reload.stage]
      exact (StageStep.stream (hok.2.2 _ _ hpc)).congr hst (lane_setState_self i _)
        (by simp [Reload.stage, hrest])
    · exact .of_eq (lane_setState_of_ne hj _) (by simp [hpc, Reload.stage, hj])

omit [GoValue V] in
lemma Step.reload_cases (h : Step c s a s') : ReloadStep c s a s' ∨
      s'.reload = s.reload ∧ a ≠ .reload ∧ ∀ pos rows, a ≠ .snapshot pos rows := by
  cases h with
  | reload h => exact .inl h
  | dispatch h | consume j h | policy t h => cases h <;> exact .inr ⟨rfl, nofun, nofun⟩
  | _ => exact .inr ⟨rfl, nofun, nofun⟩

lemma ReloadsAtRest.dropsAtRest (h : ReloadsAtRest src c i s a) (hrel : a ≠ .reload)
    (hsnap : ∀ pos rows, a ≠ .snapshot pos rows) :
    (s.lane c i).DropsAtRest src (c.pipeline i) i (s.reload.stage i) a := by
  cases a with
  | turnAway j x =>
    cases x with
    | change e =>
      intro hj htab hph
      obtain ⟨honly, hread⟩ := h hj htab hph
      exact ⟨honly, fun pos hpos => hread pos (Reload.readAt_of_stage hpos)⟩
    | heartbeat pos => trivial
  | discard j x =>
    cases x with
    | change e => exact fun hj hph pos hpos => h hj hph pos (Reload.readAt_of_stage hpos)
    | heartbeat pos => trivial
  | store j st => exact h
  | reload => exact absurd rfl hrel
  | snapshot pos rows => exact absurd rfl (hsnap pos rows)
  | _ => trivial

omit [DecidableEq ι] in
lemma Follows.of_step {p : ResolvedPipeline V} {l l' : Lane P V} {table : TableIdentifier}
    (h : Follows src table l') (hstep : Lane.Step p i l a l') : Follows src table l := by
  cases hstep with
  | accept =>
    refine List.IsPrefix.trans ?_ h
    simp only [changesOf_append]
    exact prefix_append _ _
  | _ => exact h

structure Reloading (src : SourceTable P V T.key) (c : Config ι P V) (i : ι) (s : State ι P V) :
    Prop where
  walks : s.reload.Walks
  settled : ∀ e, (s.lane c i).work = .settled e → (s.lane c i).Dead
  tracks : Follows src (c.pipeline i).table (s.lane c i) →
    Tracks src (c.pipeline i).table (s.reload.stage i) (s.lane c i)

lemma Reloading.of_lane {confirmed : Option (Option P)} (hwalks : s.reload = .idle)
    (hlane : s.lane c i = ⟨.streaming, [], .ready, confirmed, [], []⟩)
    (hrows : T.rows = src.initial) : Reloading src c i s := by
  refine ⟨by simp [hwalks, Reload.Walks], by simp [hlane], fun _ => .inr ?_⟩
  rw [hlane, hwalks]
  refine ⟨[], [], src.changes, ⟨rfl, rfl, rfl⟩, rfl, fun q _ _ => ?_⟩
  rw [show rowsOf T [] = src.initial from hrows]
  rfl

lemma Reloading.step (h : Reloading src c i s) (hpl : (c.pipeline i).Plain)
    (hcan : ∀ x ∈ src.changes, T.CanFollow x.2) (hblk : (c.pipeline i).bufferPolicy = .block)
    (hread : ReadsTable src c i s a) (hok : ReloadsAtRest src c i s a) (hstep : Step c s a s') :
    Reloading src c i s' := by
  have htracks : Follows src (c.pipeline i).table (s'.lane c i) →
      Tracks src (c.pipeline i).table (s.reload.stage i) (s.lane c i) :=
    fun hfollows => h.tracks (hfollows.of_step (hstep.lane i))
  rcases hstep.reload_cases with hmove | ⟨heq, hrel, hsnap⟩
  · have hstg := hmove.stageStep h.walks hread hok
    refine ⟨hmove.walks h.walks, fun e he => ?_, fun hf => (htracks hf).stageStep hpl hstg⟩
    rw [hstg.work] at he
    exact hstg.dead (h.settled e he)
  · have hdrops := hok.dropsAtRest hrel hsnap
    refine ⟨heq ▸ h.walks, Lane.settled_step h.settled hdrops (hstep.lane i), fun hf => ?_⟩
    rw [heq]
    exact (htracks hf).step h.settled hpl hcan hblk hdrops hf (hstep.lane i)

/-- The pipeline is STREAMING and its table is at `q`: the changes up to `q` are those that were
handed over and are not on their way any more, and `q` is not before the last baseline. -/
structure StreamsAt (src : SourceTable P V T.key) (c : Config ι P V) (i : ι) (s : State ι P V)
    (q : P) : Prop where
  streaming : s.pstate i = .streaming
  follows : s.handed c i <+: src.changes.map (event (c.pipeline i).table)
  base : ∀ b, lastBaseline (s.log i) = some b → src.order.Le b q
  upTo : ∀ x ∈ src.changes, src.order.Le x.1 q ↔
    event (c.pipeline i).table x ∈ s.handed c i ∧
      event (c.pipeline i).table x ∉ s.underway c i

lemma Reloading.rows_eq (h : Reloading src c i s) {q : P} (hat : StreamsAt src c i s q) :
    rowsOf T (s.log i) = src.tableAt q := by
  rcases h.tracks hat.follows with hdead | ⟨done, todo, later, hspl, hst⟩
  · rcases hdead with h | h <;> exact absurd (hat.streaming.symm.trans h) nofun
  obtain ⟨-, hout⟩ := hst.phase.resolve_right fun h => absurd (hat.streaming.symm.trans h.1) nofun
  rw [hout] at hst
  obtain ⟨hdone, hrest⟩ := hspl.upTo hat.upTo
  have hconv := hst.2 q hat.base hdone
  rw [hrest] at hconv
  exact hconv

/-- **A reload at rest converges.** When the pipeline is STREAMING and the changes of its
table up to `q` are those that were handed over and are not on their way any more, the
target has the rows of the table at `q`, from the position of its last baseline on. -/
theorem reload_converges (hplain : (c.pipeline i).Plain)
    (hblock : (c.pipeline i).bufferPolicy = .block) (hcan : ∀ x ∈ src.changes, T.CanFollow x.2)
    (hrows : T.rows = src.initial) {s₀ : State ι P V} (hstart : Start c s₀)
    (hstate : s₀.pstate i = .streaming) (hreload : s₀.reload = .idle)
    (hrun : Reach (Step c)
      (fun s a => ReadsTable src c i s a ∧ ReloadsAtRest src c i s a) s₀ s)
    (hfollows : s.handed c i <+: src.changes.map (event (c.pipeline i).table))
    (hstreaming : s.pstate i = .streaming) {q : P}
    (hbase : ∀ b, lastBaseline (s.log i) = some b → src.order.Le b q)
    (hq : ∀ x ∈ src.changes, src.order.Le x.1 q ↔
      event (c.pipeline i).table x ∈ s.handed c i ∧
        event (c.pipeline i).table x ∉ s.underway c i)
    {ops : List (Fanout.Op P V × Fanout.AppendEnv)}
    (hops : ops.map Prod.fst = (s.log i).flatMap LogEntry.ops) :
    (T.run ops).rows = src.tableAt q := by
  have hlane := hstart.lane i
  rw [hstate] at hlane
  have hinv : Reloading src c i s :=
    hrun.invariant _ (.of_lane hreload hlane hrows) fun h hok hstep =>
      h.step hplain hcan hblock hok.1 hok.2 hstep
  rw [T.rows_run_log hops]
  exact hinv.rows_eq ⟨hstreaming, hfollows, hbase, hq⟩

end

def Shop.target : SyncTarget Int Text :=
  .indexed { Memory.IndexedTarget.new [] [] with pkCols := ["id"] }

def Shop.source : SourceTable Int Text Shop.target.key where
  order := .ofInt
  initial := ∅
  keyed := KeyedMap.Keyed.empty
  changes := [(11, .insert (Shop.row "7")), (13, .insert (Shop.row "8"))]
  increasing := by simp; decide

lemma Shop.source_canFollow : ∀ x ∈ Shop.source.changes, Shop.target.CanFollow x.2 := by
  intro x hx row h
  simp only [Shop.source, mem_cons, not_mem_nil, or_false] at hx
  rcases hx with rfl | rfl <;> cases h

theorem reload_converges_run : ∃ s : State Shop Int Text,
    Reach (Step config) (fun s a => ReadsTable Shop.source config .accounts s a ∧
      ReloadsAtRest Shop.source config .accounts s a) Shop.start s ∧
    s.log .accounts = [.truncated, .baselineRow (Shop.row "7"), .baselineComplete 12,
      .change (Shop.insert .accounts 13 "8") (some (.insert (Shop.row "8")))] ∧
    ∀ ops : List (Fanout.Op Int Text × Fanout.AppendEnv),
      ops.map Prod.fst = (s.log .accounts).flatMap LogEntry.ops →
      (Shop.target.run ops).rows = Shop.source.tableAt 13 := by
  let c := config
  let ok : State Shop Int Text → Act Shop Int Text → Prop := fun s a =>
    ReadsTable Shop.source c .accounts s a ∧ ReloadsAtRest Shop.source c .accounts s a
  have h : Reach (Step c) ok Shop.start _ := .refl _
  have h := h
    |>.snoc (.reload (.start Shop.accounts.table rfl))
    |>.snoc (.reload (.affected rfl rfl (.inl rfl)))
    |>.snoc (.reload (.unaffected rfl (by decide)))
    |>.snoc (.reload (.pauseSource rfl (by simp)))
    |>.snoc (.reload (.baselining rfl))
  -- the source goes on: the first insert meets the closed gate
  have h := h
    |>.snoc (.deliver (.change (Shop.insert .accounts 11 "7")) rfl rfl)
    |>.snoc (.turnAway rfl (by decide))
    |>.snoc (.turnAway rfl (by decide))
    |>.snoc (.dispatch (.done rfl))
    |>.snoc (.reload (.toTruncate rfl))
    |>.snoc (.reload (.truncate rfl))
    |>.snoc (.reload (.toRead rfl))
  have hpast : ∀ e ∈ [Shop.insert .accounts 11 "7"], ∀ q, e.position = some q →
      Shop.source.order.Le q 12 := by
    simp [Shop.insert]
    decide
  have h := h
    |>.snoc (.reload (.snapshot 12 [Shop.row "7"] rfl))
    |>.snoc (.reload (.nextRow rfl))
    |>.snoc (.reload (.putRow 0 rfl rfl rfl))
    |>.snoc (.reload (.rowDone rfl))
    |>.snoc (.reload (.rowsDone rfl))
    |>.snoc (.reload (.complete rfl rfl))
    |>.snoc (.reload (.toStreaming rfl))
    |>.snoc (.reload (.checkStreaming rfl rfl))
    |>.snoc (.reload (.storeStreaming rfl))
    |>.snoc (.reload (.resumeSource rfl))
  -- back in the stream, the second insert is applied
  have h := h
    |>.snoc (.deliver (.change (Shop.insert .accounts 13 "8")) rfl rfl)
    |>.snoc (.dispatch (.pass rfl (by decide)))
    |>.snoc (.dispatch (.send rfl (by decide)))
    |>.snoc (.turnAway rfl (by decide))
    |>.snoc (.dispatch (.done rfl))
    |>.snoc (.consume .accounts (.receive rfl rfl))
    |>.snoc (.consume .accounts (.begin rfl rfl))
    |>.snoc (.consume .accounts (.applied 0 rfl))
  refine ⟨_, h, rfl, fun ops hops => ?_⟩
  refine reload_converges ⟨rfl, rfl, rfl⟩ rfl source_canFollow rfl start_start rfl rfl h
    (prefix_refl _) rfl (q := 13) ?_ ?_ hops
  · rintro b ⟨⟩
    decide
  · intro x hx
    simp only [Shop.source, mem_cons, not_mem_nil, or_false] at hx
    rcases hx with rfl | rfl
    · exact iff_of_true (by decide) ⟨mem_cons_self, not_mem_nil⟩
    · exact iff_of_true (by decide) ⟨mem_cons_of_mem _ mem_cons_self, not_mem_nil⟩

/-- The first insert arrives after the table was read and before the pipeline is back in the stream.
-/
theorem reload_loses_change : ∃ s : State Shop Int Text,
    Reach (Step config) (ReadsTable Shop.source config .accounts) Shop.start s ∧
    s.pstate .accounts = .streaming ∧ s.dispatcher = .idle ∧ s.reload = .idle ∧
    s.sourcePaused = false ∧ lastBaseline (s.log .accounts) = some 10 ∧
    s.handed config .accounts =
      [event Shop.accounts.table (11, .insert (Shop.row "7"))] ∧
    s.underway config .accounts = [] ∧
    ∀ ops : List (Fanout.Op Int Text × Fanout.AppendEnv),
      ops.map Prod.fst = (s.log .accounts).flatMap LogEntry.ops →
      (Shop.target.run ops).rows ≠ Shop.source.tableAt 11 := by
  let c := config
  have h : Reach (Step c) (ReadsTable Shop.source c .accounts) Shop.start _ := .refl _
  have h := h
    |>.snoc (.reload (.start Shop.accounts.table rfl))
    |>.snoc (.reload (.affected rfl rfl (.inl rfl)))
    |>.snoc (.reload (.unaffected rfl (by decide)))
    |>.snoc (.reload (.pauseSource rfl nofun))
    |>.snoc (.reload (.baselining rfl))
    |>.snoc (.reload (.toTruncate rfl))
    |>.snoc (.reload (.truncate rfl))
    |>.snoc (.reload (.toRead rfl))
    |>.snoc (.reload (.snapshot 10 [] rfl))
    |>.snoc (.reload (.rowsDone rfl))
    |>.snoc (.reload (.complete rfl rfl))
  -- the source goes on: the insert meets the closed gate
  have h := h
    |>.snoc (.deliver (.change (Shop.insert .accounts 11 "7")) rfl rfl)
    |>.snoc (.turnAway rfl (by decide))
    |>.snoc (.turnAway rfl (by decide))
    |>.snoc (.dispatch (.done rfl))
    |>.snoc (.reload (.toStreaming rfl))
    |>.snoc (.reload (.checkStreaming rfl rfl))
    |>.snoc (.reload (.storeStreaming rfl))
    |>.snoc (.reload (.resumeSource rfl))
  refine ⟨_, h, rfl, rfl, rfl, rfl, rfl, rfl, rfl, fun ops hops hrows => ?_⟩
  rw [Shop.target.rows_run_log hops] at hrows
  replace hrows : (∅ : Store Text) = KeyedMap.put Shop.target.key ∅ (Shop.row "7") := hrows
  have hrow := congrArg (fun table : Store Text => table[Shop.target.key (Shop.row "7")]?)
    hrows
  simp [KeyedMap.getElem?_put] at hrow

end Laredo.Engine
