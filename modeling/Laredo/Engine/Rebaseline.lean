import Laredo.Engine.Conservation
import Laredo.Engine.SyncTarget

/-!
# Rebaseline

A lane against the table it replicates, while a reload may be replacing the content of its target.
-/

namespace Laredo

open TableChange List

variable {P V : Type}

def TableChange.event (table : TableIdentifier) : P × TableChange V → ChangeEvent P V
  | (p, .insert row) => ⟨table, .insert, some p, some row, none⟩
  | (p, .update row identity) => ⟨table, .update, some p, some row, identity⟩
  | (p, .delete identity) => ⟨table, .delete, some p, none, identity⟩
  | (p, .truncate) => ⟨table, .truncate, some p, none, none⟩

@[simp] lemma TableChange.event_position (table : TableIdentifier) (x : P × TableChange V) :
    (event table x).position = some x.1 := by
  obtain ⟨p, ch⟩ := x
  cases ch <;> rfl

namespace Engine

variable {ι : Type}

namespace ResolvedPipeline

variable {p : ResolvedPipeline V}

lemma Plain.applyChangeToTarget (h : p.Plain) (now : Int) (table : TableIdentifier)
    (x : P × TableChange V) : p.applyChangeToTarget now (event table x) = some x.2 := by
  obtain ⟨pos, ch⟩ := x
  have hrow : ∀ row : Row V, p.applyFiltersAndTransforms table (some row) = some row := by
    simp [applyFiltersAndTransforms, applyFilters, applyTransforms, h.filters, h.transforms]
  have hexp : ∀ row : Row V, p.isRowExpired now row = false := by simp [isRowExpired, h.ttlFunc]
  cases ch <;>
    simp [ResolvedPipeline.applyChangeToTarget, event, hrow, hexp, applyFilters, h.filters]

end ResolvedPipeline

def lastBaseline (log : List (LogEntry P V)) : Option P :=
  log.foldl (fun last entry =>
    match entry with
    | .baselineComplete pos => some pos
    | _ => last) none

inductive Stage (P V : Type)
  | out
  | window (cleared : Bool)
  | loading (pos : P) (left : List (Row V))
  | loaded (pos : P)
  | doomed

def Stage.readAt : Stage P V → Option P
  | loading pos _ | loaded pos => some pos
  | out | window _ | doomed => none

section

variable [GoValue V] {t : SyncTarget P V} (src : SourceTable P V t.key)

structure Split (table : TableIdentifier) (l : Lane P V)
    (done todo later : List (P × TableChange V)) : Prop where
  changes : src.changes = done ++ (todo ++ later)
  offered : changesOf l.offered = (done ++ todo).map (event table)
  underway : l.work.changes ++ changesOf l.queue = todo.map (event table)

/-- From `store` on, the changes of `rest` lead to the table at every position from `base`
on that the changes of `done` do not lie past. -/
def Converges (store : Store V) (done rest : List (P × TableChange V)) (base : Option P) : Prop :=
  ∀ q, (∀ b, base = some b → src.order.Le b q) → (∀ x ∈ done, src.order.Le x.1 q) →
    replay t.key store (rest.filter (fun x => decide (src.order.Le x.1 q))) =
      src.tableAt q

def rowsOf (t : SyncTarget P V) (log : List (LogEntry P V)) : Store V :=
  log.foldl t.entryEffect t.rows

omit [GoValue V] in
@[simp] lemma lastBaseline_append (log : List (LogEntry P V)) (entry : LogEntry P V) :
    lastBaseline (log ++ [entry]) = match entry with
      | .baselineComplete pos => some pos
      | _ => lastBaseline log := by
  rw [lastBaseline, foldl_append]
  rfl

@[simp] lemma rowsOf_append (t : SyncTarget P V) (log : List (LogEntry P V))
    (entry : LogEntry P V) :
    rowsOf t (log ++ [entry]) = t.entryEffect (rowsOf t log) entry := by
  rw [rowsOf, foldl_append]
  rfl

def AtStage (l : Lane P V) (done rest : List (P × TableChange V)) : Stage P V → Prop
  | .out => l.phase = .streaming ∧ Converges src (rowsOf t l.log) done rest (lastBaseline l.log)
  | .window cleared => l.phase = .baselining ∧
      (cleared = true → l.work.changes = [] ∧ rowsOf t l.log = ∅)
  | .loading pos left => l.phase = .baselining ∧ l.work.changes = [] ∧
      (∃ put, rowsOf t l.log = KeyedMap.load t.key ∅ put ∧
        (put ++ left).Perm ((src.tableAt pos).toList.map Prod.snd)) ∧
      ∀ x ∈ done, src.order.Le x.1 pos
  | .loaded pos => l.phase = .baselining ∧ l.work.changes = [] ∧
      rowsOf t l.log = src.tableAt pos ∧ lastBaseline l.log = some pos ∧
      ∀ x ∈ done, src.order.Le x.1 pos
  | .doomed => l.phase = .baselining

variable {src} {table : TableIdentifier} {l l' : Lane P V}
  {done todo later rest : List (P × TableChange V)} {st : Stage P V}

lemma AtStage.phase (h : AtStage src l done rest st) :
    l.phase = .streaming ∧ st = .out ∨ l.phase = .baselining ∧ st ≠ .out := by
  cases st with
  | out => exact .inl ⟨h.1, rfl⟩
  | window cleared | loading pos left | loaded pos => exact .inr ⟨h.1, nofun⟩
  | doomed => exact .inr ⟨h, nofun⟩

lemma AtStage.congr (h : AtStage src l done rest st) (hph : l'.phase = l.phase)
    (hlog : l'.log = l.log) (hwork : l.work.changes = [] → l'.work.changes = []) :
    AtStage src l' done rest st := by
  cases st with
  | out => simpa [AtStage, hph, hlog] using h
  | window cleared =>
    refine ⟨hph ▸ h.1, fun hc => ?_⟩
    rw [hlog]
    exact ⟨hwork (h.2 hc).1, (h.2 hc).2⟩
  | loading pos left | loaded pos =>
    obtain ⟨h₁, h₂, h₃⟩ := h
    exact ⟨hph ▸ h₁, hwork h₂, hlog ▸ h₃⟩
  | doomed => exact hph.trans h

variable {y : P × TableChange V}

lemma AtStage.drop (h : AtStage src l done (y :: rest) st) (hph : l.phase ≠ .streaming)
    (hread : ∀ pos, st.readAt = some pos → src.order.Le y.1 pos) :
    AtStage src l (done ++ [y]) rest st := by
  have hall : ∀ pos, st.readAt = some pos → (∀ x ∈ done, src.order.Le x.1 pos) →
      ∀ x ∈ done ++ [y], src.order.Le x.1 pos := by
    intro pos hpos hdone x hx
    rcases mem_append.mp hx with hx | hx
    · exact hdone x hx
    · obtain rfl := mem_singleton.mp hx
      exact hread pos hpos
  cases st with
  | out => exact absurd h.1 hph
  | window cleared => exact h
  | loading pos left =>
    obtain ⟨h₁, h₂, h₃, h₄⟩ := h
    exact ⟨h₁, h₂, h₃, hall pos rfl h₄⟩
  | loaded pos =>
    obtain ⟨h₁, h₂, h₃, h₄, h₅⟩ := h
    exact ⟨h₁, h₂, h₃, h₄, hall pos rfl h₅⟩
  | doomed => exact h

lemma Converges.apply {store : Store V} {base : Option P}
    (h : Converges src store done (y :: rest) base) :
    Converges src (y.2.apply t.key store) (done ++ [y]) rest base := by
  intro q hbase hdone
  have hy : src.order.Le y.1 q := hdone y (by simp)
  have := h q hbase fun x hx => hdone x (by simp [hx])
  rwa [filter_cons_of_pos (by simpa using hy), replay_cons] at this

variable {e : ChangeEvent P V}

lemma AtStage.finish
    (h : AtStage src l done (y :: rest) st) (hcan : t.CanFollow y.2) (hwork : l.work.changes ≠ [])
    (hph : l'.phase = l.phase) (hlog : l'.log = l.log ++ [.change e (some y.2)]) :
    AtStage src l' (done ++ [y]) rest st := by
  cases st with
  | out =>
    obtain ⟨h₁, h₂⟩ := h
    refine ⟨hph.trans h₁, ?_⟩
    have hrows : rowsOf t l'.log = y.2.apply t.key (rowsOf t l.log) := by
      rw [hlog, rowsOf_append, ← hcan.effect_eq]
      rfl
    rw [hrows, hlog, lastBaseline_append]
    exact h₂.apply
  | window cleared => exact ⟨hph.trans h.1, fun hc => absurd (h.2 hc).1 hwork⟩
  | loading pos left | loaded pos => exact absurd h.2.1 hwork
  | doomed => exact hph.trans h

lemma AtStage.clear {cleared : Bool} (h : AtStage src l done rest (.window cleared))
    (hwork : l.work.changes = []) :
    AtStage src { l with log := l.log ++ [.truncated] } done rest (.window true) :=
  ⟨h.1, fun _ => ⟨hwork, by simp [SyncTarget.entryEffect, LogEntry.ops, SyncTarget.effect]⟩⟩

variable {pos : P}

lemma AtStage.read {rows : List (Row V)} (h : AtStage src l done rest (.window true))
    (hrows : rows.Perm ((src.tableAt pos).toList.map Prod.snd))
    (hdone : ∀ x ∈ done, src.order.Le x.1 pos) : AtStage src l done rest (.loading pos rows) :=
  ⟨h.1, (h.2 rfl).1, ⟨[], (h.2 rfl).2, hrows⟩, hdone⟩

lemma AtStage.put {r : Row V} {left : List (Row V)}
    (h : AtStage src l done rest (.loading pos (r :: left))) :
    AtStage src { l with log := l.log ++ [.baselineRow r] } done rest (.loading pos left) := by
  obtain ⟨h₁, h₂, ⟨put, hput, hperm⟩, h₄⟩ := h
  refine ⟨h₁, h₂, ⟨put ++ [r], ?_, by simpa using hperm⟩, h₄⟩
  simp [SyncTarget.entryEffect, LogEntry.ops, SyncTarget.effect, hput, KeyedMap.load]

lemma AtStage.complete (h : AtStage src l done rest (.loading pos [])) :
    AtStage src { l with log := l.log ++ [.baselineComplete pos] } done rest (.loaded pos) := by
  obtain ⟨h₁, h₂, ⟨put, hput, hperm⟩, h₄⟩ := h
  refine ⟨h₁, h₂, ?_, by simp, h₄⟩
  have hload := KeyedMap.load_values (src.keyed_tableAt pos) (by simpa using hperm)
  simpa [SyncTarget.entryEffect, LogEntry.ops, SyncTarget.effect, hput] using hload

lemma AtStage.stream (h : AtStage src l done rest (.loaded pos))
    (hchs : src.changes = done ++ rest) :
    AtStage src { l with phase := .streaming } done rest .out := by
  obtain ⟨-, -, hrows, hbase, hdone⟩ := h
  refine ⟨rfl, fun q hq _ => ?_⟩
  have hpq := hq pos hbase
  rw [hrows]
  exact src.replay_tableAt hchs hdone hpq

def Follows (src : SourceTable P V t.key) (table : TableIdentifier) (l : Lane P V) : Prop :=
  changesOf l.offered <+: src.changes.map (event table)

def Tracks (src : SourceTable P V t.key) (table : TableIdentifier) (st : Stage P V)
    (l : Lane P V) : Prop :=
  l.Dead ∨ ∃ done todo later, Split src table l done todo later ∧
    AtStage src l done (todo ++ later) st

/-- A change is dropped only in front of a pipeline that is BASELINING and where it does no
harm: the dispatcher turns it away with nothing else on its way, and if the table has been
read, it was read at or past the change. Nobody pauses or resumes the pipeline. -/
def Lane.DropsAtRest (src : SourceTable P V t.key) (p : ResolvedPipeline V) (i : ι)
    (st : Stage P V) (l : Lane P V) : Act ι P V → Prop
  | .turnAway j (.change e) => j = i → p.table = e.table → l.phase = .baselining →
      l.work.changes ++ changesOf l.queue = [e] ∧
        ∀ pos, st.readAt = some pos → ∀ q, e.position = some q → src.order.Le q pos
  | .discard j (.change e) => j = i → l.phase = .baselining →
      ∀ pos, st.readAt = some pos → ∀ q, e.position = some q → src.order.Le q pos
  | .store j _ => j ≠ i
  | .reload | .snapshot _ _ => False
  | _ => True

variable {p : ResolvedPipeline V} {i : ι} {a : Act ι P V}

lemma Lane.dead_step (hdead : l.Dead) (hok : l.DropsAtRest src p i st a)
    (hstep : Lane.Step p i l a l') : l'.Dead := by
  cases hstep with
  | settle | error => exact .inl rfl
  | store st => exact absurd rfl hok
  | reload | note => exact hok.elim
  | _ => exact hdead

lemma Lane.settled_step (hsettled : ∀ e, l.work = .settled e → l.Dead)
    (hok : l.DropsAtRest src p i st a) (hstep : Lane.Step p i l a l') :
    ∀ e, l'.work = .settled e → l'.Dead := by
  have hdead : l.Dead → l'.Dead := fun h => Lane.dead_step h hok hstep
  cases hstep with
  | settle | error => exact fun _ _ => .inl rfl
  | settleDead hwork hd => exact fun _ _ => hd
  | beat | finish => exact fun e he => absurd he (Work.after_ne_settled _ _ e)
  | begin | fail | abandon | confirm => nofun
  | _ => exact fun e he => hdead (hsettled e he)

lemma Split.shift (h : Split src table l done (y :: todo) later) (hoff : l'.offered = l.offered)
    (hund : l.work.changes ++ changesOf l.queue =
      event table y :: (l'.work.changes ++ changesOf l'.queue)) :
    Split src table l' (done ++ [y]) todo later := by
  refine ⟨by simp [h.changes], by simp [hoff, h.offered], ?_⟩
  have := h.underway
  rw [hund, map_cons] at this
  exact (List.cons.inj this).2

section

variable (h : Split src table l done todo later)
include h

lemma Split.congr (hoff : l'.offered = l.offered)
    (hund : l'.work.changes ++ changesOf l'.queue = l.work.changes ++ changesOf l.queue) :
    Split src table l' done todo later :=
  ⟨h.changes, hoff ▸ h.offered, hund ▸ h.underway⟩

lemma Split.head
    {es : List (ChangeEvent P V)} (hund : l.work.changes ++ changesOf l.queue = e :: es) :
    ∃ y rest, todo = y :: rest ∧ e = event table y := by
  have htodo := h.underway
  rw [hund] at htodo
  obtain ⟨y, rest, rfl, rfl, -⟩ := map_eq_cons_iff.mp htodo.symm
  exact ⟨y, rest, rfl, rfl⟩

lemma Split.next
    (hfollows : changesOf (l.offered ++ [.change e]) <+: src.changes.map (event table)) :
    ∃ y rest, later = y :: rest ∧ e = event table y := by
  obtain ⟨tail, htail⟩ := hfollows
  simp only [changesOf_append, changesOf_cons_change, changesOf_nil, h.changes, h.offered,
    map_append, append_assoc, append_cancel_left_eq, cons_append, nil_append] at htail
  cases later with
  | nil => simp at htail
  | cons y rest => exact ⟨y, rest, rfl, (List.cons.inj htail).1⟩

lemma Split.event_ne {x : P × TableChange V} (hx : x ∈ done) (hy : y ∈ todo ++ later) :
    event table x ≠ event table y := by
  intro hxy
  have hinc := src.increasing
  rw [h.changes, pairwise_append] at hinc
  have hlt := hinc.2.2 x hx y hy
  have hpos : x.1 = y.1 := by simpa using congrArg ChangeEvent.position hxy
  rw [hpos] at hlt
  exact hlt.irrefl

lemma Split.upTo {q : P}
    (hq : ∀ x ∈ src.changes, src.order.Le x.1 q ↔ event table x ∈ changesOf l.offered ∧
        event table x ∉ l.work.changes ++ changesOf l.queue) :
    (∀ x ∈ done, src.order.Le x.1 q) ∧
      (todo ++ later).filter (fun x => decide (src.order.Le x.1 q)) = [] := by
  rw [h.offered, h.underway] at hq
  refine ⟨fun x hx => ?_, filter_eq_nil_iff.mpr fun x hx hle => ?_⟩
  · refine (hq x (by simp [h.changes, hx])).mpr
      ⟨List.mem_map_of_mem (mem_append_left _ hx), fun hmem => ?_⟩
    obtain ⟨y, hy, hyx⟩ := List.mem_map.mp hmem
    exact h.event_ne hx (mem_append_left _ hy) hyx.symm
  · obtain ⟨hmem, hnot⟩ := (hq x (by rw [h.changes]; exact mem_append_right _ hx)).mp
      (of_decide_eq_true hle)
    rw [map_append, mem_append] at hmem
    obtain ⟨y, hy, hyx⟩ := List.mem_map.mp (hmem.resolve_right hnot)
    exact h.event_ne hy hx hyx

end

lemma Tracks.step (h : Tracks src p.table st l) (hsettled : ∀ e, l.work = .settled e → l.Dead)
    (hpl : p.Plain) (hcan : ∀ x ∈ src.changes, t.CanFollow x.2)
    (hblk : p.bufferPolicy = .block) (hok : l.DropsAtRest src p i st a)
    (hfollows : Follows src p.table l') (hstep : Lane.Step p i l a l') :
    Tracks src p.table st l' := by
  rcases h with hdead | ⟨done, todo, later, hspl, hat⟩
  · exact .inl (Lane.dead_step hdead hok hstep)
  cases hstep with
  | stay => exact .inr ⟨done, todo, later, hspl, hat⟩
  | @accept x hfor =>
    cases x with
    | heartbeat pos =>
      exact .inr ⟨done, todo, later, ⟨hspl.changes, by simpa using hspl.offered,
        by simpa using hspl.underway⟩, hat.congr rfl rfl id⟩
    | change e =>
      obtain ⟨y, later, rfl, rfl⟩ := hspl.next hfollows
      refine .inr ⟨done, todo ++ [y], later, ⟨by simp [hspl.changes], ?_, ?_⟩, ?_⟩
      · simp [hspl.offered]
      · simp [← hspl.underway]
      · rw [append_assoc]
        exact hat.congr rfl rfl id
  | @refuse x q hfor hph hq =>
    cases x with
    | heartbeat pos =>
      exact .inr ⟨done, todo, later, hspl.congr rfl (by simp [hq]), hat.congr rfl rfl id⟩
    | change e =>
      have hbase := (hat.phase.resolve_left fun h => hph h.1).1
      obtain ⟨honly, hread⟩ := hok rfl hfor hbase
      -- the change turned away is the only one on its way
      obtain ⟨y, todo, rfl, rfl⟩ := hspl.head honly
      refine .inr ⟨done ++ [y], todo, later, hspl.shift rfl ?_, ?_⟩
      · have hnone : l.work.changes ++ changesOf q = [] := by
          simpa [hq, ← append_assoc] using honly
        simp [hq, ← append_assoc, hnone]
      · exact (hat.drop hph fun pos hpos => hread pos hpos y.1 (by simp)).congr rfl rfl id
  | evict hpol | overflow hpol => simp [hblk] at hpol
  | @discard x q hph hwork hq =>
    cases x with
    | heartbeat pos =>
      exact .inr ⟨done, todo, later, hspl.congr rfl (by simp [hq]), hat.congr rfl rfl id⟩
    | change e =>
      have hbase := (hat.phase.resolve_left fun h => hph h.1).1
      have hhead : l.work.changes ++ changesOf l.queue = e :: changesOf q := by simp [hwork, hq]
      obtain ⟨y, todo, rfl, rfl⟩ := hspl.head hhead
      refine .inr ⟨done ++ [y], todo, later, hspl.shift rfl (by simp [hq, hwork]), ?_⟩
      exact (hat.drop hph fun pos hpos => hok rfl hbase pos hpos y.1 (by simp)).congr rfl rfl id
  | @begin e q hph hwork hq =>
    -- only a streaming lane begins, and there the consumer's hands do not matter
    have hout := hat.phase.resolve_right fun h => by simp [hph] at h
    obtain ⟨-, rfl⟩ := hout
    exact .inr ⟨done, todo, later, hspl.congr rfl (by simp [hq, hwork]), hat⟩
  | @beat pos q hph hwork hq =>
    exact .inr ⟨done, todo, later, hspl.congr rfl (by simp [hq, hwork]),
      hat.congr rfl rfl fun _ => Work.changes_after p pos⟩
  | @finish e now hwork =>
    have hhead : l.work.changes ++ changesOf l.queue = e :: changesOf l.queue := by simp [hwork]
    obtain ⟨y, todo, rfl, rfl⟩ := hspl.head hhead
    refine .inr ⟨done ++ [y], todo, later, hspl.shift rfl (by simp [hwork]), ?_⟩
    have hy : y ∈ src.changes := by simp [hspl.changes]
    refine hat.finish (e := event p.table y) (hcan y hy) (by simp [hwork]) rfl ?_
    rw [hpl.applyChangeToTarget]
  | @fail e hwork =>
    exact .inr ⟨done, todo, later, hspl.congr rfl (by simp [hwork]),
      hat.congr rfl rfl (by simp [hwork])⟩
  | settle | error => exact .inl (.inl rfl)
  | settleDead hwork hdead => exact .inl hdead
  | abandon hwork => exact .inl (hsettled _ hwork)
  | @confirm pos hwork =>
    exact .inr ⟨done, todo, later, hspl.congr rfl (by simp [hwork]), hat.congr rfl rfl fun _ => rfl⟩
  | store st => exact absurd rfl hok
  | reload | note => exact hok.elim

end

end Engine

end Laredo
