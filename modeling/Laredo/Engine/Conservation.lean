import Laredo.Engine.Lane

/-!
# Conservation

What a lane preserves.
-/

namespace Laredo.Engine

open List

variable {ι P V : Type}

/-- `y` may follow `x` in a stream: a change lies past what came before it, a heartbeat
not before it. -/
def Item.Precedes (order : PositionOrder P) (x y : Item P V) : Prop :=
  ∀ p q, x.position = some p → y.position = some q →
    match y with
    | .change _ => order.Lt p q
    | .heartbeat _ => order.Le p q

/-- The positions of a stream are non-nil and increase: strictly along changes, with
heartbeats between the changes they separate. -/
structure Increasing (order : PositionOrder P) (xs : List (Item P V)) : Prop where
  nonnil : ∀ x ∈ xs, ∃ p, x.position = some p
  pairwise : xs.Pairwise (Item.Precedes order)

lemma Increasing.sublist {order : PositionOrder P} {xs ys : List (Item P V)}
    (h : Increasing order ys) (hsub : xs.Sublist ys) : Increasing order xs :=
  ⟨fun x hx => h.nonnil x (hsub.subset hx), h.pairwise.sublist hsub⟩

@[simp] lemma appliedChanges_append (log log' : List (LogEntry P V)) :
    appliedChanges (log ++ log') = appliedChanges log ++ appliedChanges log' :=
  filterMap_append

@[simp] lemma appliedChanges_change (e : ChangeEvent P V) (call : Option (TableChange V)) :
    appliedChanges [LogEntry.change e call] = [e] := rfl

namespace Lane

variable {p : ResolvedPipeline V} {i : ι} {l l' : Lane P V} {a : Act ι P V}

def Live (l : Lane P V) : Prop := l.phase = .streaming ∨ l.phase = .paused

def Careful (p : ResolvedPipeline V) (i : ι) (l : Lane P V) : Act ι P V → Prop
  | .deliver (.change e) => p.table = e.table → l.phase ≠ .paused
  | .store j st =>
      j = i → (st = .paused ∧ l.phase = .streaming ∧ changesOf l.queue = []) ∨
        (st = .streaming ∧ l.phase = .paused)
  | .reload => False
  | .snapshot _ _ => False
  | _ => True

structure Conserves (l : Lane P V) : Prop where
  ordered : l.queue.Sublist l.offered
  balance : l.Live →
    changesOf l.offered = appliedChanges l.log ++ l.work.changes ++ changesOf l.queue
  quiet : l.phase = .paused → changesOf l.queue = []
  settled : ∀ e, l.work = .settled e → ¬ l.Live

lemma Conserves.changesOf_of_paused (h : l.Conserves) (hlive : l.Live)
    (hph : l.phase ≠ .streaming) : changesOf l.queue = [] :=
  h.quiet (hlive.resolve_left hph)

lemma Conserves.drop (h : l.Conserves) {q : List (Item P V)} (hsub : q.Sublist l.queue)
    (hph : l.phase ≠ .streaming) : ({ l with queue := q } : Lane P V).Conserves := by
  have hnil : changesOf l.queue = [] → changesOf q = [] :=
    fun hnone => sublist_nil.mp (hnone ▸ hsub.filterMap Item.change?)
  refine ⟨hsub.trans h.ordered, fun hlive => ?_, fun hpau => hnil (h.quiet hpau), h.settled⟩
  have hnone := h.changesOf_of_paused hlive hph
  have hbal := h.balance hlive
  rw [hnone] at hbal
  rwa [hnil hnone]

lemma Conserves.step (h : l.Conserves) (hblk : p.bufferPolicy = .block)
    (hok : l.Careful p i a) (hstep : Lane.Step p i l a l') : l'.Conserves := by
  cases hstep with
  | stay => exact h
  | @accept x hfor =>
    refine ⟨h.ordered.append (List.Sublist.refl _), fun hlive => ?_, fun hpau => ?_, h.settled⟩
    · simp [h.balance hlive]
    · cases x with
      | change e => exact absurd hpau (hok hfor)
      | heartbeat pos => simpa using h.quiet hpau
  | @refuse x q hfor hph hq => exact h.drop (hq ▸ sublist_append_left q [x]) hph
  | evict hpol | overflow hpol => simp [hblk] at hpol
  | @discard x q hph hwork hq => exact h.drop (hq ▸ sublist_cons_self x q) hph
  | @begin e q hph hwork hq =>
    have hord := h.ordered
    rw [hq] at hord
    refine ⟨(sublist_cons_self _ q).trans hord, fun hlive => ?_, fun hpau => ?_, nofun⟩
    · simp [h.balance hlive, hwork, hq]
    · simp [hph] at hpau
  | @beat pos q hph hwork hq =>
    have hord := h.ordered
    rw [hq] at hord
    refine ⟨(sublist_cons_self _ q).trans hord, fun hlive => ?_, fun hpau => ?_, ?_⟩
    · simpa [hwork, hq] using h.balance hlive
    · simp [hph] at hpau
    · exact fun e he => absurd he (Work.after_ne_settled p pos e)
  | @finish e now hwork =>
    refine ⟨h.ordered, fun hlive => ?_, h.quiet, ?_⟩
    · simpa [hwork] using h.balance hlive
    · exact fun e' he => absurd he (Work.after_ne_settled p e.position e')
  | @fail e hwork | @confirm pos hwork =>
    refine ⟨h.ordered, fun hlive => ?_, h.quiet, nofun⟩
    simp [h.balance hlive, hwork]
  | settle hwork | error => exact ⟨h.ordered, by simp [Live], by simp, by simp [Live]⟩
  | @settleDead _ e hwork hdead =>
    have hnot : ¬ l.Live := by
      rcases hdead with hd | hd <;> simp [Live, hd]
    exact ⟨h.ordered, fun hlive => absurd hlive hnot, h.quiet, fun _ _ => hnot⟩
  | @abandon e hwork =>
    exact ⟨h.ordered, fun hlive => absurd hlive (h.settled e hwork), h.quiet, nofun⟩
  | store st =>
    -- a careful transition goes between STREAMING and PAUSED
    rcases hok rfl with ⟨rfl, hph, hnone⟩ | ⟨rfl, hph⟩
    · exact ⟨h.ordered, fun _ => h.balance (.inl hph), fun _ => hnone,
        fun e he => absurd (.inl hph) (h.settled e he)⟩
    · exact ⟨h.ordered, fun _ => h.balance (.inr hph), nofun,
        fun e he => absurd (.inr hph) (h.settled e he)⟩
  | reload | note => exact hok.elim

def Dead (l : Lane P V) : Prop := l.phase = .error ∨ l.phase = .stopped

lemma Step.inert (hstep : Lane.Step p i l a l') (hok : l.Careful p i a) (hdead : l.Dead)
    (hwork : l.work = .ready) :
    l'.Dead ∧ l'.work = .ready ∧ l'.confirmed = l.confirmed := by
  have hph : l.phase ≠ .streaming := by
    rcases hdead with h | h <;> simp [h]
  cases hstep with
  | begin hstrm | beat hstrm => exact absurd hstrm hph
  | finish now hw | fail hw | settle hw | settleDead hw | abandon hw | confirm hw =>
    simp [hwork] at hw
  | error => exact ⟨.inl rfl, hwork, rfl⟩
  | store st =>
    rcases hok rfl with ⟨-, h, -⟩ | ⟨-, h⟩ <;> rcases hdead with h' | h' <;> simp [h] at h'
  | reload | note => exact hok.elim
  | _ => exact ⟨hdead, hwork, rfl⟩

structure Done (order : PositionOrder P) (l : Lane P V) (q : P) : Prop where
  reached : ∃ x ∈ l.offered, ∃ p, x.position = some p ∧ order.Le q p
  applied : ∀ e ∈ changesOf l.offered, ∀ p, e.position = some p → order.Le p q →
    e ∈ appliedChanges l.log

structure Covered (order : PositionOrder P) (l : Lane P V) : Prop where
  applying : ∀ e, l.work = .applying e → e ∈ changesOf l.offered ∧
    ∀ p, e.position = some p → ∀ e' ∈ changesOf l.offered, ∀ p', e'.position = some p' →
      order.Le p' p → e' ∈ appliedChanges l.log ∨ e' = e
  confirming : ∀ pos, l.work = .confirming pos → ∃ q, pos = some q ∧ l.Done order q

variable {order : PositionOrder P}

lemma Done.mono {q q' : P} (h : l.Done order q) (hle : order.Le q' q) : l.Done order q' := by
  obtain ⟨x, hx, p, hp, hqp⟩ := h.reached
  exact ⟨⟨x, hx, p, hp, hle.trans hqp⟩, fun e he p hp hle' => h.applied e he p hp (hle'.trans hle)⟩

variable {e : ChangeEvent P V}

lemma lt_of_mem_tail {x : Item P V} {xs : List (Item P V)} {p q : P}
    (h : Increasing order (x :: xs)) (hx : x.position = some p) (he : e ∈ changesOf xs)
    (hq : e.position = some q) : order.Lt p q :=
  rel_of_pairwise_cons h.pairwise (mem_changesOf.mp he) p q hx hq

lemma Step.grows (hstep : Lane.Step p i l a l') :
    (l'.offered = l.offered ∨ ∃ x, l'.offered = l.offered ++ [x]) ∧
      ∃ entries, l'.log = l.log ++ entries := by
  cases hstep with
  | @accept x hfor => exact ⟨.inr ⟨x, rfl⟩, [], by simp⟩
  | finish now hwork | note hent => exact ⟨.inl rfl, _, rfl⟩
  | _ => exact ⟨.inl rfl, [], by simp⟩

lemma Step.mem_applied (hstep : Lane.Step p i l a l')
    (h : e ∈ appliedChanges l.log) : e ∈ appliedChanges l'.log := by
  obtain ⟨-, entries, hlog⟩ := hstep.grows
  rw [hlog, appliedChanges_append]
  exact mem_append_left _ h

lemma Step.offered_cases (hstep : Lane.Step p i l a l') (hinc : Increasing order l'.offered)
    (he : e ∈ changesOf l'.offered) :
    e ∈ changesOf l.offered ∨
      ∀ x ∈ l.offered, ∀ p q, x.position = some p → e.position = some q → order.Lt p q := by
  rcases hstep.grows.1 with heq | ⟨x, heq⟩
  · exact .inl (heq ▸ he)
  · rw [heq, changesOf_append, mem_append] at he
    refine he.imp_right fun hnew y hy p q hp hq => ?_
    obtain rfl : Item.change e = x := by simpa using mem_changesOf.mp hnew
    rw [heq] at hinc
    exact (pairwise_append.mp hinc.pairwise).2.2 y hy _ mem_cons_self p q hp hq

lemma Done.step {q : P} (h : l.Done order q) (hinc : Increasing order l'.offered)
    (hstep : Lane.Step p i l a l') : l'.Done order q := by
  obtain ⟨x, hx, px, hpx, hqx⟩ := h.reached
  refine ⟨⟨x, ?_, px, hpx, hqx⟩, fun e he pe hpe hle => ?_⟩
  · rcases hstep.grows.1 with heq | ⟨y, heq⟩ <;> simp [heq, hx]
  · rcases hstep.offered_cases hinc he with hold | hnew
    · exact hstep.mem_applied (h.applied e hold pe hpe hle)
    · -- a new change lies past `q`
      exact absurd (hle.trans hqx) (hnew x hx px pe hpx hpe).not_le

lemma Conserves.applied_before (h : l.Conserves) (hlive : l.Live) (hwork : l.work = .ready)
    (hinc : Increasing order l.offered) {x : Item P V} {xs : List (Item P V)}
    (hqueue : l.queue = x :: xs) {p : P} (hx : x.position = some p)
    (he : e ∈ changesOf l.offered) {q : P} (hq : e.position = some q) (hle : order.Le q p) :
    e ∈ appliedChanges l.log ∨ x = .change e := by
  rw [h.balance hlive, hwork, hqueue] at he
  simp only [Work.changes_ready, append_nil, mem_append] at he
  refine he.imp_right fun hin => ?_
  rw [mem_changesOf] at hin
  rcases mem_cons.mp hin with heq | htail
  · exact heq.symm
  · have hcons : Increasing order (x :: xs) := hinc.sublist (hqueue ▸ h.ordered)
    exact absurd hle (lt_of_mem_tail hcons hx (mem_changesOf.mpr htail) hq).not_le

lemma Covered.of_work_eq (h : l.Covered order) (hinc : Increasing order l'.offered)
    (hstep : Lane.Step p i l a l') (hwork : l'.work = l.work) : l'.Covered order := by
  refine ⟨fun e he => ?_, fun pos hpos => ?_⟩
  · obtain ⟨hmem, hall⟩ := h.applying e (hwork ▸ he)
    have hmem' := mem_changesOf.mp hmem
    refine ⟨?_, fun pe hpe e' he' p' hp' hle => ?_⟩
    · rcases hstep.grows.1 with heq | ⟨y, heq⟩ <;> simp [heq, hmem]
    · rcases hstep.offered_cases hinc he' with hold | hnew
      · exact (hall pe hpe e' hold p' hp' hle).imp_left hstep.mem_applied
      · exact absurd hle (hnew _ hmem' pe p' hpe hp').not_le
  · obtain ⟨q, hq, hdone⟩ := h.confirming pos (hwork ▸ hpos)
    exact ⟨q, hq, hdone.step hinc hstep⟩

lemma Covered.of_idle (hnot : ∀ e, l.work ≠ .applying e) (hnot' : ∀ pos, l.work ≠ .confirming pos) :
    l.Covered order :=
  ⟨fun e he => absurd he (hnot e), fun pos hpos => absurd hpos (hnot' pos)⟩

lemma Covered.step (h : l.Covered order) (hcons : l.Conserves)
    (hinc : Increasing order l'.offered) (hstep : Lane.Step p i l a l') : l'.Covered order := by
  have hkeep := h.of_work_eq hinc hstep
  cases hstep with
  | @begin e q hph hwork hq =>
    have hmem : e ∈ changesOf l.offered := mem_changesOf.mpr (hcons.ordered.subset (by simp [hq]))
    refine ⟨fun e₁ he₁ => ?_, nofun⟩
    cases he₁
    refine ⟨hmem, fun pe hpe e' he' p' hp' hle => ?_⟩
    refine (hcons.applied_before (.inl hph) hwork hinc hq hpe he' hp' hle).imp_right ?_
    exact fun heq => (Item.change.inj heq).symm
  | @beat pos q hph hwork hq =>
    have hmem : Item.heartbeat pos ∈ l.offered := hcons.ordered.subset (by simp [hq])
    obtain ⟨b, hb⟩ := hinc.nonnil _ hmem
    rcases Work.after_cases p pos (V := V) with hw | hw
    · refine ⟨fun e he => by simp [hw] at he, fun pos' hpos' => ?_⟩
      obtain rfl : pos = pos' := by simpa [hw] using hpos'
      refine ⟨b, hb, ⟨_, hmem, b, hb, Comparator.Le.refl _ _⟩, fun e he pe hpe hle => ?_⟩
      exact (hcons.applied_before (.inl hph) hwork hinc hq hb he hpe hle).resolve_right nofun
    · exact .of_idle (by simp [hw]) (by simp [hw])
  | @finish e now hwork =>
    obtain ⟨hmem, hall⟩ := h.applying e hwork
    obtain ⟨b, hb⟩ := hinc.nonnil _ (mem_changesOf.mp hmem)
    rcases Work.after_cases p e.position (V := V) with hw | hw
    · refine ⟨fun e he => by simp [hw] at he, fun pos' hpos' => ?_⟩
      obtain rfl : e.position = pos' := by simpa [hw] using hpos'
      refine ⟨b, hb, ⟨_, mem_changesOf.mp hmem, b, hb, Comparator.Le.refl _ _⟩, ?_⟩
      intro e' he' p' hp' hle
      have := hall b hb e' he' p' hp' hle
      simpa using this
    · exact .of_idle (by simp [hw]) (by simp [hw])
  | fail | settle | settleDead | abandon | confirm => exact .of_idle nofun nofun
  | _ => exact hkeep rfl

end Lane

end Laredo.Engine
