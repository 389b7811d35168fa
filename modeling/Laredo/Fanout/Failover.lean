import Laredo.Lib.Transition
import Laredo.SourceTable
import Laredo.Fanout.Resume

/-!
# Failover

Resuming on another server by source position, over the life of a fan-out target.
-/

namespace Laredo.Fanout

open KeyedMap Comparator List Option Journal

variable {P V : Type}

def JournalEntry.Newer (order : PositionOrder P) (p : P) (e : JournalEntry P V) : Prop :=
  ∀ q, e.position = some q → order.Lt p q

instance (order : PositionOrder P) (p : P) (e : JournalEntry P V) :
    Decidable (e.Newer order p) :=
  match h : e.position with
  | none => isTrue (by simp [JournalEntry.Newer, h])
  | some q => decidable_of_iff (order.Lt p q) (by simp [JournalEntry.Newer, h])

def newerThan (order : PositionOrder P) (p : P) (entries : List (JournalEntry P V)) :
    List (JournalEntry P V) :=
  entries.filter (fun e => decide (e.Newer order p))

structure Journal.Stamped (order : PositionOrder P) (j : Journal P V) (c : P) : Prop where
  upto : ∀ e ∈ j.entries, ∃ q, e.position = some q ∧ order.Le q c
  sorted : ∀ e ∈ j.entries, ∀ e' ∈ j.entries, e.sequence ≤ e'.sequence →
    ∀ q q', e.position = some q → e'.position = some q' → order.Le q q'

namespace Journal.Stamped

variable {order : PositionOrder P} {j : Journal P V} {c p : P}

section

variable (h : j.Stamped order c)
include h

lemma newerThan_nil (hcp : order.Le c p) : newerThan order p j.entries = [] := by
  rw [newerThan, filter_eq_nil_iff]
  intro e he hnewer
  obtain ⟨q, hq, hle⟩ := h.upto e he
  have hlt := of_decide_eq_true hnewer q hq
  exact (hlt.trans_le (hle.trans hcp)).irrefl

lemma entriesSince_resume {seq : Int} (hne : j.entries ≠ [])
    (hcov : j.resumeSeqForPosition (some p) order.comparePositions = (seq, true)) :
    j.entriesSince seq = newerThan order p j.entries := by
  obtain ⟨hall, hlast⟩ := resumeSeqForPosition_spec hne hcov
  have hat : ∀ e ∈ j.entries, Journal.AtOrBefore order.comparePositions (some p) e ↔
      ¬ e.Newer order p := by
    intro e he
    obtain ⟨q, hq, -⟩ := h.upto e he
    simp only [Journal.AtOrBefore, JournalEntry.Newer, hq, isSome_some, true_and,
      order.comparePositions_some, some.injEq, forall_eq']
    exact not_lt.symm
  refine filter_congr fun e he => decide_eq_decide.mpr ⟨fun hseq => ?_, fun hnewer => ?_⟩
  · by_contra hold
    have hle := hall e he ((hat e he).mpr hold)
    omega
  · by_contra hle
    rcases hlast with hst0 | ⟨e', he', hat', heq⟩
    · have hbd := (mem_bounds he).1
      omega
    · -- the scan stopped at `e'`, which is not newer and not before `e`
      obtain ⟨q, hq, -⟩ := h.upto e he
      obtain ⟨q', hq', -⟩ := h.upto e' he'
      refine (hat e' he').mp hat' fun r hr => ?_
      obtain rfl : r = q' := some.inj (hr.symm.trans hq')
      exact (hnewer q hq).trans_le (h.sorted e he e' he' (by omega) q r hq hr)

lemma push {q : P} (hcq : order.Lt c q) (stamp : Int)
    (action : ChangeAction) (oldValues newValues : Option (Row V)) :
    (j.push stamp action oldValues newValues (some q)).Stamped order q := by
  have hmem : ∀ e, e ∈ (j.push stamp action oldValues newValues (some q)).entries ↔
      e ∈ j.entries ∨ e = ⟨j.nextSeq, stamp, action, oldValues, newValues, some q⟩ := by
    intro e
    simp [Journal.push]
  constructor
  · intro e he
    rcases (hmem e).mp he with hold | rfl
    · obtain ⟨r, hr, hle⟩ := h.upto e hold
      exact ⟨r, hr, hle.trans hcq.le⟩
    · exact ⟨q, rfl, Le.refl _ q⟩
  · intro e he e' he' hseq r r' hr hr'
    rcases (hmem e).mp he with hold | rfl
    · rcases (hmem e').mp he' with hold' | rfl
      · exact h.sorted e hold e' hold' hseq r r' hr hr'
      · obtain ⟨r₀, hr₀, hle⟩ := h.upto e hold
        obtain rfl : r = r₀ := some.inj (hr.symm.trans hr₀)
        obtain rfl : q = r' := some.inj hr'
        exact hle.trans hcq.le
    · rcases (hmem e').mp he' with hold' | rfl
      · -- the new entry has the highest sequence number
        have hbd := (mem_bounds hold').2
        exact absurd hseq (by simpa using hbd)
      · obtain rfl : r = r' := some.inj (hr.symm.trans hr')
        exact Le.refl _ r

lemma of_drop {j' : Journal P V} {k : Nat}
    (hdrop : j'.entries = j.entries.drop k) : j'.Stamped order c := by
  have hsub : ∀ e ∈ j'.entries, e ∈ j.entries := fun e he => mem_of_mem_drop (hdrop ▸ he)
  exact ⟨fun e he => h.upto e (hsub e he),
    fun e he e' he' => h.sorted e (hsub e he) e' (hsub e' he')⟩

lemma newerThan_drop {k : Nat} {e₀ : JournalEntry P V}
    {rest : List (JournalEntry P V)} (hdrop : j.entries.drop k = e₀ :: rest)
    (hfront : ¬ e₀.Newer order p) :
    newerThan order p (j.entries.drop k) = newerThan order p j.entries := by
  have hspl : j.entries = j.entries.take k ++ e₀ :: rest := by rw [← hdrop, take_append_drop]
  have hcontig := j.contiguous
  rw [hspl, map_append, Consec.append_iff] at hcontig
  obtain ⟨hbef, hat, -⟩ := hcontig
  have hnil : newerThan order p (j.entries.take k) = [] := by
    rw [newerThan, filter_eq_nil_iff]
    intro e he hnewer
    have hseq := (Consec.mem_iff hbef).mp (List.mem_map_of_mem he)
    have hmem : e ∈ j.entries := mem_of_mem_take he
    have hmem₀ : e₀ ∈ j.entries := by
      rw [hspl]
      simp
    obtain ⟨q, hq, -⟩ := h.upto e hmem
    refine hfront fun q₀ hq₀ => ?_
    have hat₀ : e₀.sequence = _ := hat
    have hbefore₀ : e.sequence < e₀.sequence := by
      rw [hat₀]
      exact hseq.2
    have hle := h.sorted e hmem e₀ hmem₀ (Int.le_of_lt hbefore₀) q q₀ hq hq₀
    exact (of_decide_eq_true hnewer q hq).trans_le hle
  have hboth : newerThan order p j.entries =
      newerThan order p (j.entries.take k) ++ newerThan order p (j.entries.drop k) := by
    unfold newerThan
    rw [← filter_append, take_append_drop]
  rw [hboth, hnil, nil_append]

end

end Journal.Stamped

section Feed

variable [GoValue V]

def changeOp : TableChange V → Op P V
  | .insert row => .onInsert row
  | .update row identity => .onUpdate row identity
  | .delete identity => .onDelete identity
  | .truncate => .onTruncate

lemma changeOp_record {t : Target P V} (hkd : t.Keyed) (env : AppendEnv) (ch : TableChange V) :
    ∃ action oldValues newValues,
      ((changeOp ch).apply t env).j = t.j.append env action oldValues newValues t.curPos ∧
      ((changeOp ch).apply t env).cols = t.cols ∧
      ∀ seq stamp, ((changeOp ch).apply t env).store =
        applyEntry t.cols t.store ⟨seq, stamp, action, oldValues, newValues, t.curPos⟩ := by
  cases ch with
  | insert row => exact ⟨.insert, none, some row, rfl, rfl, fun _ _ => rfl⟩
  | update row identity =>
    exact ⟨.update, t.store[buildKey t.cols row]?, some row, rfl, rfl, fun _ _ => rfl⟩
  | delete identity =>
    exact ⟨.delete, t.store[buildKey t.cols (Row.orEmpty identity)]?, none, rfl, rfl,
      fun _ _ => (applyEntry_delete hkd _ _ _ _).symm⟩
  | truncate => exact ⟨.truncate, none, none, rfl, rfl, fun _ _ => rfl⟩

lemma changeOp_store {t : Target P V} (env : AppendEnv) {ch : TableChange V}
    (hkeep : ch.KeepsKey (buildKey t.cols)) :
    ((changeOp ch).apply t env).store = ch.apply (buildKey t.cols) t.store := by
  cases ch with
  | insert row => rfl
  | delete identity => rfl
  | truncate => rfl
  | update row identity =>
    cases identity with
    | none => rfl
    | some old =>
      -- the row goes under the key the old row is erased from
      refine Std.ExtTreeMap.ext_getElem? fun k => ?_
      have hkey : buildKey t.cols old = buildKey t.cols row := hkeep
      simp only [TableChange.apply, hkey, getElem?_put, getElem?_erase]
      refine (getElem?_put row k).trans ?_
      split <;> rfl

variable {cols : List ColumnDefinition}

/-- The journal reaches back to position `p` from `c`: its oldest entry is not newer,
and an empty journal reaches back to `c` only. -/
structure Journal.ReachesBack (order : PositionOrder P) (j : Journal P V) (c p : P) : Prop where
  empty : j.entries = [] → order.Le c p
  oldest : ∀ e es, j.entries = e :: es → ¬ e.Newer order p

/-- What a filled target at position `c` stands for: its store is the table at `c`, and
its journal leads there from every position it reaches back to. -/
structure Describes (src : SourceTable P V (buildKey cols)) (t : Target P V) (c : P) : Prop where
  cols_eq : t.cols = cols
  store : t.store = src.tableAt c
  stamped : t.j.Stamped src.order c
  replay : ∀ p, src.order.Le p c → t.j.ReachesBack src.order c p →
    replayEntries cols (src.tableAt p) (newerThan src.order p t.j.entries) = t.store

namespace Describes

variable {src : SourceTable P V (buildKey cols)} {t : Target P V} {c : P} {p : P}

lemma replay_here (hst : t.store = src.tableAt c) (hstm : t.j.Stamped src.order c)
    (hpc : src.order.Le p c) (hcp : src.order.Le c p) :
    replayEntries cols (src.tableAt p) (newerThan src.order p t.j.entries) = t.store := by
  rw [hstm.newerThan_nil hcp, hst]
  exact SourceTable.tableAt_eq_of_le hpc hcp

lemma of_filled (hcols : t.cols = cols) (hst : t.store = src.tableAt c)
    (hpos : ∀ e ∈ t.j.entries, e.position = some c) : Describes src t c := by
  have hstm : t.j.Stamped src.order c := by
    refine ⟨fun e he => ⟨c, hpos e he, Le.refl _ c⟩, ?_⟩
    intro e he e' he' _ q q' hq hq'
    obtain rfl : c = q := some.inj ((hpos e he).symm.trans hq)
    obtain rfl : c = q' := some.inj ((hpos e' he').symm.trans hq')
    exact Le.refl _ c
  refine ⟨hcols, hst, hstm, fun p hpc hback => replay_here hst hstm hpc ?_⟩
  cases hes : t.j.entries with
  | nil => exact hback.empty hes
  | cons e es =>
    refine Comparator.not_lt.mp fun hlt => hback.oldest e es hes fun q hq => ?_
    have he := hpos e (by simp [hes])
    exact some.inj (he.symm.trans hq) ▸ hlt

variable {env : AppendEnv} {action : ChangeAction} {oldValues newValues : Option (Row V)}

lemma reachesBack_of_append (h : Describes src t c) {q : P} (hcq : src.order.Lt c q)
    (hp : src.order.Lt p q) {e₀ : JournalEntry P V} {rest : List (JournalEntry P V)} {k : Nat}
    (hdrop : (t.j.push env.stamp action oldValues newValues (some q)).entries.drop k = e₀ :: rest)
    (hfront : ¬ e₀.Newer src.order p) : t.j.ReachesBack src.order c p := by
  have hpush := h.stamped.push hcq env.stamp action oldValues newValues
  have hpushed : (t.j.push env.stamp action oldValues newValues (some q)).entries =
      t.j.entries ++ [⟨t.j.nextSeq, env.stamp, action, oldValues, newValues, some q⟩] := rfl
  have hmem₀ : e₀ ∈ (t.j.push env.stamp action oldValues newValues (some q)).entries :=
    mem_of_mem_drop (hdrop ▸ mem_cons_self)
  constructor
  · -- the only entry would be the new one, which is newer than `p`
    intro hnil
    rw [hpushed, hnil, nil_append, mem_singleton] at hmem₀
    refine absurd (fun r hr => ?_) hfront
    rw [hmem₀] at hr
    exact some.inj hr ▸ hp
  · -- the old front is not after the new front
    intro e es hcons hnewer
    have hmem : e ∈ (t.j.push env.stamp action oldValues newValues (some q)).entries := by
      simp [hpushed, hcons]
    have hseq : e.sequence ≤ e₀.sequence := by
      have hlow := (mem_bounds hmem₀).1
      have hfst := t.j.contiguous
      rw [hcons] at hfst
      have he : e.sequence = t.j.nextSeq - (e :: es).length := hfst.1
      have hnext : (t.j.push env.stamp action oldValues newValues (some q)).nextSeq
          = t.j.nextSeq + 1 := rfl
      rw [Journal.firstSeq, hpushed, hcons, length_append, length_singleton] at hlow
      omega
    obtain ⟨r, hr, -⟩ := hpush.upto e hmem
    exact hfront fun r₀ hr₀ =>
      (hnewer r hr).trans_le (hpush.sorted e hmem e₀ hmem₀ hseq r r₀ hr hr₀)

variable {ch : P × TableChange V}

section

variable (h : Describes src t c)
include h

lemma replay_before (hnext : src.IsNext c ch) (hp : src.order.Lt p ch.1)
    (hback : t.j.ReachesBack src.order c p) :
    replayEntries cols (src.tableAt p) (newerThan src.order p t.j.entries) = t.store := by
  by_cases hpc : src.order.Le p c
  · exact h.replay p hpc hback
  · have hcp := Comparator.not_le.mp hpc
    rw [h.stamped.newerThan_nil hcp.le, h.store]
    exact hnext.tableAt_between hcp.le hp

lemma newerThan_append {q : P} (hcq : src.order.Lt c q) (hp : src.order.Lt p q)
    (hback : (t.j.append env action oldValues newValues (some q)).ReachesBack src.order q p) :
    newerThan src.order p (t.j.append env action oldValues newValues (some q)).entries =
        newerThan src.order p t.j.entries ++
          [⟨t.j.nextSeq, env.stamp, action, oldValues, newValues, some q⟩] ∧
      t.j.ReachesBack src.order c p := by
  obtain ⟨k, -, hdrop⟩ := t.j.entries_append env action oldValues newValues (some q)
  cases hes : (t.j.append env action oldValues newValues (some q)).entries with
  | nil => exact absurd (hback.empty hes) hp.not_le
  | cons e₀ rest =>
    have hfront := hback.oldest e₀ rest hes
    rw [hdrop] at hes
    have hpushed : newerThan src.order p
        (t.j.push env.stamp action oldValues newValues (some q)).entries =
        newerThan src.order p t.j.entries ++
          [⟨t.j.nextSeq, env.stamp, action, oldValues, newValues, some q⟩] := by
      rw [newerThan, Journal.push, filter_append]
      congr 1
      exact filter_cons_of_pos (decide_eq_true fun r hr => some.inj hr ▸ hp)
    refine ⟨?_, h.reachesBack_of_append hcq hp hes hfront⟩
    rw [← hes, (h.stamped.push hcq _ _ _ _).newerThan_drop hes hfront, hpushed]

lemma replay_append (hnext : src.IsNext c ch) {store : Store V} (hst : ∀ seq stamp, store =
      applyEntry cols t.store ⟨seq, stamp, action, oldValues, newValues, some ch.1⟩)
    (hp : src.order.Lt p ch.1)
    (hback : (t.j.append env action oldValues newValues (some ch.1)).ReachesBack src.order ch.1 p) :
    replayEntries cols (src.tableAt p) (newerThan src.order p
      (t.j.append env action oldValues newValues (some ch.1)).entries) = store := by
  obtain ⟨hnewer, hback'⟩ := h.newerThan_append hnext.after hp hback
  rw [hnewer, replayEntries_append, h.replay_before hnext hp hback']
  exact (hst _ _).symm

lemma change (hnext : src.IsNext c ch) (hkeep : ch.2.KeepsKey (buildKey cols)) (env : AppendEnv) :
    Describes src ((changeOp ch.2).apply (t.setChangePosition (some ch.1)) env) ch.1 := by
  have hkd : (t.setChangePosition (some ch.1)).Keyed := by
    unfold Target.Keyed Target.setChangePosition
    rw [h.cols_eq, h.store]
    exact src.keyed_tableAt c
  obtain ⟨action, old, new, hj, hcols, hent⟩ := changeOp_record hkd env ch.2
  have hcols' : (t.setChangePosition (some ch.1)).cols = cols := h.cols_eq
  rw [hcols'] at hent hcols
  have hst : ((changeOp ch.2).apply (t.setChangePosition (some ch.1)) env).store =
      src.tableAt ch.1 := by
    rw [changeOp_store env (hcols' ▸ hkeep), hcols', hnext.tableAt]
    exact congrArg (fun table => ch.2.apply (buildKey cols) table) h.store
  have hj' : ((changeOp ch.2).apply (t.setChangePosition (some ch.1)) env).j =
      t.j.append env action old new (some ch.1) := hj
  have hstm : ((changeOp ch.2).apply (t.setChangePosition (some ch.1)) env).j.Stamped
      src.order ch.1 := by
    obtain ⟨k, -, hdrop⟩ := t.j.entries_append env action old new (some ch.1)
    exact (h.stamped.push hnext.after env.stamp action old new).of_drop (hj' ▸ hdrop)
  refine ⟨hcols, hst, hstm, fun p hp hback => ?_⟩
  by_cases hlt : src.order.Lt p ch.1
  · rw [hj'] at hback ⊢
    exact h.replay_append hnext hent hlt hback
  · exact replay_here hst hstm hp (Comparator.not_lt.mp hlt)

lemma resume (hahead : src.order.Le p c) (hemp : t.j.entries = [] → src.order.Le c p) {seq : Int}
    (hcov : t.j.resumeSeqForPosition (some p) src.order.comparePositions = (seq, true)) :
    replayEntries cols (src.tableAt p) (t.j.entriesSince seq) = t.store := by
  by_cases hne : t.j.entries = []
  · -- nothing is sent, and nothing is missing
    have hsince : t.j.entriesSince seq = [] := by simp [Journal.entriesSince, hne]
    rw [hsince, h.store]
    exact SourceTable.tableAt_eq_of_le hahead (hemp hne)
  · rw [h.stamped.entriesSince_resume hne hcov]
    refine h.replay p hahead ⟨fun hnil => absurd hnil hne, fun e es hcons hnewer => ?_⟩
    -- a front newer than `p` is reported as not covered
    obtain ⟨q, hq, -⟩ := h.stamped.upto e (by simp [hcons])
    have hlt := (src.order.swap p q).mp (hnewer q hq)
    rw [resumeSeqForPosition_cons hcons, if_pos ⟨by simp [hq], by
      rw [hq, src.order.comparePositions_some]; exact hlt⟩] at hcov
    cases hcov

end

end Describes

inductive Phase (P V : Type)
  | idle
  | loading (position : P) (remaining : List (Row V))
  | live (applied : P)

structure Feed (P V : Type) where
  target : Target P V
  phase : Phase P V

def Feed.init (cfg : Config) (cols : List ColumnDefinition) : Feed P V :=
  ⟨(Target.new cfg).onInit cols, .idle⟩

inductive FeedAct (P V : Type)
  | beginBaseline
  | baselineRow
  | baselineComplete
  | restoreSnapshot
  | change (c : P × TableChange V)
  | reload

inductive FeedStep (src : SourceTable P V (buildKey cols)) (s : Feed P V) :
    FeedAct P V → Feed P V → Prop
  /-- A baseline begins: the source will emit the rows of the table as of `b`. -/
  | beginBaseline {b : P} {rows : List (Row V)}
      (hrows : Target.Iterates rows (src.tableAt b)) :
      FeedStep src s .beginBaseline { s with phase := .loading b rows }
  | baselineRow (env : AppendEnv) {b : P} {row : Row V} {rest : List (Row V)}
      (h : s.phase = .loading b (row :: rest)) :
      FeedStep src s .baselineRow ⟨s.target.onBaselineRow env row, .loading b rest⟩
  | baselineComplete {b : P} (h : s.phase = .loading b []) :
      FeedStep src s .baselineComplete
        ⟨(s.target.setChangePosition (some b)).onBaselineComplete, .live b⟩
  | restoreSnapshot {b : P} {rows : List (Row V)}
      (hrows : Target.Iterates rows (src.tableAt b)) :
      FeedStep src s .restoreSnapshot ⟨s.target.restoreSnapshot rows, .live b⟩
  | change (env : AppendEnv) {c : P} {ch : P × TableChange V} (h : s.phase = .live c)
      (hnext : src.IsNext c ch) :
      FeedStep src s (.change ch)
        ⟨(changeOp ch.2).apply (s.target.setChangePosition (some ch.1)) env, .live ch.1⟩
  | reload (env : AppendEnv) : FeedStep src s .reload ⟨s.target.onTruncate env, .idle⟩

def FilledOnce (cols : List ColumnDefinition) (s : Feed P V) : FeedAct P V → Prop
  | .beginBaseline | .restoreSnapshot => s.target.store = ∅ ∧ s.target.j.entries = []
  | .change ch => ch.2.KeepsKey (buildKey cols)
  | _ => True

def Feed.Inv (src : SourceTable P V (buildKey cols)) (s : Feed P V) : Prop :=
  s.target.cols = cols ∧
  match s.phase with
  | .idle => True
  | .loading b remaining =>
      (∀ e ∈ s.target.j.entries, e.position = none) ∧
      load (buildKey cols) s.target.store remaining = src.tableAt b
  | .live c => Describes src s.target c

lemma FeedStep.inv {src : SourceTable P V (buildKey cols)} {s s' : Feed P V}
    {a : FeedAct P V} (hs : FeedStep src s a s') (hinv : s.Inv src)
    (hok : FilledOnce cols s a) : s'.Inv src := by
  obtain ⟨hcols, hph⟩ := hinv
  cases hs with
  | beginBaseline hrows =>
    obtain ⟨hemp, hnil⟩ := hok
    refine ⟨hcols, by simp [hnil], ?_⟩
    rw [hemp]
    exact load_values (src.keyed_tableAt _) hrows
  | baselineRow env h =>
    rw [h] at hph
    obtain ⟨hnone, hload⟩ := hph
    refine ⟨hcols, fun e he => ?_, ?_⟩
    · obtain ⟨k, -, hdrop⟩ := s.target.j.entries_append env .insert none (some _) none
      have hmem := mem_of_mem_drop (hdrop ▸ he)
      rw [Journal.push, mem_append, mem_singleton] at hmem
      rcases hmem with hold | rfl
      · exact hnone e hold
      · rfl
    · rw [load_cons] at hload
      simpa only [Target.onBaselineRow, hcols, put] using hload
  | baselineComplete h =>
    rw [h] at hph
    obtain ⟨hnone, hload⟩ := hph
    refine ⟨hcols, Describes.of_filled hcols hload fun e he => ?_⟩
    -- every baseline entry was without a position and gets the baseline's
    obtain ⟨e', he', rfl⟩ := List.mem_map.mp he
    simp [JournalEntry.backfill, hnone e' he']
  | restoreSnapshot hrows =>
    obtain ⟨-, hnil⟩ := hok
    refine ⟨hcols, Describes.of_filled hcols ?_ fun e he => ?_⟩
    · simp only [Target.restoreSnapshot, Target.loadRows, hcols]
      exact load_values (src.keyed_tableAt _) hrows
    · simp [Target.restoreSnapshot, hnil] at he
  | change env h hnext =>
    rw [h] at hph
    have hdesc := Describes.change hph hnext hok env
    exact ⟨hdesc.cols_eq, hdesc⟩
  | reload env => exact ⟨hcols, trivial⟩

/-- **Resuming by position is sound on a filled target**, for a client that is not ahead of it: if
the journal covers the client's position, the delivered entries turn the table at that position
into the target's store. -/
theorem position_delta_reaches_store {src : SourceTable P V (buildKey cols)} (cfg : Config)
    {s : Feed P V}
    (hreach : Transition.Reach (FeedStep src) (FilledOnce cols) (Feed.init cfg cols) s)
    {c p : P} (hlive : s.phase = .live c) (hahead : src.order.Le p c)
    (hempty : s.target.j.entries = [] → src.order.Le c p) {seq : Int}
    (hcov : s.target.j.resumeSeqForPosition (some p) src.order.comparePositions = (seq, true)) :
    replayEntries cols (src.tableAt p) (s.target.j.entriesSince seq) = s.target.store := by
  have hinv : s.Inv src := hreach.invariant (Feed.Inv src) ⟨rfl, trivial⟩
    fun hinv hok hs => hs.inv hinv hok
  have hdesc : Describes src s.target c := by
    have hph := hinv.2
    rwa [hlive] at hph
  exact hdesc.resume hahead hempty hcov

def exampleTable : SourceTable Int Text (buildKey [⟨"id", true, 1⟩]) where
  order := .ofInt
  initial := put _ ∅ (.ofList [("id", some "1")])
  keyed := Keyed.empty.put _
  changes := [(10, .insert (.ofList [("id", some "2")])),
    (20, .delete (some (.ofList [("id", some "1")])))]
  increasing := by decide

/-- A target that was restored at 20, with an empty journal, covers every position: a client that
holds the table at 10 is sent nothing and keeps the row that was deleted at 20. -/
theorem position_delta_after_restore : ∃ s : Feed Int Text, Transition.Run (FeedStep exampleTable)
        (Feed.init {} [⟨"id", true, 1⟩]) s ∧
      s.phase = .live 20 ∧ s.target.store = exampleTable.tableAt 20 ∧
      s.target.j.resumeSeqForPosition (some 10) exampleTable.order.comparePositions = (0, true) ∧
      replayEntries [⟨"id", true, 1⟩] (exampleTable.tableAt 10) (s.target.j.entriesSince 0) ≠
        s.target.store := by
  have h : Transition.Run (FeedStep exampleTable)
      (Feed.init {} [⟨"id", true, 1⟩]) _ := .refl _
  have h := h.snoc (.restoreSnapshot (b := 20) (.refl _))
  exact ⟨_, h, rfl, by decide +kernel, by decide, by decide +kernel⟩

theorem position_delta_client_behind : ∃ s : Feed Int Text, s.phase = .live 20 ∧
      (s.target.j.entriesSince 2).map (·.sequence) = [3] ∧
      replayEntries [⟨"id", true, 1⟩] (exampleTable.tableAt 10) (s.target.j.entriesSince 2) =
        s.target.store := by
  have h : Transition.Reach (FeedStep exampleTable) (FilledOnce [⟨"id", true, 1⟩])
      (Feed.init {} [⟨"id", true, 1⟩]) _ := .refl _
  have h := h
    |>.snoc (.beginBaseline (b := 0) (.refl _))
    |>.snoc (.baselineRow ⟨0, 0, []⟩ rfl)
    |>.snoc (.baselineComplete rfl)
    |>.snoc (.change ⟨0, 0, []⟩ rfl ⟨mem_cons_self, by decide, by decide⟩)
    |>.snoc (.change ⟨0, 0, []⟩ rfl
      ⟨mem_cons_of_mem _ mem_cons_self, by decide, by decide⟩)
  exact ⟨_, rfl, by decide,
    position_delta_reaches_store {} h rfl (by decide) (fun hnil => by cases hnil) (by decide)⟩

end Feed

end Laredo.Fanout
