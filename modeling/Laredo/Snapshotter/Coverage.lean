import Laredo.Snapshotter.Planning
import Laredo.Snapshotter.PointInTime

/-!
# Coverage

What the committed artifacts hold when changes are published while `flush` and `snapshot` are at
work: the table at their positions (`Covered`).
-/

namespace Laredo.Snapshotter

open Comparator Transition List

variable {B V : Type} [GoValue V]

/-- What `flush` has drained and not stamped yet leads from one table to the other. -/
def Phase.Takes (start mid : Store V) : Phase V → Prop
  | .flushing d => d.buffer.Bridges start mid
  | _ => mid = start

namespace World

/-- Rows are inserted, updated and deleted at strictly increasing positions, under keys they keep;
when `flush` or `snapshot` reads the position, nothing is in flight and nothing has been buffered
since; no snapshot fails; and no object key is used twice. -/
def Quiet (cfg : Config B V) (o : Origin V cfg.keyFields) (s : World B V) (a : Label V) : Prop :=
  s.KeysFree cfg a ∧
  match a with
  | .publish pos e => o.order.Lt s.position pos ∧ e.isTruncate = false ∧ e.KeepsKey cfg.keyFields
  | .rebaseline _ _ => False
  | .stamp | .capture _ => s.inflight = none ∧ s.writer.buffer = ∅
  | .commit fault now => ∀ initial epoch rows pos, s.phase = .captured initial epoch rows pos →
      (s.writer.finishSnapshot cfg epoch rows pos now fault s.destinations).2.2 = true
  | _ => True

/-- The position after which the changes are collected. -/
def since (s : World B V) : Option String :=
  match s.phase with
  | .down | .rebasing _ _ => none
  | .idle | .flushing _ => some s.writer.fromPos
  | .stamped _ q | .captured _ _ _ q => some q

variable {keyFields : List String}

/-- From the table at `q` what was drained leads to `mid`, the buffer to `seen`, and the change in
flight to the table. -/
structure Collects (o : Origin V keyFields) (s : World B V) (q : String) (mid seen : Store V) :
    Prop where
  known : s.Known o q
  takes : s.phase.Takes (s.tableAt o q) mid
  plain : s.writer.buffer.Plain
  bridges : s.writer.buffer.Bridges mid seen
  landed : s.inflight = none → s.table = seen
  flies : ∀ e, s.inflight = some e → e.isTruncate = false ∧ s.table = e.applyBlind keyFields seen
  moved : s.writer.buffer ≠ ∅ ∨ s.inflight ≠ none → o.order.Lt q s.position

structure Covered (cfg : Config B V) (o : Origin V cfg.keyFields) (s : World B V) : Prop
    extends s.History o, s.Acyclic where
  sorted : s.log.Pairwise fun x y => o.order.Lt x.1 y.1
  truthful : Truthful cfg o.order (s.Known o) (s.tableAt o) s.destinations s.writer.manifest
  captured : ∀ initial epoch rows pos, s.phase = .captured initial epoch rows pos →
    rows.Perm ((s.tableAt o pos).toList.map Prod.snd)
  drained : ∀ d, s.phase.drained = some d → d.start = s.writer.fromPos ∧ d.buffer.Plain ∧
    d.changes.Perm (d.buffer.toList.map Prod.snd) ∧ s.Known o d.start ∧
      o.order.Lt d.start s.position
  leads : ∀ d q, s.phase = .stamped d q →
    d.buffer.Bridges (s.tableAt o d.start) (s.tableAt o q) ∧ o.order.Lt d.start q
  collects : ∀ q, s.since = some q → ∃ mid seen, s.Collects o q mid seen

variable {cfg : Config B V} {o : Origin V cfg.keyFields} {s s' : World B V} {a : Label V}

lemma Covered.movesOn (h : s.Covered cfg o) : s.MovesOn a := by
  cases a with
  | stamp =>
    intro d hph
    obtain ⟨-, -, -, -, hlt⟩ := h.drained d (by rw [hph]; rfl)
    refine ⟨fun heq => absurd (heq ▸ hlt) Lt.irrefl, fun a ha hfrom => ?_⟩
    have hgen := h.truthful.held a ha
    obtain ⟨p, hp, -, hlt⟩ := hgen.start hfrom.1
    obtain rfl : p = s.position := Option.some.inj (hp.symm.trans hfrom.2)
    exact hlt.not_le (h.bounded _ hgen.known)
  | _ => trivial

lemma Covered.intends_diff (h : s.Covered cfg o) {d : Drained V} {q : String}
    (hph : s.phase = .stamped d q) :
    s.Intends cfg o (diffArtifact cfg d.epoch d.start q) (·.writeDiff d.changes) := by
  obtain ⟨-, hpl, hperm, hknown, -⟩ := h.drained d (by rw [hph]; rfl)
  obtain ⟨hbrd, hlt⟩ := h.leads d q hph
  obtain ⟨mid, seen, hcol⟩ := h.collects q (by rw [since, hph])
  refine ⟨rfl, hcol.known, fun _ => ⟨d.start, rfl, hknown, hlt⟩, fun f _ data hdata => ?_⟩
  exact ⟨d.start, d.changes, rfl, hdata, hbrd.foldChanges_eq hpl hperm⟩

lemma Covered.intends_snapshot (h : s.Covered cfg o) {initial : Bool} {epoch : Nat}
    {rows : List (Row V)} {q : String} (hph : s.phase = .captured initial epoch rows q) :
    s.Intends cfg o (snapshotArtifact cfg epoch q) (·.writeSnapshot rows) := by
  obtain ⟨mid, seen, hcol⟩ := h.collects q (by rw [since, hph])
  exact ⟨rfl, hcol.known, nofun, fun f _ data hdata => ⟨rows, hdata, h.captured _ _ _ _ hph⟩⟩

/-- Nothing is in flight or buffered: what was drained leads up to the table. -/
lemma Collects.settled {q : String} {mid seen : Store V} (h : s.Collects o q mid seen)
    (hin : s.inflight = none) (hemp : s.writer.buffer = ∅) :
    s.phase.Takes (s.tableAt o q) s.table := by
  have hmid : s.table = mid := by
    rw [h.landed hin]
    refine Std.ExtTreeMap.ext_getElem? fun k => ?_
    simpa [hemp] using h.bridges k
  exact hmid ▸ h.takes

/-- Then collecting starts anew from the position of the subscription. -/
lemma Covered.collects_anew (h : s.Covered cfg o) (hin : s.inflight = none)
    (hemp : s.writer.buffer = ∅) {phase : Phase V} (hph : phase.Takes s.table s.table) :
    Collects o { s with phase := phase } s.position s.table s.table := by
  refine ⟨h.current, ?_, hemp ▸ .empty, hemp ▸ WriteBuffer.Bridges.empty, fun _ => rfl, ?_, ?_⟩
  · exact h.toHistory.tableAt_position.symm ▸ hph
  · simp [hin]
  · simp [hin, hemp]

lemma Covered.publish (h : s.Covered cfg o) {pos : String} {e : Edit V} (hin : s.inflight = none)
    (hpos : o.order.Lt s.position pos) (htr : e.isTruncate = false)
    (hkp : e.KeepsKey cfg.keyFields) :
    Covered cfg o { s with
      table := e.applyBlind cfg.keyFields s.table
      position := pos
      inflight := if s.phase.isDown then none else some e
      log := s.log ++ [(pos, e)] } := by
  have hlog : s.log ++ [(pos, e)] = s.log ++ [e].map (Prod.mk pos) := rfl
  have hknown : ∀ {q}, s.Known o q → Known o { s with log := s.log ++ [(pos, e)] } q := fun hq =>
    (known_append (cons_ne_nil e []) hlog).mpr (.inl hq)
  have hkeep : ∀ {q}, s.Known o q →
      tableAt o { s with log := s.log ++ [(pos, e)] } q = s.tableAt o q := fun hq =>
    tableAt_append hlog ((h.bounded _ hq).trans_lt hpos)
  refine ⟨h.toHistory.publish (cons_ne_nil e []) hpos hlog rfl (Edit.applyBlind_eq hkp _),
    ⟨h.held, h.stored, h.stamped⟩, ?_, h.truthful.mono (fun _ => hknown) fun _ => hkeep,
    ?_, ?_, ?_, ?_⟩
  · refine pairwise_append.mpr ⟨h.sorted, pairwise_singleton _ _, fun x hx y hy => ?_⟩
    rw [mem_singleton.mp hy]
    exact (h.bounded _ (.inr ⟨x, hx, rfl⟩)).trans_lt hpos
  · intro initial epoch rows q hph
    obtain ⟨mid, seen, hcol⟩ := h.collects q (by rw [since, hph])
    exact hkeep hcol.known ▸ h.captured _ _ _ _ hph
  · intro d hd
    obtain ⟨hst0, hpl, hperm, hst, hlt⟩ := h.drained d hd
    exact ⟨hst0, hpl, hperm, hknown hst, hlt.trans hpos⟩
  · intro d q hph
    obtain ⟨-, -, -, hst, -⟩ := h.drained d (by rw [hph]; rfl)
    obtain ⟨mid, seen, hcol⟩ := h.collects q (by rw [since, hph])
    obtain ⟨hbrd, hlt⟩ := h.leads d q hph
    exact ⟨(hkeep hst).symm ▸ (hkeep hcol.known).symm ▸ hbrd, hlt⟩
  · intro q hq
    obtain ⟨mid, seen, hcol⟩ := h.collects q hq
    have hup : s.phase.isDown = false := by
      unfold since at hq
      cases hph : s.phase <;> simp_all [Phase.isDown]
    refine ⟨mid, seen, hknown hcol.known, (hkeep hcol.known).symm ▸ hcol.takes, hcol.plain,
      hcol.bridges, ?_, ?_, fun _ => (h.bounded _ hcol.known).trans_lt hpos⟩
    · simp [hup]
    · intro e' he'
      obtain rfl : e = e' := by simpa [hup] using he'
      exact ⟨htr, congrArg (Edit.applyBlind cfg.keyFields · e) (hcol.landed hin)⟩

/-- However it was reached, without a base nothing is collected. -/
lemma Covered.unbased (h : s.Covered cfg o) (hacyc : s'.Acyclic) (hlog : s'.log = s.log)
    (hpos : s'.position = s.position) (htab : s'.table = s.table)
    (htruth : Truthful cfg o.order (s.Known o) (s.tableAt o) s'.destinations s'.writer.manifest)
    (hph : s'.since = none) : s'.Covered cfg o := by
  have hnone : ∀ q, s'.phase.stamp ≠ some q ∧ ∀ d, s'.phase.drained ≠ some d := by
    unfold since at hph
    cases hcase : s'.phase <;> simp_all [Phase.stamp, Phase.drained]
  refine ⟨h.toHistory.of_eq hlog hpos htab, hacyc, hlog ▸ h.sorted, ?_, ?_, ?_, ?_, ?_⟩
  · unfold Known tableAt at htruth ⊢
    rwa [hlog]
  · intro initial epoch rows q hcap
    exact absurd (by rw [hcap]; rfl) (hnone q).1
  · intro d hd
    exact absurd hd ((hnone "").2 d)
  · intro d q hstm
    exact absurd (by rw [hstm]; rfl) (hnone q).1
  · intro q hq
    rw [hph] at hq
    cases hq

lemma Covered.write (h : s.Covered cfg o) (hap : cfg.FormatsApart) {d : Drained V} {q : String}
    {fault : Option Nat} (hph : s.phase = .stamped d q) (hfree : s.KeysFree cfg (.write fault))
    (hacyc : (s.afterFlush cfg d q
      (s.writer.finishFlush cfg d q s.table.size fault s.destinations)).Acyclic) :
    Covered cfg o (s.afterFlush cfg d q
      (s.writer.finishFlush cfg d q s.table.size fault s.destinations)) := by
  obtain ⟨hst0, hpl, -, hst, -⟩ := h.drained d (by rw [hph]; rfl)
  obtain ⟨hbrd, hlt⟩ := h.leads d q hph
  obtain ⟨mid, seen, hcol⟩ := h.collects q (by rw [since, hph])
  have hmid : mid = s.tableAt o q := by simpa [hph, Phase.Takes] using hcol.takes
  rcases h.truthful.flushed hap hph hfree fun _ => h.intends_diff hph with
    hreb | ⟨st, w, ok, -, hatt, hdone, htruth, -⟩
  · rw [hreb] at hacyc ⊢
    exact h.unbased hacyc rfl rfl rfl h.truthful rfl
  · rw [hdone] at hacyc ⊢
    cases ok with
    | true =>
      refine ⟨h.toHistory.of_eq rfl rfl rfl, hacyc, h.sorted, htruth, nofun, nofun, nofun, ?_⟩
      rintro _ ⟨⟩
      have hbuf : w.buffer = s.writer.buffer := hatt.buffer_eq
      exact ⟨mid, seen, hcol.known, hmid, hbuf ▸ hcol.plain, hbuf ▸ hcol.bridges, hcol.landed,
        hcol.flies, hbuf ▸ hcol.moved⟩
    | false =>
      refine ⟨h.toHistory.of_eq rfl rfl rfl, hacyc, h.sorted, htruth, nofun, nofun, nofun, ?_⟩
      rintro _ ⟨⟩
      have hfrom : w.fromPos = d.start := hatt.fromPos_eq.1.trans hst0.symm
      refine ⟨s.tableAt o d.start, seen, hfrom ▸ hst, ?_, ?_, ?_, hcol.landed, hcol.flies,
        fun _ => ?_⟩
      · exact congrArg _ hfrom.symm
      · exact (hatt.buffer_eq ▸ hcol.plain).remerge hpl
      · exact hbrd.remerge (hmid ▸ hatt.buffer_eq ▸ hcol.bridges)
      · exact hfrom ▸ hlt.trans_le (h.bounded _ hcol.known)

lemma Covered.step (h : s.Covered cfg o) (hap : cfg.FormatsApart) (hok : s.Quiet cfg o a)
    (hs : Step cfg s a s') : s'.Covered cfg o := by
  obtain ⟨hfree, hok⟩ := hok
  have hacyc := h.toAcyclic.step h.movesOn hs
  cases hs with
  | publish hin => exact h.publish hin hok.1 hok.2.1 hok.2.2
  | @deliver e hin =>
    refine ⟨h.toHistory.of_eq rfl rfl rfl, hacyc, h.sorted, h.truthful, h.captured, h.drained,
      h.leads, ?_⟩
    intro q hq
    obtain ⟨mid, seen, hcol⟩ := h.collects q hq
    obtain ⟨htr, htab⟩ := hcol.flies e hin
    refine ⟨mid, s.table, hcol.known, hcol.takes, hcol.plain.onChange htr, ?_, fun _ => rfl, nofun,
      fun _ => hcol.moved (.inr (by simp [hin]))⟩
    exact htab ▸ hcol.bridges.onChange htr
  | rebaseline _ => exact hok.elim
  | @drain changes now hph hne hperm =>
    obtain ⟨mid, seen, hcol⟩ := h.collects s.writer.fromPos (by rw [since, hph])
    have hmid : mid = s.tableAt o s.writer.fromPos := by simpa [hph, Phase.Takes] using hcol.takes
    refine ⟨h.toHistory.of_eq rfl rfl rfl, hacyc, h.sorted, h.truthful, nofun, ?_, nofun, ?_⟩
    · rintro _ ⟨⟩
      exact ⟨rfl, hcol.plain, hperm, hcol.known, hcol.moved (.inl hne)⟩
    · rintro _ ⟨⟩
      refine ⟨seen, seen, hcol.known, hmid ▸ hcol.bridges, .empty, WriteBuffer.Bridges.empty,
        hcol.landed, hcol.flies, fun hmv => hcol.moved (.inr (hmv.resolve_left fun hne => hne rfl))⟩
  | @stamp d hph =>
    obtain ⟨mid, seen, hcol⟩ := h.collects s.writer.fromPos (by rw [since, hph])
    have hdrn := h.drained d (by rw [hph]; rfl)
    refine ⟨h.toHistory.of_eq rfl rfl rfl, hacyc, h.sorted, h.truthful, nofun, ?_, ?_, ?_⟩
    · rintro _ ⟨⟩
      exact hdrn
    · rintro _ _ ⟨⟩
      have htakes := hcol.settled hok.1 hok.2
      rw [hph, ← hdrn.1, ← h.toHistory.tableAt_position] at htakes
      exact ⟨htakes, hdrn.2.2.2.2⟩
    · rintro _ ⟨⟩
      exact ⟨_, _, h.collects_anew hok.1 hok.2 rfl⟩
  | write hph => exact h.write hap hph hfree hacyc
  | force _ | crash => exact h.unbased hacyc rfl rfl rfl h.truthful rfl
  | @capture initial epoch rows hph hperm =>
    refine ⟨h.toHistory.of_eq rfl rfl rfl, hacyc, h.sorted, h.truthful, ?_, nofun, nofun, ?_⟩
    · rintro _ _ _ _ ⟨⟩
      exact h.toHistory.tableAt_position.symm ▸ hperm
    · rintro _ ⟨⟩
      exact ⟨_, _, h.collects_anew hok.1 hok.2 rfl⟩
  | @commit initial epoch rows q fault now hph =>
    obtain ⟨st, w, ok, bytes, hatt, hdone, htruth, -⟩ :=
      h.truthful.snapshotted hap hph now hfree (h.intends_snapshot hph)
    have hsuccess := hok initial epoch rows q hph
    obtain ⟨mid, seen, hcol⟩ := h.collects q (by rw [since, hph])
    have hmid : mid = s.tableAt o q := by simpa [hph, Phase.Takes] using hcol.takes
    rw [hdone] at hsuccess hacyc ⊢
    obtain rfl : ok = true := hsuccess
    refine ⟨h.toHistory.of_eq rfl rfl rfl, hacyc, h.sorted, htruth, nofun, nofun, nofun, ?_⟩
    rintro _ ⟨⟩
    have hbuf : w.buffer = s.writer.buffer := hatt.buffer_eq
    exact ⟨mid, seen, hcol.known, hmid, hbuf ▸ hcol.plain, hbuf ▸ hcol.bridges, hcol.landed,
      hcol.flies, hbuf ▸ hcol.moved⟩
  | @dieFlushing d q fault hph =>
    rcases h.truthful.flushed hap hph hfree fun _ => h.intends_diff hph with
      hreb | ⟨st, w, ok, -, -, hdone, -, htruth⟩
    · rw [hreb] at hacyc ⊢
      exact h.unbased hacyc rfl rfl rfl h.truthful rfl
    · rw [hdone] at hacyc ⊢
      cases ok <;> exact h.unbased hacyc rfl rfl rfl htruth rfl
  | @dieSnapshotting initial epoch rows q fault hph =>
    obtain ⟨st, w, ok, bytes, -, hdone, -, htruth⟩ :=
      h.truthful.snapshotted hap hph 0 hfree (h.intends_snapshot hph)
    rw [hdone] at hacyc ⊢
    exact h.unbased hacyc rfl rfl rfl htruth rfl
  | start _ => exact h.unbased hacyc rfl rfl rfl h.truthful.loadManifest rfl

/-- The changes after `q` lead from the table at `q` to the table. -/
lemma Covered.replay_later (h : s.Covered cfg o) (q : String) : Edit.replay cfg.keyFields
    (s.tableAt o q) ((s.log.filter fun x => o.order.Lt q x.1).map Prod.snd) = s.table := by
  have hsplit : ∀ log : List (String × Edit V), log.Pairwise (fun x y => o.order.Lt x.1 y.1) →
      (log.filter fun x => o.order.Le x.1 q) ++ (log.filter fun x => o.order.Lt q x.1) = log := by
    intro log hsorted
    induction log with
    | nil => rfl
    | cons x log ih =>
      obtain ⟨hx, hlog⟩ := pairwise_cons.mp hsorted
      by_cases hle : o.order.Le x.1 q
      · rw [filter_cons_of_pos (by simpa using hle), filter_cons_of_neg, cons_append, ih hlog]
        simpa using fun hlt : o.order.Lt q x.1 => hlt.not_le hle
      · -- from the first change after `q` on, all are
        have hall : ∀ y ∈ x :: log, o.order.Lt q y.1 := by
          intro y hy
          rcases mem_cons.mp hy with rfl | hy
          · exact Comparator.not_le.mp hle
          · exact (Comparator.not_le.mp hle).trans (hx y hy)
        rw [filter_eq_nil_iff.mpr, nil_append, filter_eq_self]
        · exact fun y hy => decide_eq_true (hall y hy)
        · exact fun y hy => by simpa using (hall y hy).not_le
  rw [h.table, tableAt, Edit.replay, Edit.replay, Edit.replay, ← foldl_append, ← map_append,
    hsplit _ h.sorted]

/-- What a consumer gets that asks for `p`: nothing before the first snapshot, or a table that the
changes after its position make up to the present one. -/
def Continues (o : Origin V keyFields) (s : World B V) (m : Manifest) (p : String) :
    Option (Reconstruction V) → Prop
  | none => ∀ a ∈ m.artifacts, a.kind = .snapshot → o.order.Lt p a.toPosition
  | some rec => ∃ table : Store V, rec.rows = table.toList.map Prod.snd ∧
      Edit.replay keyFields table
        ((s.log.filter fun x => o.order.Lt rec.position x.1).map Prod.snd) = s.table

/-- **An artifact covers its position.** In every run whose steps are `Quiet`, what a listed
artifact has stored leads to the table at its position, and a consumer that goes on after the
position of a reconstruction misses no change. -/
theorem artifacts_cover_position (cfg : Config B V) (o : Origin V cfg.keyFields)
    (hapart : cfg.FormatsApart) (r : Reader B V) (hr : r.Decodes cfg)
    (hreach : Reach (Step cfg) (Quiet cfg o) (World.init o.table o.position) s) {n : String}
    (hn : n ∈ cfg.destinations) {m : Manifest} (hm : (s.destinations n).manifest = some m) :
    (∀ a ∈ m.artifacts, a.Sound cfg (s.tableAt o) (s.destinations n)) ∧
    ∀ p, ∃ fuel result,
      r.reconstructAsOf fuel (s.destinations n) p cfg.keyFields o.order.cmp = some (.ok result) ∧
      s.Continues o m p result := by
  have hinv : s.Covered cfg o := by
    refine hreach.invariant (Covered cfg o) ⟨History.init, ⟨NoReturn.nil, nofun, nofun⟩, .nil,
      ⟨nofun, nofun, nofun⟩, nofun, nofun, nofun, nofun⟩ ?_
    intro s₁ s₂ a h hok hs
    exact h.step hapart hok hs
  refine ⟨fun a ha => (hinv.truthful.stored n hn m hm a ha).sound n hn, fun p => ?_⟩
  obtain ⟨fuel, result, hrec⟩ :=
    reconstruct_total r (hinv.stored n m hm) hm p cfg.keyFields o.order.cmp
  rcases hinv.truthful.reconstruct_inv hr hn hm hrec with ⟨rfl, hbef⟩ | ⟨_, _, q, -, -, -, rfl⟩
  · exact ⟨fuel, none, hrec, hbef⟩
  · exact ⟨fuel, some _, hrec, _, rfl, hinv.replay_later q⟩

/-- `flush` takes the buffer with the change at 0/20; the change at 0/30 is published; `flush`
reads the position: its diff carries 0/30, the archive gives back row 1 alone there, and no change
is left after it. -/
theorem diff_misses_change_at_its_position : ∃ s : World (Payload Text) Text,
      Run (Step diffsOnly) (World.init ∅ "0/10") s ∧
      s.log.map Prod.fst = ["0/20", "0/30"] ∧
      s.table.toList.map Prod.snd = [rowWithId "1", rowWithId "2"] ∧
      (s.destinations "local").manifest.map (·.headPosition) = some "0/30" ∧
      plainReader.reconstructAsOf 3 (s.destinations "local") "0/30" ["id"] (ofOrd String).cmp =
        some (.ok (some ⟨[rowWithId "1"], "0/30"⟩)) := by
  have h : Run (Step diffsOnly) (World.init ∅ "0/10") _ := .refl _
  have h := h
    |>.snoc (.start rfl)
    |>.snoc (.capture rfl (.refl _))
    |>.snoc (a := .commit none 0) (.commit rfl)
    |>.snoc (a := .publish "0/20" insertOne) (.publish rfl)
    |>.snoc (.deliver rfl)
    |>.snoc (a := .drain _ 0) (.drain rfl buffer_insertOne_ne (.refl _))
    |>.snoc (a := .publish "0/30" insertTwo) (.publish rfl)
    |>.snoc (.stamp rfl)
    |>.snoc (a := .write none) (.write rfl)
  exact ⟨_, h, rfl, rfl, rfl, rfl⟩

theorem diff_covers_its_position : ∃ (s : World (Payload Text) Text) (m : Manifest),
      Reach (Step diffsOnly) (Quiet diffsOnly (emptyAt "0/10")) (World.init ∅ "0/10") s ∧
      s.log.map Prod.fst = ["0/20", "0/30"] ∧ (s.destinations "local").manifest = some m ∧
      m.headPosition = "0/20" ∧
      (∀ a ∈ m.artifacts, a.Sound diffsOnly (s.tableAt (emptyAt "0/10")) (s.destinations "local")) ∧
      ∃ fuel result, plainReader.reconstructAsOf fuel (s.destinations "local") "0/20" ["id"]
        (ofOrd String).cmp = some (.ok result) ∧ s.Continues (emptyAt "0/10") m "0/20" result := by
  have h : Reach (Step diffsOnly) (Quiet diffsOnly (emptyAt "0/10")) (World.init ∅ "0/10") _ :=
    .refl _
  have h := h
    |>.snoc (.start rfl)
    |>.snoc (.capture rfl (.refl _))
    |>.snoc (a := .commit none 0) (.commit rfl) (by
      refine ⟨plainConfig_keysFree rfl (by decide +kernel), ?_⟩
      intro _ _ _ _ hph
      cases hph
      rfl)
    |>.snoc (a := .publish "0/20" insertOne) (.publish rfl)
    |>.snoc (.deliver rfl)
    |>.snoc (a := .drain _ 0) (.drain rfl buffer_insertOne_ne (.refl _))
    |>.snoc (.stamp rfl)
    |>.snoc (a := .publish "0/30" insertTwo) (.publish rfl)
    |>.snoc (a := .write none) (.write rfl)
      (by exact ⟨plainConfig_keysFree rfl (by decide +kernel), trivial⟩)
  have hcover := artifacts_cover_position diffsOnly (emptyAt "0/10") plainConfig_formatsApart
    plainReader plainReader_decodes h (n := "local") (mem_singleton.mpr rfl) rfl
  exact ⟨_, _, h, rfl, rfl, rfl, hcover.1, hcover.2 "0/20"⟩

end World

end Laredo.Snapshotter
