import Laredo.Snapshotter.Recovery
import Laredo.Snapshotter.SourceSub

/-!
# Resubscribe

What becomes of a re-baseline in the archive.
-/

namespace Laredo.Snapshotter

open Transition KeyedMap List Buffer Comparator World

variable {B V : Type}

structure Resubscribed (B V : Type) where
  world : World B V
  moved : Prop

namespace Resubscribed

def init (table : Store V) (position : String) : Resubscribed B V :=
  ⟨World.init table position, False⟩

def Current (σ : Resubscribed B V) : Prop := σ.world.snapshotFailed = false ∧ ¬ σ.moved

def movedBy (σ : Resubscribed B V) (w : World B V) : Label V → Prop
  | .rebaseline rows _ => σ.moved ∨ rows ≠ σ.world.table
  | .commit _ _ => σ.moved ∧ w.snapshotFailed = true
  | _ => σ.moved

inductive Step [GoValue V] (cfg : Config B V) (σ : Resubscribed B V) :
    Option (Label V) → Resubscribed B V → Prop
  | nothing (hphase : σ.world.phase = .idle) (hempty : σ.world.writer.buffer = ∅) :
      Step cfg σ none σ
  | step {a : Label V} {w : World B V} (h : Snapshotter.Step cfg σ.world a w) :
      Step cfg σ (some a) ⟨w, σ.movedBy w a⟩

def Succeeds (σ σ' : Resubscribed B V) : Option (Label V) → Prop
  | none => True
  | some _ => σ'.world.archive.length = σ.world.archive.length + 1

end Resubscribed

section

variable [GoValue V] {keyFields : List String}

/-- The subscription's positions increase, with rows filed under their keys and without
truncates; nothing is published while the writer flushes or takes a snapshot, and nothing is
baselined between its reading the subscription and its writing. -/
def World.Advances (o : Origin V keyFields) (s : World B V) : Label V → Prop
  | .publish pos e => o.order.Lt s.position pos ∧ e.isTruncate = false ∧
      (s.phase = .idle ∨ s.phase = .down)
  | .rebaseline rows pos => Keyed (fun row => rowKey keyFields (some row)) rows ∧
      s.phase.stamp = none ∧ (o.order.Lt s.position pos ∨ pos = s.position ∧ rows = s.table)
  | .drain _ _ | .force => s.inflight = none
  | _ => True

def Resubscribed.DiffsCurrent (cfg : Config B V) (σ : Resubscribed B V) : Label V → Prop
  | .write fault | .die fault =>
      ∀ art, σ.world.target cfg fault = some art → art.kind = .diff → σ.Current
  | _ => True

def Resubscribed.Recaptures (cfg : Config B V) (o : Origin V cfg.keyFields)
    (σ : Resubscribed B V) : Option (Label V) → Prop
  | none => σ.world.inflight = none ∧ σ.Current
  | some a => σ.world.Advances o a ∧ σ.world.KeysFree cfg a ∧ σ.DiffsCurrent cfg a

lemma Adapter.keyed_baseline (a : Adapter V) (rows : List (Row V)) (pos : String) :
    Keyed (fun row => rowKey a.keyFields (some row)) (a.baseline rows pos).state :=
  Keyed.load Keyed.empty rows

end

/-- The world with another history, in which the rows of a re-baseline came by changes. -/
structure Shadows (t : World B V) (σ : Resubscribed B V) : Prop where
  table : t.table = σ.world.table
  position : t.position = σ.world.position
  inflight : t.inflight = σ.world.inflight
  writer : t.writer = σ.world.writer
  phase : t.phase = σ.world.phase
  destinations : t.destinations = σ.world.destinations
  failed : t.snapshotFailed = true ↔ σ.world.snapshotFailed = true ∨ σ.moved

def Label.Subscribes : Label V → Prop
  | .publish _ _ | .rebaseline _ _ => True
  | _ => False

section

variable {cfg : Config B V} {σ : Resubscribed B V} {t w : World B V} {a : Label V}

lemma Shadows.current (h : Shadows t σ) (hcur : σ.Current) : t.snapshotFailed = false := by
  cases hfail : t.snapshotFailed with
  | false => rfl
  | true =>
    rcases h.failed.mp hfail with hold | hmvd
    · rw [hcur.1] at hold
      cases hold
    · exact absurd hmvd hcur.2

lemma Shadows.target (h : Shadows t σ) (fault : Option Nat) :
    t.target cfg fault = σ.world.target cfg fault := by
  unfold World.target
  rw [h.phase, h.writer, h.table, h.destinations]

lemma Shadows.listed (h : Shadows t σ) {art : Artifact} (hart : t.Listed cfg art) :
    σ.world.Listed cfg art := by
  unfold World.Listed at hart ⊢
  rwa [h.writer, h.destinations] at hart

lemma Shadows.keysFree (h : Shadows t σ) (hfree : σ.world.KeysFree cfg a) :
    t.KeysFree cfg a := by
  cases a with
  | write fault | commit fault now | die fault =>
    intro art htgt b hb
    exact hfree art (h.target fault ▸ htgt) b (h.listed hb)
  | _ => trivial

lemma Shadows.diffsComplete (h : Shadows t σ) (hcur : σ.DiffsCurrent cfg a) :
    t.DiffsComplete cfg a := by
  cases a with
  | write fault | die fault =>
    intro art htgt hkind
    exact h.current (hcur art (h.target fault ▸ htgt) hkind)
  | _ => trivial

variable [GoValue V]

lemma Shadows.regular (h : Shadows t σ) {o : Origin V cfg.keyFields}
    (hadva : σ.world.Advances o a) (ha : ¬ a.Subscribes) : t.Regular o a := by
  cases a with
  | publish | rebaseline => exact absurd trivial ha
  | drain | force => exact h.inflight.trans hadva
  | _ => trivial

lemma Shadows.step (h : Shadows t σ) (hs : Step cfg σ.world a w) (ha : ¬ a.Subscribes) :
    ∃ t', Step cfg t a t' ∧ Shadows t' ⟨w, σ.movedBy w a⟩ ∧
      (w.archive.length = σ.world.archive.length + 1 →
        t'.archive.length = t.archive.length + 1) := by
  obtain ⟨s, moved⟩ := σ
  obtain ⟨table, position, inflight, writer, phase, destinations, log, archive, failed⟩ := t
  obtain ⟨rfl, rfl, rfl, rfl, rfl, rfl, hfail⟩ := h
  have hsame : s.archive.length = s.archive.length + 1 → archive.length = archive.length + 1 :=
    fun hgrown => absurd hgrown.symm (Nat.succ_ne_self _)
  cases hs with
  | publish | rebaseline => exact absurd trivial ha
  | deliver hin => exact ⟨_, .deliver hin, ⟨rfl, rfl, rfl, rfl, rfl, rfl, hfail⟩, hsame⟩
  | drain hph hne hperm =>
    exact ⟨_, .drain hph hne hperm, ⟨rfl, rfl, rfl, rfl, rfl, rfl, hfail⟩, hsame⟩
  | stamp hph => exact ⟨_, .stamp hph, ⟨rfl, rfl, rfl, rfl, rfl, rfl, hfail⟩, hsame⟩
  | write hph =>
    refine ⟨_, .write hph, ?_⟩
    generalize s.writer.finishFlush cfg _ _ _ _ _ = result
    obtain ⟨st, w, outcome⟩ := result
    cases outcome with
    | done => exact ⟨⟨rfl, rfl, rfl, rfl, rfl, rfl, hfail⟩, fun _ => length_append⟩
    | failed | rebase => exact ⟨⟨rfl, rfl, rfl, rfl, rfl, rfl, hfail⟩, hsame⟩
  | force hph => exact ⟨_, .force hph, ⟨rfl, rfl, rfl, rfl, rfl, rfl, hfail⟩, hsame⟩
  | capture hph hperm =>
    exact ⟨_, .capture hph hperm, ⟨rfl, rfl, rfl, rfl, rfl, rfl, hfail⟩, hsame⟩
  | commit hph =>
    refine ⟨_, .commit hph, ?_⟩
    generalize s.writer.finishSnapshot cfg _ _ _ _ _ _ = result
    obtain ⟨st, w, ok⟩ := result
    cases ok with
    | true =>
      refine ⟨⟨rfl, rfl, rfl, rfl, rfl, rfl, ?_⟩, fun _ => length_append⟩
      simp [afterSnapshot, Resubscribed.movedBy]
    | false =>
      refine ⟨⟨rfl, rfl, rfl, rfl, rfl, rfl, ?_⟩, hsame⟩
      simp [afterSnapshot]
  | crash => exact ⟨_, .crash, ⟨rfl, rfl, rfl, rfl, rfl, rfl, hfail⟩, hsame⟩
  | dieFlushing hph =>
    exact ⟨_, .dieFlushing hph, ⟨rfl, rfl, rfl, rfl, rfl, rfl, hfail⟩, hsame⟩
  | dieSnapshotting hph =>
    exact ⟨_, .dieSnapshotting hph, ⟨rfl, rfl, rfl, rfl, rfl, rfl, hfail⟩, hsame⟩
  | start hph => exact ⟨_, .start hph, ⟨rfl, rfl, rfl, rfl, rfl, rfl, hfail⟩, hsame⟩

end

section

variable [GoValue V]

lemma Edit.exists_apply_eq (keyFields : List String) (e : Edit V) (table : Store V) :
    ∃ e₀ : Edit V, e₀.apply keyFields table = e.applyBlind keyFields table := by
  obtain ⟨old, new⟩ := e
  cases new with
  | some new => exact ⟨⟨none, some new⟩, by cases old <;> rfl⟩
  | none => exact ⟨⟨old, none⟩, by cases old <;> rfl⟩

def Edit.replace (rows : Store V) : List (Edit V) :=
  ⟨none, none⟩ :: (rows.toList.map Prod.snd).map fun row => ⟨none, some row⟩

lemma Edit.replay_replace {keyFields : List String} {rows : Store V}
    (hkd : Keyed (fun row => rowKey keyFields (some row)) rows) (table : Store V) :
    Edit.replay keyFields table (Edit.replace rows) = rows := by
  unfold Edit.replay Edit.replace
  rw [foldl_cons, foldl_map]
  exact load_values hkd (.refl _)

namespace World

variable {cfg : Config B V} {o : Origin V cfg.keyFields} {s s' : World B V} {a : Label V}

structure Settled (cfg : Config B V) (o : Origin V cfg.keyFields) (s : World B V) : Prop
    extends s.Recoverable cfg o where
  settled : s.Based → s.unsaved cfg.keyFields = ∅ →
    s.writer.manifest.headPosition = s.writer.fromPos ∧
      ∀ n ∈ cfg.destinations, (s.destinations n).manifest = some s.writer.manifest

lemma Settled.init : Settled cfg o (World.init o.table o.position) :=
  ⟨Recoverable.init, fun hbs => nomatch hbs.2⟩

lemma Settled.publish (h : s.Settled cfg o) {pos : String} {e e₀ : Edit V}
    (hin : s.inflight = none) (hpos : o.order.Lt s.position pos) (htr : e.isTruncate = false)
    (hcalm : s.phase = .idle ∨ s.phase = .down)
    (hsame : e₀.apply cfg.keyFields s.table = e.applyBlind cfg.keyFields s.table) :
    Settled cfg o { s with
      table := e.applyBlind cfg.keyFields s.table
      position := pos
      inflight := if s.phase.isDown then none else some e
      log := s.log ++ [(pos, e₀)] } := by
  refine ⟨⟨h.toFaithful.publish hin hpos htr hcalm hsame, h.anchored⟩, fun hbs hemp => ?_⟩
  rcases hcalm with hph | hph
  · -- the change is in the buffer or in flight
    simp only [unsaved, hph, Phase.drained, Phase.isDown] at hemp
    exact absurd hemp (onChange_ne_empty _ _ _ _)
  · have hcoll := hbs.2
    rw [hph] at hcoll
    cases hcoll

lemma Settled.rebaseline (h : s.Settled cfg o) {rows : Store V} {pos : String}
    (hin : s.inflight = none)
    (hkd : Keyed (fun row => rowKey cfg.keyFields (some row)) rows)
    (hstamp : s.phase.stamp = none) (hpos : o.order.Lt s.position pos) {failed : Bool}
    (hfail : failed = false → s.snapshotFailed = false ∧ rows = s.table) :
    Settled cfg o { s with
      table := rows
      position := pos
      log := s.log ++ (Edit.replace rows).map (Prod.mk pos)
      snapshotFailed := failed } := by
  have hbef : ∀ {q}, s.Known o q → o.order.Lt q pos := fun hq => (h.bounded _ hq).trans_lt hpos
  have hbs : failed = false ∧ s.phase.collects = true → s.Based ∧ rows = s.table := by
    rintro ⟨hclean, hcoll⟩
    obtain ⟨hold, hrows⟩ := hfail hclean
    exact ⟨⟨hold, hcoll⟩, hrows⟩
  refine ⟨⟨h.toFaithful.move (Edit.replace rows) nofun hpos rfl rfl
    (Edit.replay_replace hkd s.table).symm rfl rfl rfl hstamp (fun _ => hin) ?_, ?_⟩, ?_⟩
  · intro hbs'
    obtain ⟨hold, hrows⟩ := hbs hbs'
    obtain ⟨hfrom, hpl, hbrd, -⟩ := h.tracks hold
    refine ⟨(known_append (by exact nofun) rfl).mpr (.inl hfrom), hpl, ?_, fun _ => hbef hfrom⟩
    rw [tableAt_append rfl (hbef hfrom)]
    rw [hrows]
    exact hbrd
  · intro hbs'
    exact h.anchored (hbs hbs').1
  · intro hbs' hemp
    exact h.settled (hbs hbs').1 hemp

lemma Settled.step (h : s.Settled cfg o) (hap : cfg.FormatsApart) (hok : s.Recovers cfg o a)
    (hs : Step cfg s a s') (ha : ¬ a.Subscribes) : s'.Settled cfg o := by
  refine ⟨h.toRecoverable.step hap hok hs, fun hbs hemp => ?_⟩
  by_cases hcomm : s'.archive.length = s.archive.length + 1
  · obtain ⟨-, hstd, hfrom, hhead⟩ :=
      h.toRecoverable.committed hap hok.2.1 hok.2.2 hs hcomm
    exact ⟨hhead.trans hfrom.symm, hstd⟩
  cases hs with
  | publish | rebaseline => exact absurd trivial ha
  | @deliver e hin =>
    have hidle : s.phase = .idle := by
      by_contra hne
      rw [h.calm hne] at hin
      cases hin
    simp only [unsaved, hidle, Phase.drained] at hemp
    exact absurd hemp (onChange_ne_empty _ _ _ _)
  | drain hph hne hperm => exact absurd hemp hne
  | stamp hph =>
    have hcoll : s.phase.collects = true := by rw [hph]; rfl
    refine h.settled ⟨hbs.1, hcoll⟩ ?_
    simpa only [unsaved, hph, Phase.drained] using hemp
  | @write d upTo fault hph =>
    obtain ⟨-, -, hne, -⟩ := h.drained d (by rw [hph]; rfl)
    have hin : s.inflight = none := h.calm (by simp [hph])
    rcases h.truthful.flushed hap hph hok.2.1 fun htgt =>
      h.intends_diff hph (hok.2.2 _ htgt rfl) with
      hreb | ⟨st, w, ok, -, -, hdone, -, -⟩
    · rw [hreb] at hbs
      cases hbs.2
    · rw [hdone] at hcomm hemp
      cases ok with
      | true => exact absurd length_append hcomm
      | false =>
        -- what was drained is back in the buffer
        simp only [afterFlush, unsaved, Phase.drained, hin] at hemp
        exact absurd hemp (remerge_ne_empty hne)
  | @commit initial epoch rows pos fault now hph =>
    obtain ⟨st, w, ok, bytes, -, hdone, -, -⟩ := h.truthful.snapshotted hap hph now hok.2.1
      (h.intends_snapshot hph)
    rw [hdone] at hcomm hbs
    cases ok with
    | true => exact absurd length_append hcomm
    | false => cases hbs.1
  | force | capture | crash | dieFlushing | dieSnapshotting | start => cases hbs.2

end World

end

section

variable [GoValue V] {cfg : Config B V} {o : Origin V cfg.keyFields} {σ σ' : Resubscribed B V}

lemma Shadows.publish {t : World B V} (h : Shadows t σ) (hinv : t.Settled cfg o)
    (hin : σ.world.inflight = none) {pos : String} {e : Edit V}
    (hadva : σ.world.Advances o (.publish pos e)) :
    ∃ t' : World B V, t'.Settled cfg o ∧ Shadows t' ⟨{ σ.world with
      table := e.applyBlind cfg.keyFields σ.world.table
      position := pos
      inflight := if σ.world.phase.isDown then none else some e
      log := σ.world.log ++ [(pos, e)] }, σ.moved⟩ := by
  obtain ⟨hpos, htr, hcalm⟩ := hadva
  obtain ⟨e₀, hsame⟩ := Edit.exists_apply_eq cfg.keyFields e t.table
  refine ⟨_, hinv.publish (h.inflight.trans hin) (h.position ▸ hpos) htr (h.phase ▸ hcalm)
    hsame, ?_, rfl, ?_, h.writer, h.phase, h.destinations, h.failed⟩
  · rw [h.table]
  · rw [h.phase]

lemma Shadows.rebaseline {t : World B V} (h : Shadows t σ) (hinv : t.Settled cfg o)
    (hin : σ.world.inflight = none) {rows : Store V} {pos : String}
    (hadva : σ.world.Advances o (.rebaseline rows pos)) :
    ∃ t' : World B V, t'.Settled cfg o ∧ Shadows t'
      ⟨{ σ.world with table := rows, position := pos }, σ.moved ∨ rows ≠ σ.world.table⟩ := by
  obtain ⟨hkd, hstamp, hpos | ⟨rfl, rfl⟩⟩ := hadva
  · classical
    let failed := decide (t.snapshotFailed = true ∨ rows ≠ t.table)
    have hfail : failed = false → t.snapshotFailed = false ∧ rows = t.table := by
      intro hclean
      simpa [failed] using hclean
    refine ⟨_, hinv.rebaseline (h.inflight.trans hin) hkd (h.phase ▸ hstamp)
      (h.position ▸ hpos) hfail, rfl, rfl, h.inflight, h.writer, h.phase, h.destinations, ?_⟩
    rw [decide_eq_true_iff, h.failed, h.table, or_assoc]
  · refine ⟨t, hinv, h.table, h.position, h.inflight, h.writer, h.phase, h.destinations, ?_⟩
    simpa using h.failed

lemma Resubscribed.Step.shadow {a : Option (Label V)} (hs : Resubscribed.Step cfg σ a σ')
    (hap : cfg.FormatsApart) (hok : σ.Recaptures cfg o a)
    (h : ∃ t : World B V, t.Settled cfg o ∧ Shadows t σ) :
    ∃ t : World B V, t.Settled cfg o ∧ Shadows t σ' ∧
      (σ.Succeeds σ' a → t.Based ∧ t.tableAt o t.writer.fromPos = t.table ∧
        t.writer.manifest.headPosition = t.writer.fromPos ∧
        ∀ n ∈ cfg.destinations, (t.destinations n).manifest = some t.writer.manifest) := by
  obtain ⟨t, hinv, hshd⟩ := h
  cases hs with
  | nothing hph hemp =>
    obtain ⟨hin, hcur⟩ := hok
    have hbs : t.Based := by
      refine ⟨hshd.current hcur, ?_⟩
      rw [hshd.phase, hph]
      rfl
    have huns : t.unsaved cfg.keyFields = ∅ := by
      simp only [unsaved, hshd.phase, hph, Phase.drained, hshd.inflight, hin, hshd.writer, hemp]
    have hbrd := (hinv.tracks hbs).bridges
    rw [huns] at hbrd
    have htab : t.tableAt o t.writer.fromPos = t.table :=
      Std.ExtTreeMap.ext_getElem? fun k => by simpa using (hbrd k).symm
    exact ⟨t, hinv, hshd, fun _ => ⟨hbs, htab, hinv.settled hbs huns⟩⟩
  | @step a w hs =>
    by_cases ha : a.Subscribes
    · cases hs with
      | @publish pos e hin =>
        obtain ⟨t', hinv', hshd'⟩ := hshd.publish hinv hin hok.1
        refine ⟨t', hinv', hshd', fun hgrown => ?_⟩
        exact absurd hgrown.symm (Nat.succ_ne_self _)
      | @rebaseline rows pos hin =>
        obtain ⟨t', hinv', hshd'⟩ := hshd.rebaseline hinv hin hok.1
        refine ⟨t', hinv', hshd', fun hgrown => ?_⟩
        exact absurd hgrown.symm (Nat.succ_ne_self _)
      | _ => cases ha
    · obtain ⟨hadva, hfree, hdiffs⟩ := hok
      obtain ⟨t', hs', hshd', hgrown⟩ := hshd.step hs ha
      have hreco : t.Recovers cfg o a :=
        ⟨hshd.regular hadva ha, hshd.keysFree hfree, hshd.diffsComplete hdiffs⟩
      have hinv' := hinv.step hap hreco hs' ha
      refine ⟨t', hinv', hshd', fun hsuccess => ?_⟩
      obtain ⟨hbs, hstd, hfrom, hhead⟩ := hinv.toRecoverable.committed hap
        hreco.2.1 hreco.2.2 hs' (hgrown hsuccess)
      refine ⟨hbs, ?_, hhead.trans hfrom.symm, hstd⟩
      rw [hfrom]
      exact hinv'.tableAt_position

/-- **A re-baseline that is recaptured reaches the archive.** In every run in which a
re-baseline with other rows is followed by a snapshot before the next diff or empty flush,
every `flush` that succeeds leaves an archive whose head is the subscription's rows. -/
theorem rebaseline_reaches_archive (cfg : Config B V) (o : Origin V cfg.keyFields)
    (hapart : cfg.FormatsApart) (r : Reader B V) (hr : r.Decodes cfg) {a : Option (Label V)}
    (hreach : Reach (Resubscribed.Step cfg) (Resubscribed.Recaptures cfg o)
      (.init o.table o.position) σ)
    (hok : σ.Recaptures cfg o a) (hs : Resubscribed.Step cfg σ a σ') (hsuccess : σ.Succeeds σ' a)
    {n : String} (hn : n ∈ cfg.destinations) :
    ∃ m, (σ'.world.destinations n).manifest = some m ∧
      ∃ fuel rows, r.reconstructAsOf fuel (σ'.world.destinations n) m.headPosition cfg.keyFields
          o.order.cmp = some (.ok (some ⟨rows, m.headPosition⟩)) ∧
        rows.Perm (σ'.world.table.toList.map Prod.snd) := by
  have hinv : ∃ t : World B V, t.Settled cfg o ∧ Shadows t σ := by
    refine hreach.invariant (fun σ => ∃ t : World B V, t.Settled cfg o ∧ Shadows t σ) ?_ ?_
    · exact ⟨_, World.Settled.init, rfl, rfl, rfl, rfl, rfl, rfl,
        by simp [Resubscribed.init, World.init]⟩
    · intro σ₁ σ₂ a h hok hs
      obtain ⟨t, hinv, hshd, -⟩ := hs.shadow hapart hok h
      exact ⟨t, hinv, hshd⟩
  obtain ⟨t, hinv, hshd, hhead⟩ := hs.shadow hapart hok hinv
  obtain ⟨hbs, htab, hfrom, hstd⟩ := hhead hsuccess
  obtain ⟨fuel, hres⟩ := hinv.reconstruct hbs hr hn (hstd n hn)
  rw [htab, ← hfrom, hshd.destinations, hshd.table] at hres
  exact ⟨_, hshd.destinations ▸ hstd n hn, fuel, _, hres, List.Perm.refl _⟩

end

def newAdapter : Adapter Text := ⟨["id"], ∅, "", true⟩

def holdsOne : Origin Text ["id"] :=
  ⟨ofOrd String, (newAdapter.baseline [rowWithId "1"] "0/10").state, "0/10",
    newAdapter.keyed_baseline _ _⟩

def holdsThree : Store Text := (newAdapter.baseline [rowWithId "3"] "0/20").state

theorem rebaseline_reaches_archive_run :
    ∃ σ σ' : Resubscribed (Payload Text) Text,
      Reach (Resubscribed.Step diffsOnly) (Resubscribed.Recaptures diffsOnly holdsOne)
        (.init holdsOne.table "0/10") σ ∧
      σ.Recaptures diffsOnly holdsOne (some (.write none)) ∧
      Resubscribed.Step diffsOnly σ (some (.write none)) σ' ∧ σ.Succeeds σ' (some (.write none)) ∧
      σ'.world.table.toList.map Prod.snd = [rowWithId "2", rowWithId "3"] ∧
      ∃ m, (σ'.world.destinations "local").manifest = some m ∧
        ∃ fuel rows, plainReader.reconstructAsOf fuel (σ'.world.destinations "local")
            m.headPosition ["id"] (ofOrd String).cmp =
              some (.ok (some ⟨rows, m.headPosition⟩)) ∧
          rows.Perm (σ'.world.table.toList.map Prod.snd) := by
  have h : Reach (Resubscribed.Step diffsOnly)
      (Resubscribed.Recaptures diffsOnly holdsOne) (.init holdsOne.table "0/10") _ := .refl _
  have h := h
    |>.snoc (.step (.start rfl))
    |>.snoc (.step (.capture rfl (.refl _)))
    |>.snoc (a := some (.commit none 0)) (.step (.commit rfl)) (by
      refine ⟨trivial, ?_, trivial⟩
      exact plainConfig_keysFree rfl (by decide +kernel))
    |>.snoc (a := some (.rebaseline holdsThree "0/20")) (.step (.rebaseline rfl)) (by
      refine ⟨⟨newAdapter.keyed_baseline _ _, rfl, .inl ?_⟩, trivial, trivial⟩
      decide +kernel)
    |>.snoc (.step (.force rfl))
    |>.snoc (.step (.capture rfl (.refl _)))
    |>.snoc (a := some (.commit none 0)) (.step (.commit rfl)) (by
      refine ⟨trivial, ?_, trivial⟩
      exact plainConfig_keysFree rfl (by decide +kernel))
    |>.snoc (a := some (.publish "0/30" insertTwo)) (.step (.publish rfl))
    |>.snoc (.step (.deliver rfl))
    |>.snoc (a := some (.drain _ 0)) (.step (.drain rfl buffer_insertTwo_ne (.refl _)))
    |>.snoc (.step (.stamp rfl))
  refine ⟨_, _, h, ?_, .step (.write rfl), rfl, rfl, rebaseline_reaches_archive diffsOnly holdsOne
    plainConfig_formatsApart plainReader plainReader_decodes h (a := some (.write none)) ?_
    (.step (.write rfl)) rfl (n := "local") (mem_singleton.mpr rfl)⟩
  all_goals
    refine ⟨trivial, ?_, fun _ _ _ => ⟨rfl, fun hmvd => nomatch (And.right hmvd)⟩⟩
    exact plainConfig_keysFree rfl (by decide +kernel)

/-- Row 1 is replaced by row 3, and the flush that follows has nothing to write: the archive still
has row 1. -/
theorem rebaseline_stays_out_of_archive :
    ∃ σ σ' : Resubscribed (Payload Text) Text, Reach (Resubscribed.Step diffsOnly)
        (fun σ a => ∀ b, a = some b → σ.world.Advances holdsOne b ∧ σ.world.KeysFree diffsOnly b)
        (.init holdsOne.table "0/10") σ ∧
      Resubscribed.Step diffsOnly σ none σ ∧
      (σ.world.destinations "local").manifest.map Manifest.headPosition = some "0/10" ∧
      plainReader.reconstructAsOf 3 (σ.world.destinations "local") "0/10" ["id"]
        (ofOrd String).cmp = some (.ok (some ⟨[rowWithId "1"], "0/10"⟩)) ∧
      σ.world.table.toList.map Prod.snd = [rowWithId "3"] ∧
      Reach (Resubscribed.Step diffsOnly)
        (fun σ a => ∀ b, a = some b → σ.world.Advances holdsOne b ∧ σ.world.KeysFree diffsOnly b)
        (.init holdsOne.table "0/10") σ' ∧
      (σ'.world.destinations "local").manifest.map Manifest.headPosition = some "0/30" ∧
      plainReader.reconstructAsOf 3 (σ'.world.destinations "local") "0/30" ["id"]
        (ofOrd String).cmp =
          some (.ok (some ⟨[rowWithId "1", rowWithId "2"], "0/30"⟩)) ∧
      σ'.world.table.toList.map Prod.snd = [rowWithId "2", rowWithId "3"] := by
  have h : Reach (Resubscribed.Step diffsOnly)
      (fun σ a => ∀ b, a = some b → σ.world.Advances holdsOne b ∧ σ.world.KeysFree diffsOnly b)
      (.init holdsOne.table "0/10") _ := .refl _
  have h := h
    |>.snoc (.step (.start rfl)) (by rintro b ⟨⟩; exact ⟨trivial, trivial⟩)
    |>.snoc (.step (.capture rfl (.refl _))) (by
      rintro b ⟨⟩; exact ⟨trivial, trivial⟩)
    |>.snoc (a := some (.commit none 0)) (.step (.commit rfl)) (by
      rintro b ⟨⟩
      refine ⟨trivial, ?_⟩
      exact plainConfig_keysFree rfl (by decide +kernel))
    |>.snoc (a := some (.rebaseline holdsThree "0/20")) (.step (.rebaseline rfl)) (by
      rintro b ⟨⟩
      refine ⟨⟨newAdapter.keyed_baseline _ _, rfl, .inl ?_⟩, trivial⟩
      decide +kernel)
  have h' := h.snoc (a := some (.publish "0/30" insertTwo)) (.step (.publish rfl)) (by
    rintro b ⟨⟩
    refine ⟨⟨?_, rfl, .inl rfl⟩, trivial⟩
    decide +kernel)
  have h' := h'.snoc (.step (.deliver rfl)) (by rintro b ⟨⟩; exact ⟨trivial, trivial⟩)
  have h' := h'.snoc (a := some (.drain _ 0))
    (.step (.drain rfl buffer_insertTwo_ne (.refl _))) (by
      rintro b ⟨⟩; exact ⟨rfl, trivial⟩)
  have h' := h'.snoc (.step (.stamp rfl)) (by rintro b ⟨⟩; exact ⟨trivial, trivial⟩)
  have h' := h'.snoc (a := some (.write none)) (.step (.write rfl)) (by
    rintro b ⟨⟩
    refine ⟨trivial, ?_⟩
    exact plainConfig_keysFree rfl (by decide +kernel))
  exact ⟨_, _, h, .nothing rfl rfl, rfl, rfl, rfl, h', rfl, rfl, rfl⟩

end Laredo.Snapshotter
