import Laredo.Snapshotter.Reader
import Laredo.Snapshotter.Run

/-!
# History

The table at the positions of a run, read off the log of published changes (`tableAt`), and what
becomes of sound artifacts.
-/

namespace Laredo.Snapshotter

open List Function

variable {B V : Type}

structure Origin (V : Type) [GoValue V] (keyFields : List String) where
  order : Comparator String
  table : Store V
  position : String
  keyed : KeyedMap.Keyed (fun row => rowKey keyFields (some row)) table

section

variable [GoValue V] {keyFields : List String}

lemma Edit.keyed_replay {table : Store V}
    (h : KeyedMap.Keyed (fun row => rowKey keyFields (some row)) table) (edits : List (Edit V)) :
    KeyedMap.Keyed (fun row => rowKey keyFields (some row))
      (Edit.replay keyFields table edits) := by
  induction edits generalizing table with
  | nil => exact h
  | cons e edits ih => exact ih (e.tableChange.keyed_apply h)

namespace World

variable (o : Origin V keyFields)

def tableAt (s : World B V) (q : String) : Store V :=
  Edit.replay keyFields o.table ((s.log.filter fun x => o.order.Le x.1 q).map Prod.snd)

def Known (s : World B V) (q : String) : Prop := q = o.position ∨ ∃ x ∈ s.log, x.1 = q

structure History (s : World B V) : Prop where
  current : s.Known o s.position
  bounded : ∀ q, s.Known o q → o.order.Le q s.position
  distinct : ∀ q r, s.Known o q → s.Known o r → o.order.Le q r → o.order.Le r q → q = r
  table : s.table = Edit.replay keyFields o.table (s.log.map Prod.snd)

variable {o} {s : World B V}

lemma keyed_tableAt (q : String) :
    KeyedMap.Keyed (fun row => rowKey keyFields (some row)) (s.tableAt o q) :=
  Edit.keyed_replay o.keyed _

lemma History.init : (World.init o.table o.position : World B V).History o := by
  have hknown : ∀ q, (World.init o.table o.position : World B V).Known o q → q = o.position := by
    intro q hq
    exact hq.resolve_right nofun
  refine ⟨.inl rfl, ?_, ?_, rfl⟩
  · intro q hq
    rw [hknown q hq]
    exact Comparator.Le.refl _ _
  · intro q r hq hr _ _
    rw [hknown q hq, hknown r hr]

lemma History.tableAt_position (h : s.History o) : s.tableAt o s.position = s.table := by
  have hall : (s.log.filter fun x => o.order.Le x.1 s.position) = s.log := by
    refine filter_eq_self.mpr fun x hx => ?_
    exact decide_eq_true (h.bounded x.1 (.inr ⟨x, hx, rfl⟩))
  unfold World.tableAt
  rw [hall, h.table]

variable {s' : World B V} {pos q : String} {edits : List (Edit V)}

lemma History.of_eq (h : s.History o) (hlog : s'.log = s.log) (hpos : s'.position = s.position)
    (htab : s'.table = s.table) : s'.History o := by
  obtain ⟨table, position, inflight, w, phase, st, log, archive, failed⟩ := s'
  obtain rfl : log = s.log := hlog
  obtain rfl : position = s.position := hpos
  obtain rfl : table = s.table := htab
  exact ⟨h.current, h.bounded, h.distinct, h.table⟩

lemma known_append (hne : edits ≠ []) (hlog : s'.log = s.log ++ edits.map (Prod.mk pos)) :
    s'.Known o q ↔ s.Known o q ∨ q = pos := by
  obtain ⟨e, rest, rfl⟩ := exists_cons_of_ne_nil hne
  unfold Known
  rw [hlog]
  simp only [mem_append, List.mem_map, or_and_right, exists_or, or_assoc]
  refine or_congr_right (or_congr_right ⟨?_, ?_⟩)
  · rintro ⟨x, ⟨e', -, rfl⟩, rfl⟩
    rfl
  · rintro rfl
    exact ⟨_, ⟨e, mem_cons_self, rfl⟩, rfl⟩

lemma tableAt_append (hlog : s'.log = s.log ++ edits.map (Prod.mk pos)) (hq : o.order.Lt q pos) :
    s'.tableAt o q = s.tableAt o q := by
  have hlater : ¬ o.order.Le pos q := hq.not_le
  unfold World.tableAt
  rw [hlog, filter_append]
  simp [hlater, List.filter_map, comp_def]

lemma History.publish (h : s.History o) (hne : edits ≠ []) (hpos : o.order.Lt s.position pos)
    (hlog : s'.log = s.log ++ edits.map (Prod.mk pos)) (hposi : s'.position = pos)
    (htab : s'.table = Edit.replay keyFields s.table edits) : s'.History o := by
  have hbef : ∀ q, s.Known o q → o.order.Lt q pos := fun q hq => (h.bounded q hq).trans_lt hpos
  refine ⟨?_, ?_, ?_, ?_⟩
  · rw [hposi]
    exact (known_append hne hlog).mpr (.inr rfl)
  · intro q hq
    rw [hposi]
    rcases (known_append hne hlog).mp hq with hq | rfl
    · exact (hbef q hq).le
    · exact Comparator.Le.refl _ _
  · intro q r hq hr hqr hrq
    rcases (known_append hne hlog).mp hq with hq | rfl
    · rcases (known_append hne hlog).mp hr with hr | rfl
      · exact h.distinct q r hq hr hqr hrq
      · exact absurd hrq (hbef q hq).not_le
    · rcases (known_append hne hlog).mp hr with hr | rfl
      · exact absurd hqr (hbef r hr).not_le
      · rfl
  · rw [htab, h.table, hlog, map_append, List.map_map]
    unfold Edit.replay
    rw [foldl_append]
    simp [comp_def]

end World

end

def Artifact.SameAs (a b : Artifact) : Prop :=
  a.kind = b.kind ∧ a.epoch = b.epoch ∧ a.fromPosition = b.fromPosition ∧
    a.toPosition = b.toPosition

/-- The artifact `art` shares an object key with `a` only if they have the same place. -/
def Artifact.Apart (cfg : Config B V) (art a : Artifact) : Prop :=
  ∀ f ∈ cfg.formatsOf art.kind, ∀ g ∈ cfg.formatsOf a.kind,
    artifactObjectKey cfg.keyPrefix art f.extension =
      artifactObjectKey cfg.keyPrefix a g.extension → a.SameAs art

def Config.FormatsApart (cfg : Config B V) : Prop :=
  ∀ kind, ∀ f ∈ cfg.formatsOf kind, ∀ g ∈ cfg.formatsOf kind, f.extension = g.extension → f = g

lemma Artifact.SameAs.extension_eq {a b : Artifact} (h : a.SameAs b) {keyPrefix ext ext' : String}
    (hkey : artifactObjectKey keyPrefix a ext = artifactObjectKey keyPrefix b ext') :
    ext = ext' := by
  obtain ⟨kind, epoch, start, upTo, formats⟩ := a
  obtain ⟨kind', epoch', start', upTo', formats'⟩ := b
  obtain ⟨rfl, rfl, rfl, rfl⟩ := h
  unfold artifactObjectKey at hkey
  exact (String.append_right_inj _).mp hkey

section

variable {cfg : Config B V} {tableAt tableAt' : String → Store V} {a art : Artifact}
variable {f : Format B V} {data : B} {encode : Format B V → Option B} {st st' : Destinations B}

lemma Artifact.Holds.same (h : art.Holds tableAt f data) (hsame : a.SameAs art) :
    a.Holds tableAt f data := by
  obtain ⟨hkind, -, hfrom, hto⟩ := hsame
  unfold Artifact.Holds at h ⊢
  rw [hkind, hfrom, hto]
  exact h

lemma Artifact.Holds.mono (h : a.Holds tableAt f data)
    (hto : tableAt' a.toPosition = tableAt a.toPosition)
    (hfrom : a.kind = .diff → ∀ p, a.fromPosition = some p → tableAt' p = tableAt p) :
    a.Holds tableAt' f data := by
  unfold Artifact.Holds at h ⊢
  rw [hto]
  cases hkind : a.kind with
  | snapshot =>
    rw [hkind] at h
    exact h
  | diff =>
    rw [hkind] at h
    obtain ⟨start, changes, hst0, hwrite, hfold⟩ := h
    refine ⟨start, changes, hst0, hwrite, ?_⟩
    rw [hfrom hkind start hst0]
    exact hfold

lemma Artifact.Sound.mono {d : Destination B} (h : a.Sound cfg tableAt d)
    (hto : tableAt' a.toPosition = tableAt a.toPosition)
    (hfrom : a.kind = .diff → ∀ p, a.fromPosition = some p → tableAt' p = tableAt p) :
    a.Sound cfg tableAt' d := by
  refine ⟨h.formats, fun f hf => ?_⟩
  obtain ⟨data, hdata, hhld⟩ := h.objects f hf
  exact ⟨data, hdata, hhld.mono hto hfrom⟩

variable {n : String}

lemma Written.object {g : Format B V}
    (hw : Written (Encodes cfg art encode (cfg.formatsOf art.kind)) st st')
    (hap : cfg.FormatsApart) (hfree : art.Apart cfg a) (hg : g ∈ cfg.formatsOf a.kind) :
    (st' n).objects[artifactObjectKey cfg.keyPrefix a g.extension]? =
        (st n).objects[artifactObjectKey cfg.keyPrefix a g.extension]? ∨
      a.SameAs art ∧ ∃ data, encode g = some data ∧
        (st' n).objects[artifactObjectKey cfg.keyPrefix a g.extension]? = some data := by
  rcases hw.objects n (artifactObjectKey cfg.keyPrefix a g.extension) with hold | hnew
  · exact .inl hold
  · obtain ⟨data, ⟨f, hf, henc, hkey⟩, hdata⟩ := hnew
    have hsame := hfree f hf g hg hkey
    have hext := hsame.extension_eq hkey.symm
    rw [hsame.1] at hg
    obtain rfl : g = f := hap art.kind g hg f hf hext
    exact .inr ⟨hsame, data, henc, hdata⟩

lemma Complete.object {g : Format B V}
    (hc : Complete cfg.destinations (objectKeys cfg art (cfg.formatsOf art.kind))
      (Encodes cfg art encode (cfg.formatsOf art.kind)) st)
    (hap : cfg.FormatsApart) (hg : g ∈ cfg.formatsOf art.kind) (hn : n ∈ cfg.destinations) :
    ∃ data, encode g = some data ∧
      (st n).objects[artifactObjectKey cfg.keyPrefix art g.extension]? = some data := by
  obtain ⟨data, ⟨f, hf, henc, hkey⟩, hdata⟩ := hc n hn _ (List.mem_map_of_mem hg)
  have hself : art.SameAs art := ⟨rfl, rfl, rfl, rfl⟩
  obtain rfl : f = g := hap art.kind f hf g hg (hself.extension_eq hkey)
  exact ⟨data, henc, hdata⟩

lemma Artifact.Sound.written (h : a.Sound cfg tableAt (st n))
    (hap : cfg.FormatsApart) (hfree : art.Apart cfg a)
    (hright : ∀ f ∈ cfg.formatsOf art.kind, ∀ data, encode f = some data → art.Holds tableAt f data)
    (hw : Written (Encodes cfg art encode (cfg.formatsOf art.kind)) st st') :
    a.Sound cfg tableAt (st' n) := by
  refine ⟨h.formats, fun g hg => ?_⟩
  rcases hw.object hap hfree hg with hold | ⟨hsame, data, henc, hdata⟩
  · rw [hold]
    exact h.objects g hg
  · rw [hsame.1] at hg
    exact ⟨data, hdata, (hright g hg data henc).same hsame⟩

lemma Artifact.Sound.of_complete (hn : n ∈ cfg.destinations)
    (hap : cfg.FormatsApart) (hfmts : art.formats = (cfg.formatsOf art.kind).map Format.formatID)
    (hright : ∀ f ∈ cfg.formatsOf art.kind, ∀ data, encode f = some data → art.Holds tableAt f data)
    (hc : Complete cfg.destinations (objectKeys cfg art (cfg.formatsOf art.kind))
      (Encodes cfg art encode (cfg.formatsOf art.kind)) st) : art.Sound cfg tableAt (st n) := by
  refine ⟨hfmts, fun g hg => ?_⟩
  obtain ⟨data, henc, hdata⟩ := hc.object hap hg hn
  exact ⟨data, hdata, hright g hg data henc⟩

end

end Laredo.Snapshotter
