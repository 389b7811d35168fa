import Laredo.Snapshotter.PointInTime

/-!
# Object keys

Whether `putArtifact` (`snapshotter/writer_manifest.go`) overwrites an artifact that a manifest
lists.
-/

namespace Laredo.Snapshotter

open List Manifest

variable {B V : Type}

def Artifact.KeyNe (cfg : Config B V) (a b : Artifact) : Prop :=
  ∀ ext, artifactObjectKey cfg.keyPrefix a ext ≠ artifactObjectKey cfg.keyPrefix b ext

def Artifact.Dashless (a : Artifact) : Prop :=
  a.kind = .diff → '-' ∉ (sanitizePosition a.toPosition).toList

lemma split_at_sep {sep : Char} {l l' r r' : List Char} (hl : sep ∉ l) (hl' : sep ∉ l')
    (h : l ++ sep :: r = l' ++ sep :: r') : l = l' ∧ r = r' := by
  have htake : ∀ {l r : List Char}, sep ∉ l → (l ++ sep :: r).takeWhile (· ≠ sep) = l := by
    intro l r hl
    have hne : ∀ c ∈ l, decide (c ≠ sep) = true := fun c hc => by
      simpa using ne_of_mem_of_not_mem hc hl
    rw [takeWhile_append_of_pos hne]
    simp
  have heq := congrArg (List.takeWhile (· ≠ sep)) h
  rw [htake hl, htake hl'] at heq
  subst heq
  simpa using h

lemma digits_inj {m n : Nat} (h : (toString m).toList = (toString n).toList) : m = n := by
  have hnum := congrArg (fun ds => Nat.ofDigitChars 10 ds 0) h
  simpa [Nat.toString_eq_ofList_toDigits] using hnum

lemma slash_notMem_digits (n : Nat) : '/' ∉ (toString n).toList := by
  intro hmem
  rw [Nat.toString_eq_ofList_toDigits, String.toList_ofList] at hmem
  exact absurd (Nat.isDigit_of_mem_toDigits (by decide) (by decide) hmem) (by decide)

lemma artifactObjectKey_inj {keyPrefix ext : String} {a b : Artifact} (ha : a.Dashless)
    (hb : b.Dashless) (h : artifactObjectKey keyPrefix a ext = artifactObjectKey keyPrefix b ext) :
    a.kind = b.kind ∧ a.epoch = b.epoch ∧
      sanitizePosition a.toPosition = sanitizePosition b.toPosition := by
  obtain ⟨kind, epoch, start, upTo, formats⟩ := a
  obtain ⟨kind', epoch', start', upTo', formats'⟩ := b
  have hlist := congrArg String.toList h
  simp only [artifactObjectKey, String.toList_append, append_assoc, append_cancel_left_eq]
    at hlist
  rw [show "/".toList = ['/'] from rfl, singleton_append, singleton_append] at hlist
  obtain ⟨hepoch, hname⟩ := split_at_sep (slash_notMem_digits epoch) (slash_notMem_digits epoch')
    hlist
  have hname := append_cancel_right hname
  cases kind <;> cases kind'
  case snapshot.snapshot =>
    simp only [String.toList_append, append_cancel_left_eq, String.toList_inj] at hname
    exact ⟨rfl, digits_inj hepoch, hname⟩
  case diff.diff =>
    -- the position after the last dash
    have hrev := congrArg List.reverse hname
    simp only [String.toList_append, reverse_append] at hrev
    have hto := (split_at_sep (fun h => ha rfl (mem_reverse.1 h))
      (fun h => hb rfl (mem_reverse.1 h)) hrev).1
    exact ⟨rfl, digits_inj hepoch, String.toList_inj.1 (reverse_injective hto)⟩
  all_goals simp at hname

namespace World

/-- No artifact that is listed has this kind and epoch and the position that is read, after the
replacement. -/
def Unused (cfg : Config B V) (s : World B V) (kind : ArtifactKind) (epoch : Nat) : Prop :=
  ∀ a, s.Listed cfg a → a.kind = kind → a.epoch = epoch →
    sanitizePosition a.toPosition ≠ sanitizePosition s.position

/-- When `flush` or `snapshot` reads the position, it is a new one. -/
def ReadsNew (cfg : Config B V) (s : World B V) : Label V → Prop
  | .stamp => ∀ d, s.phase = .flushing d →
      '-' ∉ (sanitizePosition s.position).toList ∧ s.Unused cfg .diff d.epoch
  | .capture _ => ∀ initial epoch, s.phase = .rebasing initial epoch → s.Unused cfg .snapshot epoch
  | _ => True

def Tidy (cfg : Config B V) (m : Manifest) : Prop :=
  m.artifacts.Pairwise (Artifact.KeyNe cfg) ∧ ∀ a ∈ m.artifacts, a.Dashless

structure KeysApart (cfg : Config B V) (s : World B V) : Prop where
  held : Tidy cfg s.writer.manifest
  stored : ∀ n m, (s.destinations n).manifest = some m → Tidy cfg m
  writing : ∀ art, s.Writing cfg art → art.Dashless ∧ ∀ a, s.Listed cfg a → a.KeyNe cfg art

variable {cfg : Config B V} {s s' : World B V} {a : Label V}

lemma KeysApart.dashless (h : s.KeysApart cfg) {art : Artifact} (hart : s.Listed cfg art) :
    art.Dashless := by
  rcases hart with hheld | ⟨n, -, m, hm, hmem⟩
  · exact h.held.2 art hheld
  · exact (h.stored n m hm).2 art hmem

lemma KeysApart.add (h : s.KeysApart cfg) {art : Artifact} (hwriting : s.Writing cfg art) :
    Tidy cfg (s.writer.manifest.add cfg.keepEpochs art) := by
  obtain ⟨hdash, hne⟩ := h.writing art hwriting
  constructor
  · refine List.Pairwise.sublist (prune_sublist cfg.keepEpochs _) ?_
    refine pairwise_append.2 ⟨h.held.1, pairwise_singleton _ _, fun b hb c hc => ?_⟩
    obtain rfl := mem_singleton.1 hc
    exact hne b (.inl hb)
  · intro b hb
    rcases mem_add hb with hb | rfl
    · exact h.held.2 b hb
    · exact hdash

lemma KeysApart.keyNe (h : s.KeysApart cfg) {art : Artifact} (hdash : art.Dashless)
    (hnew : s.Unused cfg art.kind art.epoch) (hto : art.toPosition = s.position) :
    art.Dashless ∧ ∀ b, s.Listed cfg b → b.KeyNe cfg art := by
  refine ⟨hdash, fun b hb ext heq => ?_⟩
  obtain ⟨hkind, hepoch, hpos⟩ := artifactObjectKey_inj (h.dashless hb) hdash heq
  exact hnew b hb hkind hepoch (hto ▸ hpos)

variable [GoValue V]

lemma KeysApart.step (h : s.KeysApart cfg) (hok : s.ReadsNew cfg a) (hs : Step cfg s a s') :
    s'.KeysApart cfg := by
  obtain ⟨hheld, hstored⟩ := hs.manifests_all (P := Tidy cfg) ⟨.nil, nofun⟩ (fun _ => id) h.held
    h.stored fun _ => h.add
  refine ⟨hheld, hstored, ?_⟩
  cases hs with
  | publish _ | deliver _ | rebaseline _ => exact h.writing
  | @stamp d hph =>
    rintro art (⟨d', upTo, hphase, rfl⟩ | ⟨initial, epoch, rows, pos, hphase, -⟩)
    · cases hphase
      obtain ⟨hdash, hnew⟩ := hok d hph
      exact h.keyNe (fun _ => hdash) hnew rfl
    · cases hphase
  | @capture initial epoch rows hph _ =>
    rintro art (⟨d', upTo, hphase, -⟩ | ⟨initial', epoch', rows', pos, hphase, rfl⟩)
    · cases hphase
    · cases hphase
      exact h.keyNe nofun (hok initial epoch hph) rfl
  | @write d upTo fault hph =>
    -- however it ends, nothing is about to be written
    rcases s.writer.finishFlush cfg d upTo s.table.size fault s.destinations with ⟨st, w, _ | _ | _⟩
    all_goals rintro art (⟨_, _, hphase, -⟩ | ⟨_, _, _, _, hphase, -⟩) <;> cases hphase
  | @commit initial epoch rows pos fault now hph =>
    rcases s.writer.finishSnapshot cfg epoch rows pos now fault s.destinations with ⟨st, w, _ | _⟩
    · cases initial <;> rintro art (⟨_, _, hphase, -⟩ | ⟨_, _, _, _, hphase, -⟩) <;> cases hphase
    · rintro art (⟨_, _, hphase, -⟩ | ⟨_, _, _, _, hphase, -⟩) <;> cases hphase
  | _ => rintro art (⟨_, _, hphase, -⟩ | ⟨_, _, _, _, hphase, -⟩) <;> cases hphase

/-- **Committed artifacts are not overwritten** in a run in which `flush` and `snapshot` read new
positions: what is about to be written has the object key of nothing listed, and the artifacts of a
stored manifest have different keys. -/
theorem object_keys_apart (cfg : Config B V) (table : Store V) (position : String)
    (hrun : Transition.Reach (Step cfg) (ReadsNew cfg) (World.init table position) s) :
    (∀ art, s.Writing cfg art → ∀ a, s.Listed cfg a → a.KeyNe cfg art) ∧
      ∀ n m, (s.destinations n).manifest = some m → m.artifacts.Pairwise (Artifact.KeyNe cfg) := by
  have hinv : s.KeysApart cfg := by
    refine hrun.invariant (KeysApart cfg) ⟨⟨.nil, nofun⟩, nofun, ?_⟩ ?_
    · rintro art (⟨_, _, hphase, -⟩ | ⟨_, _, _, _, hphase, -⟩) <;> cases hphase
    · intro s₁ s₂ a h hok hs
      exact h.step hok hs
  exact ⟨fun art hart => (hinv.writing art hart).2, fun n m hm => (hinv.stored n m hm).1⟩

lemma diffsOnly_unused {s : World (Payload Text) Text} {kind : ArtifactKind}
    (h : ∀ a ∈ s.writer.manifest.artifacts ++
      (s.destinations "local").manifest.toList.flatMap Manifest.artifacts, a.kind ≠ kind)
    (epoch : Nat) : s.Unused diffsOnly kind epoch := by
  intro a ha hkind
  refine absurd hkind (h a (mem_append.2 ?_))
  rcases ha with ha | ⟨n, hn, m, hm, ha⟩
  · exact .inl ha
  · obtain rfl : n = "local" := mem_singleton.1 hn
    exact .inr (by simpa [hm] using ha)

theorem object_keys_apart_diff :
    ∃ (s : World (Payload Text) Text) (m : Manifest) (art : Artifact),
      (s.destinations "local").manifest = some m ∧ m.artifacts.length = 1 ∧
      s.Writing diffsOnly art ∧ ∀ a, s.Listed diffsOnly a → a.KeyNe diffsOnly art := by
  have h : Transition.Reach (Step diffsOnly) (ReadsNew diffsOnly) (World.init ∅ "0/10") _ := .refl _
  have h := h
    |>.snoc (.start rfl)
    |>.snoc (.capture rfl (.refl _)) (fun _ epoch _ => diffsOnly_unused (by decide +kernel) epoch)
    |>.snoc (a := .commit none 0) (.commit rfl)
    |>.snoc (a := .publish "0/20" insertOne) (.publish rfl)
    |>.snoc (.deliver rfl)
    |>.snoc (a := .drain _ 0) (.drain rfl buffer_insertOne_ne (.refl _))
    |>.snoc (.stamp rfl) (fun d _ =>
      ⟨by decide +kernel, diffsOnly_unused (by decide +kernel) d.epoch⟩)
  have hart := (object_keys_apart diffsOnly ∅ "0/10" h).1 _ (.inl ⟨_, _, rfl, rfl⟩)
  exact ⟨_, _, _, rfl, rfl, .inl ⟨_, _, rfl, rfl⟩, hart⟩

/-- The second flush finds the position where the first one left it, and is about to write its
diff under the key of the first. -/
theorem unmoved_flush_overwrites :
    ∃ (s : World (Payload Text) Text) (m : Manifest) (art a : Artifact),
      Transition.Run (Step diffsOnly) (World.init ∅ "0/10") s ∧
      s.Writing diffsOnly art ∧ (s.destinations "local").manifest = some m ∧ a ∈ m.artifacts ∧
      artifactObjectKey "events/" art ".plain" = artifactObjectKey "events/" a ".plain" := by
  have h : Transition.Run (Step diffsOnly) (World.init ∅ "0/10") _ := .refl _
  have h := h
    |>.snoc (.start rfl)
    |>.snoc (.capture rfl (.refl _))
    |>.snoc (a := .commit none 0) (.commit rfl)
    |>.snoc (a := .publish "0/10" insertOne) (.publish rfl)
    |>.snoc (.deliver rfl)
    |>.snoc (a := .drain _ 0) (.drain rfl buffer_insertOne_ne (.refl _))
    |>.snoc (.stamp rfl)
    |>.snoc (a := .write none) (.write rfl)
    |>.snoc (a := .publish "0/10" insertTwo) (.publish rfl)
    |>.snoc (.deliver rfl)
    |>.snoc (a := .drain _ 0) (.drain rfl buffer_insertTwo_ne (.refl _))
    |>.snoc (.stamp rfl)
  exact ⟨_, _, _, _, h, .inl ⟨_, _, rfl, rfl⟩, rfl, mem_cons_of_mem _ mem_cons_self, rfl⟩

end World

end Laredo.Snapshotter
