import Laredo.Snapshotter.Run

/-!
# Planning

The loops of `Plan` and `PlanAsOf` end as long as no diff is stamped with a position that it or a
listed diff starts from (`planning_terminates`).
-/

namespace Laredo.Snapshotter

open Transition Manifest

variable {B V : Type}

lemma NoReturn.add {m : Manifest} (h : NoReturn m.artifacts) (keepEpochs : Int) {art : Artifact}
    (hart : art.kind = .diff → ∀ a ∈ m.artifacts ++ [art], ¬ a.DiffFrom art.toPosition) :
    NoReturn (m.add keepEpochs art).artifacts :=
  (h.snoc hart).sublist (prune_sublist keepEpochs _)

namespace World

/-- When `flush` reads the position, neither its diff nor one that is listed starts there. -/
def MovesOn (s : World B V) : Label V → Prop
  | .stamp => ∀ d, s.phase = .flushing d →
      s.position ≠ d.start ∧ ∀ a ∈ s.writer.manifest.artifacts, ¬ a.DiffFrom s.position
  | _ => True

/-- No manifest leads back to an earlier start, nor will the diff that is being written. -/
structure Acyclic (s : World B V) : Prop where
  held : NoReturn s.writer.manifest.artifacts
  stored : ∀ n m, (s.destinations n).manifest = some m → NoReturn m.artifacts
  stamped : ∀ d upTo, s.phase = .stamped d upTo →
    upTo ≠ d.start ∧ ∀ a ∈ s.writer.manifest.artifacts, ¬ a.DiffFrom upTo

variable {s s' : World B V}

lemma Acyclic.add (h : s.Acyclic) {cfg : Config B V} {art : Artifact}
    (hwriting : s.Writing cfg art) :
    NoReturn (s.writer.manifest.add cfg.keepEpochs art).artifacts := by
  refine h.held.add cfg.keepEpochs ?_
  rcases hwriting with ⟨d, upTo, hph, rfl⟩ | ⟨initial, epoch, rows, pos, -, rfl⟩
  · intro _ a ha
    obtain ⟨hst0, hlst⟩ := h.stamped d upTo hph
    rcases List.mem_append.mp ha with ha | ha
    · exact hlst a ha
    · obtain rfl := List.mem_singleton.mp ha
      exact fun hfrom => hst0 (Option.some.inj hfrom.2).symm
  · nofun

variable [GoValue V] {cfg : Config B V} {a : Label V}

lemma Acyclic.step (h : s.Acyclic) (hok : s.MovesOn a) (hs : Step cfg s a s') : s'.Acyclic := by
  obtain ⟨hhl, hstd⟩ := hs.manifests_all (P := fun m => NoReturn m.artifacts) NoReturn.nil
    (fun _ => id) h.held h.stored fun _ => h.add
  refine ⟨hhl, hstd, ?_⟩
  cases hs with
  | publish _ | deliver _ | rebaseline _ => exact h.stamped
  | @stamp d hph =>
    intro d' upTo hstm
    cases hstm
    exact hok d hph
  | @write d upTo fault hph =>
    -- however it ends, nothing is stamped any more
    rcases s.writer.finishFlush cfg d upTo s.table.size fault s.destinations with ⟨st, w, _ | _ | _⟩
    all_goals nofun
  | @commit initial epoch rows pos fault now hph =>
    rcases s.writer.finishSnapshot cfg epoch rows pos now fault s.destinations with ⟨st, w, _ | _⟩
    · cases initial <;> nofun
    · nofun
  | _ => nofun

/-- **Planning ends**, for every position asked for and every comparison, when each position
stamped on a diff is not one that the diff itself or a listed diff starts from. -/
theorem planning_terminates (cfg : Config B V) (table : Store V) (position : String)
    (hreach : Reach (Step cfg) MovesOn (World.init table position) s) {n : String}
    {m : Manifest} (hstored : (s.destinations n).manifest = some m) (p : String)
    (cmp : String → String → Int) :
    (∃ fuel, (m.plan fuel p cmp).isSome = true) ∧
      ∃ fuel, (m.planAsOf fuel p cmp).isSome = true := by
  have hinv : s.Acyclic := by
    refine hreach.invariant Acyclic ⟨NoReturn.nil, nofun, nofun⟩ ?_
    intro s₁ s₂ a h hok hs
    exact h.step hok hs
  have hret := hinv.stored n m hstored
  exact ⟨hret.plan_total p cmp, hret.planAsOf_total p cmp⟩

def loopManifest : Manifest :=
  ⟨1, 1, "0/10", [⟨.snapshot, 1, none, "0/10", ["plain"]⟩,
    ⟨.diff, 1, some "0/10", "0/10", ["plain"]⟩]⟩

/-- The writer starts on an empty table at 0/10. A row with the same position is flushed: the diff
leads from 0/10 to 0/10, and no plan from there is ever finished. -/
theorem unmoved_position_never_planned : ∃ s : World (Payload Text) Text,
      Run (Step diffsOnly) (World.init ∅ "0/10") s ∧
      (s.destinations "local").manifest = some loopManifest ∧
      ∀ (c : Comparator String) (fuel : Nat), loopManifest.plan fuel "0/10" c.cmp = none ∧
        loopManifest.planAsOf fuel "0/10" c.cmp = none := by
  have h : Run (Step diffsOnly) (World.init ∅ "0/10") _ := .refl _
  have h := h
    |>.snoc (.start rfl)
    |>.snoc (.capture rfl (.refl _))
    |>.snoc (a := .commit none 0) (.commit rfl)
    |>.snoc (a := .publish "0/10" insertOne) (.publish rfl)
    |>.snoc (.deliver rfl)
    |>.snoc (a := .drain _ 0) (.drain rfl buffer_insertOne_ne (.refl _))
    |>.snoc (.stamp rfl)
    |>.snoc (a := .write none) (.write rfl)
  refine ⟨_, h, rfl, fun c fuel => ⟨?_, ?_⟩⟩
  · have hd : (byFrom loopManifest.diffs)["0/10"]? =
        some ⟨.diff, 1, some "0/10", "0/10", ["plain"]⟩ := by decide +kernel
    exact plan_of_loop rfl hd rfl fuel _
  · have hle : c.cmp "0/10" "0/10" ≤ 0 := Comparator.Le.refl c "0/10"
    have hbase : baseAsOf loopManifest.artifacts "0/10" c.cmp =
        some ⟨.snapshot, 1, none, "0/10", ["plain"]⟩ := by
      simp [baseAsOf, loopManifest, hle]
    have hd : (byFrom loopManifest.artifacts)["0/10"]? =
        some ⟨.diff, 1, some "0/10", "0/10", ["plain"]⟩ := by decide +kernel
    exact planAsOf_of_loop rfl hbase hd rfl hle fuel

def movedManifest : Manifest :=
  ⟨1, 1, "0/20", [⟨.snapshot, 1, none, "0/10", ["plain"]⟩,
    ⟨.diff, 1, some "0/10", "0/20", ["plain"]⟩]⟩

theorem moved_position_planned : ∃ s : World (Payload Text) Text,
      Reach (Step diffsOnly) MovesOn (World.init ∅ "0/10") s ∧
      (s.destinations "local").manifest = some movedManifest ∧
      ∀ (p : String) (cmp : String → String → Int),
        (∃ fuel, (movedManifest.plan fuel p cmp).isSome = true) ∧
          ∃ fuel, (movedManifest.planAsOf fuel p cmp).isSome = true := by
  have h : Reach (Step diffsOnly) MovesOn (World.init ∅ "0/10") _ := .refl _
  have h := h
    |>.snoc (.start rfl)
    |>.snoc (.capture rfl (.refl _))
    |>.snoc (a := .commit none 0) (.commit rfl)
    |>.snoc (a := .publish "0/20" insertOne) (.publish rfl)
    |>.snoc (.deliver rfl)
    |>.snoc (a := .drain _ 0) (.drain rfl buffer_insertOne_ne (.refl _))
  have h := h.snoc (.stamp rfl) fun d hd => by
    cases hd
    exact ⟨by decide +kernel, by decide +kernel⟩
  have h := h.snoc (a := .write none) (.write rfl)
  refine ⟨_, h, rfl, fun p cmp => ?_⟩
  exact planning_terminates diffsOnly ∅ "0/10" h (n := "local") (m := movedManifest) rfl p cmp

end World

end Laredo.Snapshotter
