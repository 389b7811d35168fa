import Laredo.Target.Upkeep

/-!
# Collisions

Rows of the in-memory target that share the key of a unique index for a while.
-/

namespace Laredo.Memory.IndexedTarget

open Fanout

variable {P V : Type} [GoValue V] {t : IndexedTarget V} {ops : List (Op P V)}

def trace (t : IndexedTarget V) : List (Op P V) → List (Exchange (Row V))
  | [] => []
  | op :: ops => t.exchangeOf op :: (t.apply op).trace ops

def WellFormed (t : IndexedTarget V) (ops : List (Op P V)) : Prop :=
  Stale.Along apply (fun t op => t.Allowed (.op op) ∧ op ≠ .onTruncate) t ops

lemma Sound.run (h : t.Sound) (hops : t.WellFormed ops) :
    ops.foldl apply t = t.exchanges (t.trace ops) ∧ t.ProperAlong (t.trace ops) := by
  induction ops generalizing t with
  | nil => exact ⟨rfl, trivial⟩
  | cons op ops ih =>
    obtain ⟨⟨hallowed, hop⟩, hops⟩ := hops
    have hprop := h.proper hallowed
    have happly := apply_eq_exchange h.keyed hop
    rw [happly] at hops
    obtain ⟨hrun, hal⟩ := ih (h.exchange hprop) hops
    rw [List.foldl_cons, trace, happly]
    exact ⟨hrun, hprop, hal⟩

lemma AnswersRows.getElem?_iff (h : t.AnswersRows) {key : Row V → String} {m : Store V}
    (huq : t.UniqueIndex key m) (x row : Row V) :
    m[key x]? = some row ↔ t.Holds row ∧ key row = key x := by
  cases huq with
  | primary =>
    have hget := h.get (t.pkCols.map x.get) row
    rwa [IndexedTarget.get, ← buildKey_eq] at hget
  | lookup hm =>
    have hlook := h.lookup (by rw [hm]; rfl) (t.lookupFields.map x.get) row
    rwa [IndexedTarget.lookup, hm, ← buildKey_eq] at hlook
  | @secondary name idx hidx hu =>
    have hall := (h.lookupAll hidx (idx.definition.fields.map x.get)).2 row
    rw [IndexedTarget.lookupAll, hidx] at hall
    simpa only [hu, if_true, Option.mem_toList, ← buildKey_eq] using hall

lemma AnswersRows.lists (h : t.AnswersRows) {idx : SecondaryIndex V} (hlist : t.ListIndex idx)
    (x : Row V) :
    (idx.nonuniq.getD (buildKey idx.definition.fields x) []).Nodup ∧
      ∀ row, row ∈ idx.nonuniq.getD (buildKey idx.definition.fields x) [] ↔
        t.Holds row ∧ buildKey idx.definition.fields row = buildKey idx.definition.fields x := by
  obtain ⟨⟨name, hidx⟩, huq⟩ := hlist
  have hall := h.lookupAll hidx (idx.definition.fields.map x.get)
  rw [IndexedTarget.lookupAll, hidx] at hall
  simpa only [huq, Bool.false_eq_true, if_false, ← buildKey_eq] using hall

lemma Mirrors.of_answersRows {es : List (Exchange (Row V))} (h : t.Mirrors)
    (hprop : t.ProperAlong es) (hdst : (t.exchanges es).Distinct)
    (hanswers : (t.exchanges es).AnswersRows) : (t.exchanges es).Mirrors := by
  obtain ⟨hsound, hhld⟩ := h.sound.exchanges hprop
  refine hsound.mirrors_iff.mpr fun {key m'} huq => ?_
  have hinj := hdst huq
  obtain ⟨m, hm, rfl⟩ := huq.of_exchanges
  have hfinds := (h.unique hm).finds.swaps es
  rw [← hhld] at hfinds
  refine (hfinds.files_iff hinj).mpr fun row hrow => ?_
  rw [(hanswers.getElem?_iff huq row row).mpr ⟨hrow, rfl⟩]
  rfl

/-- **Answers and transient collisions.** The target answers for its rows, exactly as a fresh one
restored from its snapshot, if and only if no stored row has lost its entry in a unique index to a
row that went. -/
theorem final_rows_answered_iff (h : t.Mirrors) (hops : t.WellFormed ops)
    (hdistinct : (ops.foldl apply t).Distinct) {fresh : IndexedTarget V}
    (hsetup : fresh.SameSetup (ops.foldl apply t)) {rows : List (Row V)}
    (hrows : Target.Iterates rows (ops.foldl apply t).store) :
    (ops.foldl apply t).AnswersRows ∧ SameAnswers (fresh.restoreSnapshot rows) (ops.foldl apply t) ↔
      t.Kept (t.trace ops) := by
  obtain ⟨hrun, hprop⟩ := h.sound.run hops
  rw [hrun] at hdistinct hsetup hrows ⊢
  rw [← h.exchanges_iff hprop hdistinct]
  constructor
  · rintro ⟨hanswers, -⟩
    exact h.of_answersRows hprop hdistinct hanswers
  · intro hmir
    refine ⟨hmir.answersRows, ?_⟩
    have hback : (t.exchanges (t.trace ops)).GivesBack rows rows :=
      ⟨fun _ => .of_forall fun row hrow => hrows.mem_iff_exists.mp hrow, fun _ => rfl⟩
    have hspl : rows = [] ++ rows ++ [] := by simp
    exact (hmir.restore_iff hsetup hrows hspl).mpr hback

/-- Members 1 and 2 exchange their badges, first one and then the other. Nobody shares a badge in
the end, but the second update has removed the entry of the first. -/
theorem badge_exchange_loses_entry : let ops : List (Op Int Text) :=
      [.onInsert (member "1" "a" "x" "7"), .onInsert (member "2" "b" "x" "8"),
        .onUpdate (member "1" "a" "x" "8") (some (member "1" "a" "x" "7")),
        .onUpdate (member "2" "b" "x" "7") (some (member "2" "b" "x" "8"))]
    let t := ops.foldl apply membersTarget
    membersTarget.WellFormed ops ∧ t.Distinct ∧ t.get [some "1"] = some (member "1" "a" "x" "8") ∧
      t.lookupAll "badge" [some "8"] = [] ∧
      (membersTarget.restoreSnapshot (t.store.toList.map Prod.snd)).lookupAll "badge" [some "8"] =
        [member "1" "a" "x" "8"] := by
  intro ops t
  refine ⟨?_, by decide +kernel, by decide +kernel, by decide +kernel, by decide +kernel⟩
  exact ⟨⟨by decide +kernel, nofun⟩, ⟨by decide +kernel, nofun⟩, ⟨by decide +kernel, nofun⟩,
    ⟨by decide +kernel, nofun⟩, trivial⟩

theorem final_rows_answered_iff_run : let ops : List (Op Int Text) :=
      [.onInsert (member "1" "a" "x" "7"), .onInsert (member "2" "b" "x" "7"),
        .onUpdate (member "1" "a" "x" "9") (some (.ofList [("id", some "1")])),
        .onUpdate (member "2" "b" "x" "7") (some (.ofList [("id", some "2")]))]
    let t := ops.foldl apply membersTarget
    ¬ ((ops.take 2).foldl apply membersTarget).Distinct ∧
      ((ops.take 3).foldl apply membersTarget).lookupAll "badge" [some "7"] = [] ∧
      t.lookupAll "badge" [some "7"] = [member "2" "b" "x" "7"] ∧ t.AnswersRows ∧
      SameAnswers (membersTarget.restoreSnapshot (t.store.toList.map Prod.snd)) t := by
  intro ops t
  have hmir : membersTarget.Mirrors := (onInit_new onInit_membersTarget).2
  have hwf : membersTarget.WellFormed ops :=
    ⟨⟨by decide +kernel, nofun⟩, ⟨by decide +kernel, nofun⟩, ⟨by decide +kernel, nofun⟩,
      ⟨by decide +kernel, nofun⟩, trivial⟩
  have hrun : t = membersTarget.exchanges (membersTarget.trace ops) := (hmir.sound.run hwf).1
  have hsetup : membersTarget.SameSetup t := hrun ▸ (SameSetup.exchanges _ _).symm
  have htrace : membersTarget.trace ops =
      [⟨none, some (member "1" "a" "x" "7")⟩, ⟨none, some (member "2" "b" "x" "7")⟩,
        ⟨some (member "1" "a" "x" "7"), some (member "1" "a" "x" "9")⟩,
        ⟨some (member "2" "b" "x" "7"), some (member "2" "b" "x" "7")⟩] := rfl
  have hrows : ∀ row, t.Holds row → row = member "1" "a" "x" "9" ∨
      row = member "2" "b" "x" "7" := by
    intro row hrow
    have hmem := (Target.Iterates.mem_iff_exists (.refl _)).mpr hrow
    have hall : t.store.toList.map Prod.snd =
        [member "1" "a" "x" "9", member "2" "b" "x" "7"] := by decide +kernel
    rw [hall] at hmem
    simpa using hmem
  -- whatever the key is, only member 1 goes for good, and a row with the key of member 2 comes
  have hkept : membersTarget.Kept (membersTarget.trace ops) := by
    intro key m _ row hrow
    rw [htrace]
    rw [← hrun] at hrow
    rcases hrows row hrow with rfl | rfl <;>
      simp [Stale.left_cons, Stale.not_left_nil, Exchange.Takes, Exchange.Brings]
  exact ⟨by decide +kernel, by decide +kernel, by decide +kernel,
    (final_rows_answered_iff hmir hwf (by decide +kernel) hsetup (.refl _)).mpr hkept⟩

end Laredo.Memory.IndexedTarget
