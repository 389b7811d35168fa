import Laredo.Snapshotter.Diff

/-!
# Remerge

A flush that fails: `remerge` puts the drained changes back under those that came in since.
-/

namespace Laredo.Snapshotter

open Edit KeyedMap WriteBuffer Std List Change

variable {V : Type} {buffer : Buffer V} {written : List (Change V)}

def TruncateFirst (written : List (Change V)) : Prop :=
  ∀ before ch after, written = before ++ ch :: after → ch.action = .truncate → before = []

lemma getElem?_foldChanges_of_first (hkd : Keyed key buffer)
    (hperm : written.Perm (buffer.toList.map Prod.snd)) (hfst : TruncateFirst written)
    (state : Store V) (k : String) :
    (foldChanges state written)[k]? = buffer[k]?.elim
      (if ∃ ch ∈ written, ch.action = .truncate then none else state[k]?) Change.value := by
  by_cases htr : ∃ ch ∈ written, ch.action = .truncate
  · rw [if_pos htr]
    obtain ⟨t, hin, ht⟩ := htr
    obtain ⟨before, after, rfl⟩ := append_of_mem hin
    obtain rfl := hfst before t after rfl ht
    have haft : ∀ ch ∈ after, ch.action ≠ .truncate := by
      intro ch hch hact
      obtain ⟨pre, post, rfl⟩ := append_of_mem hch
      exact absurd (hfst (t :: pre) ch post rfl hact) nofun
    have hfold : foldChanges state (t :: after) = foldChanges ∅ after := by
      simp [foldChanges, Change.apply, ht]
    have hnd := nodup_keys_of_values hkd hperm
    rw [nil_append, map_cons, nodup_cons] at hnd
    rw [nil_append, hfold, getElem?_foldChanges_of_ne haft]
    have hmem := mem_values hkd hperm
    cases hk : buffer[k]? with
    | some ch =>
      obtain rfl := hkd k ch hk
      rcases mem_cons.mp ((hmem ch).mpr hk) with rfl | hch
      · have hmiss : ∀ d ∈ after, d.key ≠ ch.key := fun d hd hkey =>
          hnd.1 (hkey ▸ List.mem_map_of_mem hd)
        simp [replay_of_miss hmiss, Change.value, ht]
      · rw [replay_of_mem hnd.2 hch]
        rfl
    | none =>
      rw [replay_of_miss fun d hd hkey => ?_]
      · simp
      · have hat := (hmem d).mp (mem_cons_of_mem _ hd)
        rw [hkey, hk] at hat
        cases hat
  · rw [if_neg htr]
    refine Buffer.Plain.getElem?_foldChanges ⟨hkd, fun k ch hch hact => ?_⟩ hperm state k
    obtain rfl := hkd k ch hch
    exact htr ⟨ch, (mem_values hkd hperm ch).mpr hch, hact⟩

variable [GoValue V] {keyFields : List String} {edits : List (Edit V)}

lemma Edit.mem_collect {k : String} {ch : Change V}
    (h : (collect keyFields buffer edits)[k]? = some ch) :
    buffer[k]? = some ch ∨ ch.key = k ∧ ∃ e ∈ edits, e.change keyFields = ch := by
  induction edits generalizing buffer with
  | nil => exact .inl h
  | cons e edits ih =>
    rcases ih h with hat | ⟨hkey, d, hd, hch⟩
    · unfold Buffer.onChange at hat
      dsimp only at hat
      by_cases hk : (Change.of keyFields e.old e.new).key = k
      · have hch : e.change keyFields = ch := by split at hat <;> simpa [hk, change] using hat
        exact .inr ⟨hch ▸ hk, e, mem_cons_self, hch⟩
      · split at hat
        · simp [hk] at hat
        · exact .inl (by simpa [ExtTreeMap.getElem?_insert, hk] using hat)
    · exact .inr ⟨hkey, d, mem_cons_of_mem _ hd, hch⟩

lemma Edit.collect_keyed (edits : List (Edit V)) :
    Keyed key (collect keyFields ∅ edits) := by
  intro k ch hch
  rcases mem_collect hch with hat | ⟨hkey, -⟩
  · simp at hat
  · exact hkey

def Edit.NilApart (keyFields : List String) (edits : List (Edit V)) : Prop :=
  ∀ e ∈ edits, e.isTruncate = false →
    (e.change keyFields).key ≠ rowKey keyFields (none : Option (Row V))

lemma Edit.getElem?_collect_truncated {post : List (Edit V)}
    (hnil : NilApart keyFields edits) (h : afterTruncate edits = some post) (k : String) :
    (collect keyFields ∅ edits)[k]? = if rowKey keyFields (none : Option (Row V)) = k then
      some (Change.of keyFields none none) else (collect keyFields ∅ post)[k]? := by
  obtain ⟨⟨pre, e, rfl, he⟩, hpost⟩ := afterTruncate_some h
  have hfree : ∀ d ∈ post, (d.change keyFields).key ≠ rowKey keyFields (none : Option (Row V)) :=
    fun d hd => hnil d (by simp [hd]) (hpost d hd)
  rw [(truncated he pre post ∅).2, collect_kept hpost hfree, getElem?_put]
  rfl

lemma Edit.remerge_bridges {post newer : List (Edit V)}
    (hpost : ∀ e ∈ post, e.isTruncate = false) (hnewer : ∀ e ∈ newer, e.isTruncate = false)
    (state : Store V) : ((collect keyFields ∅ newer).remerge (collect keyFields ∅ post)).Bridges
      state (replayBlind keyFields state (post ++ newer)) := by
  rw [replayBlind, foldl_append]
  exact (collect_bridges hpost Bridges.empty).remerge
    (collect_bridges hnewer Bridges.empty)

/-- **When a failed flush can be merged back**: if and only if every drained change is a delete or
truncate, or has a newer one of its key after the last newer truncate, if there is such a truncate.
-/
theorem remerge_replays_iff (keyFields : List String) (state : Store V)
    (before newer : List (Edit V)) (hkeys : ∀ e ∈ before ++ newer, e.KeepsKey keyFields)
    (hnil : NilApart keyFields (before ++ newer)) (written : List (Change V))
    (hwritten : written.Perm (((collect keyFields ∅ newer).remerge
      (collect keyFields ∅ before)).toList.map Prod.snd)) (hfirst : TruncateFirst written) :
    foldChanges state written = replay keyFields state (before ++ newer) ↔
      ∀ post, afterTruncate newer = some post →
        ∀ k ch, (collect keyFields ∅ before)[k]? = some ch →
          ch.action = .delete ∨ ch.action = .truncate ∨
            ∃ e ∈ post, (e.change keyFields).key = k := by
  have hnil₁ : NilApart keyFields before := fun e he => hnil e (by simp [he])
  have hnil₂ : NilApart keyFields newer := fun e he => hnil e (by simp [he])
  have hmerged := (collect keyFields ∅ newer).getElem?_remerge (collect keyFields ∅ before)
  have hkd : Keyed key ((collect keyFields ∅ newer).remerge
      (collect keyFields ∅ before)) := by
    intro k ch hch
    rw [hmerged, Option.or_eq_some_iff] at hch
    rcases hch with hch | ⟨-, hch⟩
    · exact collect_keyed newer k ch hch
    · exact collect_keyed before k ch hch
  have hcleared : ((collect keyFields ∅ newer).remerge (collect keyFields ∅ before))[
      rowKey keyFields (none : Option (Row V))]? = some (Change.of keyFields none none) →
      ∀ k : String, (foldChanges state written)[k]? = ((collect keyFields ∅ newer)[k]?.or
        (collect keyFields ∅ before)[k]?).elim none Change.value := by
    intro hat k
    have hin : ∃ ch ∈ written, ch.action = .truncate :=
      ⟨_, (mem_values hkd hwritten (Change.of keyFields none none)).mpr hat, rfl⟩
    rw [getElem?_foldChanges_of_first hkd hwritten hfirst, if_pos hin, hmerged]
  rw [← replayBlind_eq hkeys]
  cases hnewer : afterTruncate newer with
  | none =>
    refine iff_of_true ?_ nofun
    have hpl := afterTruncate_none hnewer
    cases hbef : afterTruncate before with
    | none =>
      have hplain₁ := afterTruncate_none hbef
      exact (remerge_bridges hplain₁ hpl state).foldChanges_eq
        ((collect_plain hpl .empty).remerge (collect_plain hplain₁ .empty)) hwritten
    | some post =>
      have hat := getElem?_collect_truncated hnil₁ hbef
      obtain ⟨⟨pre, e, rfl, he⟩, hpost⟩ := afterTruncate_some hbef
      have hnone : (collect keyFields ∅ newer)[rowKey keyFields (none : Option (Row V))]? = none :=
        (getElem?_collect_eq_none hpl _).mpr fun d hd => hnil₂ d hd (hpl d hd)
      rw [append_assoc, cons_append, (truncated he pre (post ++ newer) state).1]
      refine ExtTreeMap.ext_getElem? fun k => ?_
      rw [hcleared (by simp [hmerged, hnone, hat]), hat]
      refine Eq.trans ?_ (remerge_bridges hpost hpl ∅ k).symm
      rw [Buffer.getElem?_remerge]
      by_cases hk : rowKey keyFields (none : Option (Row V)) = k
      · have hfree : (collect keyFields ∅ post)[k]? = none :=
          (getElem?_collect_eq_none hpost k).mpr
            fun d hd => hk ▸ hnil₁ d (by simp [hd]) (hpost d hd)
        rw [hfree, ← hk, hnone, if_pos rfl]
        simp [Change.value, Change.of]
      · simp [hk]
  | some post =>
    have hat := getElem?_collect_truncated hnil₂ hnewer
    obtain ⟨⟨pre, e, rfl, he⟩, hpost⟩ := afterTruncate_some hnewer
    have hbridge : (collect keyFields ∅ post).Bridges ∅ (replayBlind keyFields ∅ post) :=
      collect_bridges hpost Bridges.empty
    have hfree : ∀ k, (collect keyFields ∅ post)[k]? = none ↔ _ :=
      getElem?_collect_eq_none hpost
    rw [← append_assoc, (truncated he (before ++ pre) post state).1]
    -- next to the truncate, what was drained stands where nothing came later
    have hkey : ∀ k : String, (foldChanges state written)[k]? =
        (replayBlind keyFields ∅ post)[k]? ↔ ∀ ch, (collect keyFields ∅ before)[k]? = some ch →
          ch.action = .delete ∨ ch.action = .truncate ∨
            ∃ e ∈ post, (e.change keyFields).key = k := by
      intro k
      have hreplay : (replayBlind keyFields ∅ post)[k]? =
          (collect keyFields ∅ post)[k]?.elim none Change.value :=
        (hbridge k).trans (by simp)
      rw [hcleared (by simp [hmerged, hat]), hat, hreplay]
      by_cases hk : rowKey keyFields (none : Option (Row V)) = k
      · have hnone := (hfree k).mpr fun d hd => hk ▸ hnil₂ d (by simp [hd]) (hpost d hd)
        refine iff_of_true (by simp [hk, hnone, Change.value, Change.of]) fun ch hch => ?_
        rcases mem_collect hch with hin | ⟨rfl, d, hd, rfl⟩
        · simp at hin
        · cases htr : d.isTruncate with
          | false => exact absurd hk.symm (hnil₁ d hd htr)
          | true => exact .inr (.inl (by rw [eq_of_isTruncate htr]; rfl))
      · rw [if_neg hk]
        cases hlater : (collect keyFields ∅ post)[k]? with
        | some d =>
          have hin : ∃ e ∈ post, (e.change keyFields).key = k := by
            by_contra hno
            simp [(hfree k).mpr fun e he hek => hno ⟨e, he, hek⟩] at hlater
          exact iff_of_true (by simp) fun _ _ => .inr (.inr hin)
        | none =>
          have hno : ¬ ∃ e ∈ post, (e.change keyFields).key = k := by
            simpa using (hfree k).mp hlater
          cases (collect keyFields ∅ before)[k]? with
          | none => simp
          | some ch => cases hch : ch.action <;> simp [Change.value, hch, hno]
    constructor
    · rintro heq _ ⟨⟩ k
      exact (hkey k).mp (by rw [heq])
    · intro hsafe
      exact ExtTreeMap.ext_getElem? fun k => (hkey k).mpr (hsafe post rfl k)

theorem remerge_replays_iff_updated : foldChanges (∅ : Store Text)
        [Change.of ["id"] (some (rowWithId "1")) (some (rowWithId "1"))] =
      replay ["id"] ∅
        ([⟨none, some (rowWithId "1")⟩] ++ [⟨some (rowWithId "1"), some (rowWithId "1")⟩]) := by
  refine (remerge_replays_iff ["id"] ∅ [⟨none, some (rowWithId "1")⟩]
    [⟨some (rowWithId "1"), some (rowWithId "1")⟩] ?_ ?_ [_] (.refl _) ?_).mpr nofun
  · simp [KeepsKey, tableChange, TableChange.KeepsKey]
  · intro e he _
    rcases mem_cons.mp he with rfl | he
    · decide +kernel
    · obtain rfl := mem_singleton.mp he
      decide +kernel
  · intro before ch after heq _
    cases before with
    | nil => rfl
    | cons d before => simp at heq

/-- Row 1 is inserted and drained, and the table truncated while the flush fails: row 1 comes
back. -/
theorem truncated_row_comes_back :
    let merged := (collect ["id"] (∅ : Buffer Text) [⟨none, none⟩]).remerge
      (collect ["id"] ∅ [⟨none, some (rowWithId "1")⟩])
    let written := [Change.of ["id"] none none, Change.of ["id"] none (some (rowWithId "1"))]
    written.Perm (merged.toList.map Prod.snd) ∧ TruncateFirst written ∧
    (foldChanges (∅ : Store Text) written)["1"]?.map (·.get "id") = some (some "1") ∧
    (replay ["id"] (∅ : Store Text)
      ([⟨none, some (rowWithId "1")⟩] ++ [⟨none, none⟩]))["1"]? = none := by
  refine ⟨List.Perm.swap _ _ _, ?_, by decide +kernel, by decide +kernel⟩
  rintro (_ | ⟨d, _ | ⟨d', before⟩⟩) ch after heq hact
  · rfl
  · cases heq
    cases hact
  · simp at heq

end Laredo.Snapshotter
