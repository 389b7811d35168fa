import Laredo.Source.ArchiveFollow

/-!
# Archive reread

Coming back to diffs that were read before. A source that goes on from an earlier position plans
anew, with a manifest that has grown.
-/

namespace Laredo.Archive

open Overwrite List
open Snapshotter (Artifact Manifest Change Reader Config Origin World rowKey foldChanges)

variable {B V : Type} [GoValue V]

section

variable (table : TableIdentifier)

def eventsOf (e : Artifact × List (Change V)) : List (ChangeEvent String V) :=
  e.2.map fun ch => toEvent table ch e.1.toPosition

def events (trail : List (Artifact × List (Change V))) : List (ChangeEvent String V) :=
  trail.flatMap (eventsOf table)

variable {table} {e : Artifact × List (Change V)} {ev : ChangeEvent String V}
variable {trail done done' ahead ahead' : List (Artifact × List (Change V))}
variable {pre rest tail : List (ChangeEvent String V)}

omit [GoValue V]

@[simp] lemma events_nil : events table ([] : List (Artifact × List (Change V))) = [] := rfl

@[simp] lemma events_cons : events table (e :: trail) = eventsOf table e ++ events table trail :=
  rfl

@[simp] lemma events_append :
    events table (done ++ ahead) = events table done ++ events table ahead :=
  flatMap_append

lemma position_of_mem (h : ev ∈ eventsOf table e) : ev.position = some e.1.toPosition := by
  obtain ⟨ch, -, rfl⟩ := List.mem_map.mp h
  exact toEvent_position table ch e.1.toPosition

lemma exists_entry (h : events table trail = pre ++ ev :: rest) :
    ∃ done e ahead tail, trail = done ++ e :: ahead ∧ ev :: tail <:+ eventsOf table e ∧
      rest = tail ++ events table ahead := by
  induction trail generalizing pre with
  | nil => simp at h
  | cons e trail ih =>
    rw [events_cons] at h
    rcases append_eq_append_iff.mp h with ⟨pre', -, htrl⟩ | ⟨pre', he, hrest⟩
    · obtain ⟨done, e', ahead, tail, rfl, hsuf, hrest⟩ := ih htrl
      exact ⟨e :: done, e', ahead, tail, rfl, hsuf, hrest⟩
    · cases pre' with
      | nil =>
        have htrl : events table trail = [] ++ ev :: rest := hrest.symm
        obtain ⟨done, e', ahead, tail, rfl, hsuf, hrest⟩ := ih htrl
        exact ⟨e :: done, e', ahead, tail, rfl, hsuf, hrest⟩
      | cons ev' tail =>
        obtain ⟨rfl, rfl⟩ := List.cons.inj hrest
        exact ⟨[], e, trail, tail, rfl, ⟨pre, he.symm⟩, rfl⟩

lemma tail_eq_nil (htrl : done ++ ahead = done' ++ e :: ahead')
    (htail : ev :: tail <:+ eventsOf table e)
    (hnext : tail ++ events table ahead' = events table ahead) : tail = [] := by
  have hsuf : ahead <:+ done' ++ e :: ahead' := ⟨done, htrl⟩
  have hlen := congrArg List.length hnext
  rw [length_append] at hlen
  rcases suffix_or_suffix_of_suffix hsuf (suffix_append done' (e :: ahead')) with
    hshort | ⟨mid, rfl⟩
  · rcases suffix_cons_iff.mp hshort with rfl | ⟨mid, rfl⟩
    · have hle := htail.length_le
      rw [events_cons, length_append] at hlen
      rw [length_cons] at hle
      omega
    · rw [events_append, length_append] at hlen
      exact length_eq_zero_iff.mp (by omega)
  · have hle := htail.length_le
    rw [events_append, events_cons, length_append, length_append] at hlen
    rw [length_cons] at hle
    omega

end

def overwriteOf (keyFields : List String) (ev : ChangeEvent String V) :
    Overwrite String (Row V) :=
  match ev.action with
  | .insert | .update => .set (rowKey keyFields ev.newValues) (Row.orEmpty ev.newValues)
  | .delete => .delete (rowKey keyFields ev.oldValues)
  | .truncate => .clear

lemma applyEvent_absorbs (keyFields : List String) :
    Absorbs (applyEvent (V := V) keyFields) := by
  have hstep : ∀ (rows : Store V) (ev : ChangeEvent String V), held (applyEvent keyFields rows ev) =
        (overwriteOf keyFields ev).apply (held rows) := by
    intro rows ev
    unfold applyEvent overwriteOf
    cases ev.action with
    | insert | update => exact set_held rows _ _
    | delete => exact delete_held rows _
    | truncate => exact clear_held rows
  exact Absorbs.of_view (fun _ _ => eq_of_held) hstep

lemma foldl_eventsOf {keyFields : List String} {changes : List (Change V)}
    (h : ∀ ch ∈ changes, ch.Filed keyFields) (table : TableIdentifier) (d : Artifact)
    (rows : Store V) :
    (eventsOf table (d, changes)).foldl (applyEvent keyFields) rows = foldChanges rows changes := by
  induction changes generalizing rows with
  | nil => rfl
  | cons ch changes ih =>
    have hfst := applyEvent_toEvent (h ch mem_cons_self) table d.toPosition rows
    have hrest := ih (fun x hx => h x (mem_cons_of_mem _ hx)) (ch.apply rows)
    unfold eventsOf at hrest ⊢
    rw [map_cons, foldl_cons, hfst]
    exact hrest

section

variable {cfg : Config B V} {o : Origin V cfg.keyFields} {w w' : World B V} {n p q r : String}
variable {m : Manifest} {x : Artifact} {xs ys : List Artifact} {src : Source B V}

def Placed (o : Origin V cfg.keyFields) (n : String) (w : World B V) (x : Artifact) : Prop :=
  ∃ m, (w.destinations n).manifest = some m ∧ o.order.Le x.toPosition m.headPosition ∧
    ∀ b ∈ m.artifacts, b = x ∨ o.order.Le x.toPosition b.origin ∨ o.order.Le b.toPosition x.origin

lemma Placed.mono (h : Placed o n w x) (he : Evolves o n w w') : Placed o n w' x := by
  obtain ⟨m, hm, hhead, hall⟩ := h
  obtain ⟨m', hm', hgrows⟩ := he.grows m hm
  refine ⟨m', hm', hhead.trans hgrows.head, fun b hb => ?_⟩
  rcases hgrows.continues b hb with hold | hnew
  · exact hall b hold
  · exact .inr (.inl (hhead.trans hnew))

lemma Placed.of_listed (h : w.Growing cfg o) (hm : (w.destinations n).manifest = some m)
    (hx : x ∈ m.artifacts) : Placed o n w x := by
  obtain ⟨snap, chain, hhd⟩ := h.headed.stored n m hm
  have hsymm : Std.Symm fun a b : Artifact =>
      o.order.Le a.toPosition b.origin ∨ o.order.Le b.toPosition a.origin := ⟨fun _ _ => Or.symm⟩
  have hpairs : m.artifacts.Pairwise fun a b =>
      o.order.Le a.toPosition b.origin ∨ o.order.Le b.toPosition a.origin :=
    (h.stored n m hm).after.imp fun hle => .inl hle
  refine ⟨m, hm, hhd.last x hx, fun b hb => ?_⟩
  by_cases heq : b = x
  · exact .inl heq
  · exact .inr (hpairs.forall hx hb (Ne.symm heq))

lemma Linked.replanned (hxs : Linked o.order p xs q) (hplaced : ∀ x ∈ xs, Placed o n w x)
    (hm : (w.destinations n).manifest = some m) (hys : Linked o.order p ys m.headPosition)
    (hall : ∀ y ∈ ys, y ∈ m.artifacts) : ∃ new, ys = xs ++ new := by
  induction xs generalizing p ys with
  | nil => exact ⟨ys, rfl⟩
  | cons x xs ih =>
    obtain ⟨hfrom, hlt, hrest⟩ := hxs
    obtain ⟨m', hm', hhead, hap⟩ := hplaced x mem_cons_self
    cases hm.symm.trans hm'
    cases ys with
    | nil =>
      obtain rfl : p = m.headPosition := hys
      exact absurd hhead hlt.not_le
    | cons y ys =>
      obtain ⟨hfrom', hlt', hrest'⟩ := hys
      have hxy : y = x := by
        rcases hap y (hall y mem_cons_self) with heq | hle | hle
        · exact heq
        · rw [hfrom'.origin_eq] at hle
          exact absurd hle hlt.not_le
        · rw [hfrom.origin_eq] at hle
          exact absurd hle hlt'.not_le
      obtain rfl := hxy
      obtain ⟨new, rfl⟩ := ih hrest (fun x hx => hplaced x (mem_cons_of_mem _ hx)) hrest'
        fun y hy => hall y (mem_cons_of_mem _ hy)
      exact ⟨new, rfl⟩

lemma Linked.mem_of_listed (hxs : Linked o.order p xs q) (hplaced : ∀ x ∈ xs, Placed o n w x)
    (hm : (w.destinations n).manifest = some m) (hx : x ∈ m.artifacts) (hfrom : x.DiffFrom r)
    (hlt : o.order.Lt r x.toPosition) (hst0 : o.order.Le p r)
    (hend : o.order.Le x.toPosition q) : x ∈ xs := by
  induction xs generalizing p with
  | nil =>
    obtain rfl : p = q := hxs
    exact absurd (hend.trans hst0) hlt.not_le
  | cons y xs ih =>
    obtain ⟨hfrom', -, hrest⟩ := hxs
    obtain ⟨m', hm', -, hap⟩ := hplaced y mem_cons_self
    cases hm.symm.trans hm'
    rcases hap x hx with rfl | hle | hle
    · exact mem_cons_self
    · rw [hfrom.origin_eq] at hle
      exact mem_cons_of_mem _
        (ih hrest (fun x hx => hplaced x (mem_cons_of_mem _ hx)) hle)
    · rw [hfrom'.origin_eq] at hle
      exact absurd (hle.trans hst0) hlt.not_le

variable {a : Snapshotter.Label V}

lemma Readable.readDiff_congr (h : Readable cfg o n w x) (hinv : w.Growing cfg o)
    (hn : n ∈ cfg.destinations) (hr : src.reader.Decodes cfg)
    (hok : w.Plannable cfg o a) (hspare : w.Spares cfg x a) (hs : Snapshotter.Step cfg w a w') :
    src.reader.readDiff (w'.destinations n) x = src.reader.readDiff (w.destinations n) x :=
  hr.read_congr (h.genuine.sound n hn).formats
    (fun _ hg => (hinv.toReplayable.archiveEffect hok hs).spared hspare hg n) _

structure Kept (src : Source B V) (o : Origin V cfg.keyFields) (n : String) (w : World B V)
    (e : Artifact × List (Change V)) : Prop where
  reached : Reached o n w e.1.toPosition
  placed : Placed o n w e.1
  forward : ∃ p, e.1.DiffFrom p ∧ o.order.Lt p e.1.toPosition
  read : ∀ m, (w.destinations n).manifest = some m → e.1 ∈ m.artifacts →
    src.reader.readDiff (w.destinations n) e.1 = .ok e.2

variable {e : Artifact × List (Change V)}

lemma Kept.step (h : Kept src o n w e) (hinv : w.Growing cfg o) (hfil : w.Filing cfg)
    (hn : n ∈ cfg.destinations) (hr : src.reader.Decodes cfg)
    (hok : w.Plannable cfg o a) (hs : Snapshotter.Step cfg w a w') : Kept src o n w' e := by
  have he := Evolves.of_step hinv hn hok hs
  refine ⟨h.reached.mono he, h.placed.mono he, h.forward, fun m' hm' hmem => ?_⟩
  obtain ⟨m, hm, hhead, -⟩ := h.placed
  obtain ⟨p, hfrom, hlt⟩ := h.forward
  obtain ⟨m'', hm'', hgrows⟩ := he.grows m hm
  cases hm'.symm.trans hm''
  -- what is listed now and ends before the old head was listed then
  have hlst : e.1 ∈ m.artifacts := by
    refine (hgrows.continues e.1 hmem).resolve_right fun hle => ?_
    rw [hfrom.origin_eq] at hle
    exact hlt.not_le (hhead.trans hle)
  have hspare := hinv.spares hok (.inr ⟨n, hn, m, hm, hlst⟩) hfrom hlt
  rw [(Readable.of_listed hinv hfil hn hm hlst).readDiff_congr hinv hn hr hok hspare hs]
  exact h.read m hm hlst

/-- The diffs that the source is about to read from the position on: first those of the trail
that are ahead. -/
structure Ahead (cfg : Config B V) (o : Origin V cfg.keyFields) (src : Source B V) (n : String)
    (w : World B V) (p : String) (ahead : List (Artifact × List (Change V)))
    (diffs : List Artifact) : Prop where
  again : ∃ new, diffs = ahead.map Prod.fst ++ new
  linked : ∃ q, Linked o.order p diffs q
  pending : ∀ d ∈ diffs, Readable cfg o n w d ∧ Placed o n w d
  reads : ∀ e ∈ ahead, src.reader.readDiff (w.destinations n) e.1 = .ok e.2

variable {ahead : List (Artifact × List (Change V))} {diffs : List Artifact} {d : Artifact}

lemma Ahead.step (h : Ahead cfg o src n w p ahead diffs) (hinv : w.Growing cfg o)
    (hn : n ∈ cfg.destinations) (hr : src.reader.Decodes cfg)
    (hok : w.Plannable cfg o a) (hspare : ∀ d ∈ diffs, w.Spares cfg d a)
    (hs : Snapshotter.Step cfg w a w') : Ahead cfg o src n w' p ahead diffs := by
  have he := Evolves.of_step hinv hn hok hs
  refine ⟨h.again, h.linked, fun d hd => ?_, fun e hmem => ?_⟩
  · obtain ⟨hread, hplaced⟩ := h.pending d hd
    exact ⟨hread.step hinv hn hok (hspare d hd) hs, hplaced.mono he⟩
  · have hd : e.1 ∈ diffs := by
      obtain ⟨new, rfl⟩ := h.again
      exact mem_append_left _ (List.mem_map_of_mem hmem)
    rw [(h.pending e.1 hd).1.readDiff_congr hinv hn hr hok (hspare e.1 hd) hs]
    exact h.reads e hmem

lemma Ahead.of_plan (hinv : w.Growing cfg o) (hfil : w.Filing cfg) (hn : n ∈ cfg.destinations)
    (hm : (w.destinations n).manifest = some m) (hlnk : Linked o.order p diffs m.headPosition)
    (hall : ∀ d ∈ diffs, d ∈ m.artifacts) (hahead : Linked o.order p (ahead.map Prod.fst) q)
    (hkept : ∀ e ∈ ahead, Kept src o n w e) : Ahead cfg o src n w p ahead diffs := by
  have hplaced : ∀ x ∈ ahead.map Prod.fst, Placed o n w x := by
    intro x hx
    obtain ⟨e, he, rfl⟩ := List.mem_map.mp hx
    exact (hkept e he).placed
  have hagain := hahead.replanned hplaced hm hlnk hall
  refine ⟨hagain, ⟨_, hlnk⟩, fun d hd => ?_, fun e he => ?_⟩
  · exact ⟨Readable.of_listed hinv hfil hn hm (hall d hd), Placed.of_listed hinv hm (hall d hd)⟩
  · obtain ⟨new, rfl⟩ := hagain
    exact (hkept e he).read m hm (hall _ (mem_append_left _ (List.mem_map_of_mem he)))

lemma Ahead.fresh (h : Ahead cfg o src n w p [] (d :: diffs)) :
    d.DiffFrom p ∧ o.order.Lt p d.toPosition ∧ Ahead cfg o src n w d.toPosition [] diffs := by
  obtain ⟨q, hfrom, hlt, hlnk⟩ := h.linked
  exact ⟨hfrom, hlt, ⟨diffs, rfl⟩, ⟨q, hlnk⟩, fun x hx => h.pending x (mem_cons_of_mem _ hx), nofun⟩

lemma Ahead.repeated (h : Ahead cfg o src n w p (e :: ahead) (d :: diffs)) :
    e.1 = d ∧ o.order.Lt p d.toPosition ∧ src.reader.readDiff (w.destinations n) d = .ok e.2 ∧
      Ahead cfg o src n w d.toPosition ahead diffs := by
  obtain ⟨new, hnew⟩ := h.again
  obtain ⟨rfl, rfl⟩ := List.cons.inj hnew
  obtain ⟨q, -, hlt, hlnk⟩ := h.linked
  exact ⟨rfl, hlt, h.reads e mem_cons_self, ⟨new, rfl⟩, ⟨q, hlnk⟩,
    fun x hx => h.pending x (mem_cons_of_mem _ hx), fun x hx => h.reads x (mem_cons_of_mem _ hx)⟩

end

end Laredo.Archive
