import Laredo.Snapshotter.Growth

/-!
# Archive

The archive source (`source/archive/archive.go`): `Baseline` reconstructs the table at the head, and
`Stream` replays the diffs that are appended after it.
-/

namespace Laredo.Archive

open Snapshotter Reader List
open Snapshotter (Artifact Manifest ReplayPlan Change Reader Destination Reconstruction
  rowKey foldChanges byFrom)

variable {B V : Type}

structure Source (B V : Type) where
  reader : Reader B V
  table : TableIdentifier
  keyFields : List String
  cmp : String → String → Int
  follow : Bool

def toEvent (table : TableIdentifier) (ch : Change V) (pos : String) : ChangeEvent String V :=
  match ch.action with
  | .insert => ⟨table, .insert, some pos, ch.new, none⟩
  | .update => ⟨table, .update, some pos, ch.new, ch.old⟩
  | .delete => ⟨table, .delete, some pos, none, ch.old⟩
  | .truncate => ⟨table, .truncate, some pos, none, none⟩

@[simp] lemma toEvent_position (table : TableIdentifier) (ch : Change V) (pos : String) :
    (toEvent table ch pos).position = some pos := by
  cases ha : ch.action <;> simp [toEvent, ha]

inductive Pc (V : Type)
  | start
  | loaded (head : String)
  | polling
  | draining (diffs : List Artifact)
  | emitting (d : Artifact) (changes : List (Change V)) (diffs : List Artifact)
  | rebaseline
  | finished
  | failed

def Pc.pending : Pc V → List Artifact
  | .draining diffs | .emitting _ _ diffs => diffs
  | _ => []

structure Cursor (V : Type) where
  pc : Pc V
  position : String

inductive Output (V : Type)
  | nothing
  | rows (rows : List (Row V))
  | event (ev : ChangeEvent String V)

def Source.waitsFor (src : Source B V) (e : ReadError) : Prop :=
  src.follow = true ∧ e = .manifestNotFound

variable [GoValue V]

inductive Move (src : Source B V) (arch : Destination B) (c : Cursor V) :
    Output V → Cursor V → Prop
  -- `Baseline`, for the first time or again
  | load {m : Manifest} (hpc : c.pc = .start ∨ c.pc = .rebaseline)
      (hm : loadManifest arch = .ok m) :
      Move src arch c .nothing { c with pc := .loaded m.headPosition }
  | loadFailed {e : ReadError} (hpc : c.pc = .start ∨ c.pc = .rebaseline)
      (hm : loadManifest arch = .error e) : Move src arch c .nothing { c with pc := .failed }
  | reconstructed {head : String} {fuel : Nat} {rec : Reconstruction V} (hpc : c.pc = .loaded head)
      (hrec : src.reader.reconstructAsOf fuel arch head src.keyFields src.cmp =
        some (.ok (some rec))) : Move src arch c (.rows rec.rows) ⟨.polling, rec.position⟩
  | empty {head : String} {fuel : Nat} (hpc : c.pc = .loaded head)
      (hrec : src.reader.reconstructAsOf fuel arch head src.keyFields src.cmp = some (.ok none)) :
      Move src arch c (.rows []) ⟨.polling, head⟩
  | reconstructFailed {head : String} {fuel : Nat} {e : ReadError}
      (hpc : c.pc = .loaded head)
      (hrec : src.reader.reconstructAsOf fuel arch head src.keyFields src.cmp = some (.error e)) :
      Move src arch c .nothing { c with pc := .failed }
  -- the loop of `Stream`
  | absent {e : ReadError} (hpc : c.pc = .polling)
      (hm : loadManifest arch = .error e) (hwait : src.waitsFor e) :
      Move src arch c .nothing c
  | streamFailed {e : ReadError} (hpc : c.pc = .polling)
      (hm : loadManifest arch = .error e) (hwait : ¬ src.waitsFor e) :
      Move src arch c .nothing { c with pc := .failed }
  | wait {m : Manifest} (hpc : c.pc = .polling) (hm : loadManifest arch = .ok m)
      (hhead : ¬ src.cmp m.headPosition c.position > 0) (hfollow : src.follow = true) :
      Move src arch c .nothing c
  | finish {m : Manifest} (hpc : c.pc = .polling) (hm : loadManifest arch = .ok m)
      (hhead : ¬ src.cmp m.headPosition c.position > 0) (hfollow : src.follow = false) :
      Move src arch c .nothing { c with pc := .finished }
  | plan {m : Manifest} {fuel : Nat} {plan : ReplayPlan} (hpc : c.pc = .polling)
      (hm : loadManifest arch = .ok m) (hhead : src.cmp m.headPosition c.position > 0)
      (hplan : m.plan fuel c.position src.cmp = some (some plan)) (hnone : plan.snapshot = none) :
      Move src arch c .nothing { c with pc := .draining plan.diffs }
  | rebase {m : Manifest} {fuel : Nat} {found : Option ReplayPlan} (hpc : c.pc = .polling)
      (hm : loadManifest arch = .ok m) (hhead : src.cmp m.headPosition c.position > 0)
      (hplan : m.plan fuel c.position src.cmp = some found)
      (hsnap : ∀ plan ∈ found, plan.snapshot ≠ none) :
      Move src arch c .nothing { c with pc := .rebaseline }
  -- the loops of `drain`
  | read {d : Artifact} {diffs : List Artifact} {changes : List (Change V)}
      (hpc : c.pc = .draining (d :: diffs)) (hread : src.reader.readDiff arch d = .ok changes) :
      Move src arch c .nothing { c with pc := .emitting d changes diffs }
  | readFailed {d : Artifact} {diffs : List Artifact} {e : ReadError}
      (hpc : c.pc = .draining (d :: diffs)) (hread : src.reader.readDiff arch d = .error e) :
      Move src arch c .nothing { c with pc := .failed }
  | emit {d : Artifact} {ch : Change V} {changes : List (Change V)} {diffs : List Artifact}
      (hpc : c.pc = .emitting d (ch :: changes) diffs) :
      Move src arch c (.event (toEvent src.table ch d.toPosition))
        { c with pc := .emitting d changes diffs }
  | next {d : Artifact} {diffs : List Artifact} (hpc : c.pc = .emitting d [] diffs) :
      Move src arch c .nothing ⟨.draining diffs, d.toPosition⟩
  | drained (hpc : c.pc = .draining []) : Move src arch c .nothing { c with pc := .polling }

lemma Move.polling_inv {src : Source B V} {arch : Destination B} {c c' : Cursor V}
    {out : Output V} (hmove : Move src arch c out c') (hpc : c.pc = .polling) {m : Manifest}
    (hload : loadManifest arch = .ok m) : out = .nothing ∧
      (¬ src.cmp m.headPosition c.position > 0 ∧
          c'.position = c.position ∧ (c'.pc = .polling ∨ c'.pc = .finished) ∨
        src.cmp m.headPosition c.position > 0 ∧ ∃ fuel found,
          m.plan fuel c.position src.cmp = some found ∧
          ((∃ plan, found = some plan ∧ plan.snapshot = none ∧
              c' = { c with pc := .draining plan.diffs }) ∨
            (∀ plan ∈ found, plan.snapshot ≠ none) ∧ c' = { c with pc := .rebaseline })) := by
  obtain ⟨pc, p⟩ := c
  obtain rfl : pc = .polling := hpc
  cases hmove with
  | load hpc _ | loadFailed hpc _ => rcases hpc with hpc | hpc <;> cases hpc
  | reconstructed hpc _ | empty hpc _ | reconstructFailed hpc _ => cases hpc
  | absent _ hm _ | streamFailed _ hm _ =>
    rw [hload] at hm
    cases hm
  | wait _ hm hhead _ =>
    obtain rfl := Except.ok.inj (hload.symm.trans hm)
    exact ⟨rfl, .inl ⟨hhead, rfl, .inl rfl⟩⟩
  | finish _ hm hhead _ =>
    obtain rfl := Except.ok.inj (hload.symm.trans hm)
    exact ⟨rfl, .inl ⟨hhead, rfl, .inr rfl⟩⟩
  | plan _ hm hhead hplan hnone =>
    obtain rfl := Except.ok.inj (hload.symm.trans hm)
    exact ⟨rfl, .inr ⟨hhead, _, _, hplan, .inl ⟨_, rfl, hnone, rfl⟩⟩⟩
  | rebase _ hm hhead hplan hsnap =>
    obtain rfl := Except.ok.inj (hload.symm.trans hm)
    exact ⟨rfl, .inr ⟨hhead, _, _, hplan, .inr ⟨hsnap, rfl⟩⟩⟩
  | read hpc _ | readFailed hpc _ | emit hpc | next hpc | drained hpc => cases hpc

def applyEvent (keyFields : List String) (rows : Store V) (ev : ChangeEvent String V) : Store V :=
  match ev.action with
  | .insert | .update => rows.insert (rowKey keyFields ev.newValues) (Row.orEmpty ev.newValues)
  | .delete => rows.erase (rowKey keyFields ev.oldValues)
  | .truncate => ∅

lemma applyEvent_toEvent {kf : List String} {ch : Change V} (h : ch.Filed kf)
    (table : TableIdentifier) (pos : String) (rows : Store V) :
    applyEvent kf rows (toEvent table ch pos) = ch.apply rows := by
  obtain ⟨action, key, old, new⟩ := ch
  cases action with
  | insert | update =>
    obtain rfl : key = rowKey kf new := h
    rfl
  | delete =>
    obtain rfl : key = rowKey kf old := h
    rfl
  | truncate => rfl

/-- The diffs lead from one position to another, each a step forward from where the one before
ends. -/
def Linked (c : Comparator String) : String → List Artifact → String → Prop
  | p, [], q => p = q
  | p, d :: ds, q => d.DiffFrom p ∧ c.Lt p d.toPosition ∧ Linked c d.toPosition ds q

section

variable {c : Comparator String} {p q r : String} {d : Artifact} {ds es : List Artifact}

omit [GoValue V]

lemma Linked.append (h : Linked c p ds q) (h' : Linked c q es r) : Linked c p (ds ++ es) r := by
  induction ds generalizing p with
  | nil =>
    obtain rfl : p = q := h
    exact h'
  | cons d ds ih => exact ⟨h.1, h.2.1, ih h.2.2⟩

def endOf (p : String) (ds : List Artifact) : String :=
  (ds.getLast?.map Artifact.toPosition).getD p

@[simp] lemma endOf_nil (p : String) : endOf p [] = p := rfl

@[simp] lemma endOf_snoc (p : String) (ds : List Artifact) (d : Artifact) :
    endOf p (ds ++ [d]) = d.toPosition := by
  simp [endOf]

lemma endOf_cons (p : String) (d : Artifact) (ds : List Artifact) :
    endOf p (d :: ds) = endOf d.toPosition ds := by
  unfold endOf
  cases ds with
  | nil => rfl
  | cons e ds => simp [getLast?_eq_some_getLast]

lemma Linked.split (h : Linked c p (ds ++ es) r) :
    Linked c p ds (endOf p ds) ∧ Linked c (endOf p ds) es r := by
  induction ds generalizing p with
  | nil => exact ⟨rfl, h⟩
  | cons d ds ih =>
    rw [endOf_cons]
    obtain ⟨hds, hes⟩ := ih h.2.2
    exact ⟨⟨h.1, h.2.1, hds⟩, hes⟩

lemma Linked.lt_of_mem (h : Linked c p ds q) (hd : d ∈ ds) : c.Lt p d.toPosition := by
  induction ds generalizing p with
  | nil => cases hd
  | cons e ds ih =>
    rcases mem_cons.mp hd with rfl | hd
    · exact h.2.1
    · exact h.2.1.trans (ih h.2.2 hd)

lemma Linked.le (h : Linked c p ds q) : c.Le p q := by
  induction ds generalizing p with
  | nil =>
    obtain rfl : p = q := h
    exact Comparator.Le.refl _ _
  | cons d ds ih => exact h.2.1.le.trans (ih h.2.2)

lemma Linked.nodup (h : Linked c p ds q) : ds.Nodup := by
  induction ds generalizing p with
  | nil => exact nodup_nil
  | cons d ds ih =>
    refine nodup_cons.mpr ⟨fun hd => ?_, ih h.2.2⟩
    exact (h.2.2.lt_of_mem hd).irrefl

lemma Linked.of_path {artifacts : List Artifact} (hseq : Sequential c artifacts)
    (hpath : Links.Path (fun p => (byFrom artifacts)[p]?) Artifact.toPosition p ds q) :
    Linked c p ds q ∧ ∀ d ∈ ds, d ∈ artifacts := by
  induction ds generalizing p with
  | nil => exact ⟨hpath, nofun⟩
  | cons d ds ih =>
    obtain ⟨hnext, hrest⟩ := hpath
    obtain ⟨l₁, l₂, hspl, hfrom, -⟩ := getElem?_byFrom_eq_some.mp hnext
    have hd : d ∈ artifacts := by simp [hspl]
    obtain ⟨hlnk, hall⟩ := ih hrest
    obtain ⟨p', hp', hlt⟩ := hseq.forward d hd hfrom.1
    obtain rfl : p = p' := Option.some.inj (hfrom.2.symm.trans hp'.2)
    refine ⟨⟨hfrom, hlt, hlnk⟩, fun e he => ?_⟩
    rcases mem_cons.mp he with rfl | he
    · exact hd
    · exact hall e he

end

end Laredo.Archive
