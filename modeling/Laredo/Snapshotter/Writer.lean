import Mathlib.Logic.Function.Basic
import Laredo.Snapshotter.Manifest

/-!
# Writer

The operations of the snapshot writer (`snapshotter/writer.go`,
`snapshotter/writer_manifest.go`) as functions on its state and on the destinations.
-/

namespace Laredo.Snapshotter

open List Function

variable {B V : Type}

structure Format (B V : Type) where
  formatID : String
  extension : String
  writeSnapshot : List (Row V) → Option B
  readSnapshot : B → Option (List (Row V))
  writeDiff : List (Change V) → Option B
  readDiff : B → Option (List (Change V))

structure TriggerState where
  sinceSnapshot : Int
  diffBytes : Nat
  churnRecords : Nat
  datasetSize : Nat
  lastSnapshotBytes : Nat

structure Config (B V : Type) where
  keyPrefix : String
  keyFields : List String
  destinations : List String
  snapshotFormats : List (Format B V)
  diffFormats : List (Format B V)
  keepEpochs : Int
  shouldSnapshot : TriggerState → Bool
  size : B → Nat
  destinations_ne : destinations ≠ []
  snapshotFormats_ne : snapshotFormats ≠ []
  diffFormats_ne : diffFormats ≠ []

/-- A destination. Every write of the manifest has a revision of its own. -/
structure Destination (B : Type) where
  objects : Std.ExtTreeMap String B
  manifest : Option Manifest
  rev : Nat

/-- The destinations by name. -/
abbrev Destinations (B : Type) := String → Destination B

def Destination.put (d : Destination B) (key : String) (data : B) : Destination B :=
  { d with objects := d.objects.insert key data }

def Destination.putManifest (d : Destination B) (m : Manifest) : Destination B :=
  { d with manifest := some m, rev := d.rev + 1 }

def call : Option Nat → Option (Option Nat)
  | none => some none
  | some 0 => none
  | some (n + 1) => some (some n)

/-- The loop of `putArtifact`: one encoded format goes to every destination. Returns the
calls that are left, or `none` if one has failed. -/
def putAll (key : String) (data : B) :
    List String → Option Nat → Destinations B → Destinations B × Option (Option Nat)
  | [], fault, st => (st, some fault)
  | d :: ds, fault, st =>
      match call fault with
      | none => (st, none)
      | some fault => putAll key data ds fault (Function.update st d ((st d).put key data))

def putFormats (cfg : Config B V) (art : Artifact) (encode : Format B V → Option B) :
    List (Format B V) → Option Nat → Destinations B → Destinations B × Option (Option Nat)
  | [], fault, st => (st, some fault)
  | f :: fs, fault, st =>
      match call fault with
      | none => (st, none)
      | some fault =>
          match encode f with
          | none => (st, none)
          | some data =>
              match putAll (artifactObjectKey cfg.keyPrefix art f.extension) data cfg.destinations
                  fault st with
              | (st, none) => (st, none)
              | (st, some fault) => putFormats cfg art encode fs fault st

/-- The loop of `commit`: the manifest goes to every destination whose revision is the one
the writer knows. -/
def putManifests (m : Manifest) : List String → Option Nat → (String → Nat) → Destinations B →
    Destinations B × (String → Nat) × Bool
  | [], _, revs, st => (st, revs, true)
  | d :: ds, fault, revs, st =>
      match call fault with
      | none => (st, revs, false)
      | some fault =>
          if (st d).rev = revs d then
            putManifests m ds fault (Function.update revs d ((st d).rev + 1))
              (Function.update st d ((st d).putManifest m))
          else (st, revs, false)

structure Writer (V : Type) where
  buffer : Buffer V
  churn : Nat
  epoch : Nat
  fromPos : String
  lastSnapshotAt : Int
  lastSnapshotBytes : Nat
  manifest : Manifest
  revs : String → Nat

def Writer.new : Writer V := ⟨∅, 0, 0, "", 0, 0, Manifest.empty, fun _ => 0⟩

def Writer.onChange [GoValue V] (cfg : Config B V) (w : Writer V) (old new : Option (Row V)) :
    Writer V :=
  { w with buffer := w.buffer.onChange cfg.keyFields old new, churn := w.churn + 1 }

/-- `loadManifest`: the manifest of the primary destination and every revision. -/
def Writer.loadManifest (cfg : Config B V) (w : Writer V) (st : Destinations B) : Writer V :=
  let w := { w with
    revs := fun d => if d ∈ cfg.destinations then (st d).rev else w.revs d }
  match (st (cfg.destinations.head cfg.destinations_ne)).manifest with
  | none => w
  | some m => { w with manifest := m, epoch := m.epoch, fromPos := m.headPosition }

def Manifest.add (keepEpochs : Int) (art : Artifact) (m : Manifest) : Manifest :=
  Manifest.prune keepEpochs
    { manifestVersion := currentManifestVersion
      epoch := match art.kind with
        | .snapshot => art.epoch
        | .diff => m.epoch
      headPosition := art.toPosition
      artifacts := m.artifacts ++ [art] }

/-- `commit(art)`: the writer's own manifest is changed before it is written anywhere. -/
def Writer.commit (cfg : Config B V) (art : Artifact) (fault : Option Nat) (w : Writer V)
    (st : Destinations B) : Destinations B × Writer V × Bool :=
  let m := w.manifest.add cfg.keepEpochs art
  match putManifests m cfg.destinations fault w.revs st with
  | (st, revs, ok) => (st, { w with manifest := m, revs := revs }, ok)

def snapshotArtifact (cfg : Config B V) (epoch : Nat) (pos : String) : Artifact :=
  ⟨.snapshot, epoch, none, pos, cfg.snapshotFormats.map Format.formatID⟩

def diffArtifact (cfg : Config B V) (epoch : Nat) (start upTo : String) : Artifact :=
  ⟨.diff, epoch, some start, upTo, cfg.diffFormats.map Format.formatID⟩

def Writer.discard (w : Writer V) : Writer V := { w with buffer := ∅, churn := 0 }

def Writer.finishSnapshot (cfg : Config B V) (epoch : Nat) (rows : List (Row V)) (pos : String)
    (now : Int) (fault : Option Nat) (w : Writer V) (st : Destinations B) :
    Destinations B × Writer V × Bool :=
  let art := snapshotArtifact cfg epoch pos
  match putFormats cfg art (·.writeSnapshot rows) cfg.snapshotFormats fault st with
  | (st, none) => (st, w, false)
  | (st, some fault) =>
      match w.commit cfg art fault st with
      | (st, w, false) => (st, w, false)
      | (st, w, true) =>
          let primary := (cfg.snapshotFormats.head cfg.snapshotFormats_ne).writeSnapshot rows
          (st, { w with
            epoch := epoch
            fromPos := pos
            lastSnapshotAt := now
            lastSnapshotBytes := (primary.map cfg.size).getD 0 }, true)

structure Drained (V : Type) where
  buffer : Buffer V
  changes : List (Change V)
  churn : Nat
  start : String
  lastSnapBytes : Nat
  since : Int
  epoch : Nat

def Writer.drain (w : Writer V) (changes : List (Change V)) (now : Int) : Drained V × Writer V :=
  (⟨w.buffer, changes, w.churn, w.fromPos, w.lastSnapshotBytes, now - w.lastSnapshotAt, w.epoch⟩,
    { w with buffer := ∅ })

inductive Outcome
  | done
  | failed
  | rebase
  deriving DecidableEq, Repr

/-- The rest of `flush`, once the subscription's position has been read; `count` is its number
of rows. -/
def Writer.finishFlush (cfg : Config B V) (d : Drained V) (upTo : String) (count : Nat)
    (fault : Option Nat) (w : Writer V) (st : Destinations B) :
    Destinations B × Writer V × Outcome :=
  let primary := cfg.diffFormats.head cfg.diffFormats_ne
  let failed (st : Destinations B) (w : Writer V) : Destinations B × Writer V × Outcome :=
    (st, { w with buffer := w.buffer.remerge d.buffer }, .failed)
  match call fault with
  | none => failed st w
  | some fault =>
      match primary.writeDiff d.changes with
      | none => failed st w
      | some data =>
          if cfg.shouldSnapshot ⟨d.since, cfg.size data, d.churn, count, d.lastSnapBytes⟩ then
            (st, w.discard, .rebase)
          else
            let art := diffArtifact cfg d.epoch d.start upTo
            match putAll (artifactObjectKey cfg.keyPrefix art primary.extension) data
                cfg.destinations fault st with
            | (st, none) => failed st w
            | (st, some fault) =>
                match putFormats cfg art (·.writeDiff d.changes) cfg.diffFormats.tail fault st with
                | (st, none) => failed st w
                | (st, some fault) =>
                    match w.commit cfg art fault st with
                    | (st, w, false) => failed st w
                    | (st, w, true) => (st, { w with fromPos := upTo }, .done)

structure Written (objs : String → B → Prop) (st st' : Destinations B) : Prop where
  manifest : ∀ d, (st' d).manifest = (st d).manifest
  objects : ∀ d (k : String), (st' d).objects[k]? = (st d).objects[k]? ∨
    ∃ data, objs k data ∧ (st' d).objects[k]? = some data

structure Published (m : Manifest) (st st' : Destinations B) : Prop where
  manifest : ∀ d, (st' d).manifest = (st d).manifest ∨ (st' d).manifest = some m
  objects : ∀ d, (st' d).objects = (st d).objects

/-- Every destination has, for each of the keys, one of the objects `objs`. -/
def Complete (ds keys : List String) (objs : String → B → Prop) (st : Destinations B) : Prop :=
  ∀ d ∈ ds, ∀ k ∈ keys, ∃ data, objs k data ∧ (st d).objects[k]? = some data

section

variable {objs : String → B → Prop} {st st' st'' : Destinations B}

lemma Written.refl (objs : String → B → Prop) (st : Destinations B) : Written objs st st :=
  ⟨fun _ => rfl, fun _ _ => .inl rfl⟩

lemma Written.trans (h : Written objs st st') (h' : Written objs st' st'') :
    Written objs st st'' := by
  refine ⟨fun d => (h'.manifest d).trans (h.manifest d), fun d k => ?_⟩
  rcases h'.objects d k with hsame | hnew
  · rw [hsame]
    exact h.objects d k
  · exact .inr hnew

lemma Written.complete (h : Written objs st st') {ds keys : List String}
    (hc : Complete ds keys objs st) : Complete ds keys objs st' := by
  intro d hd k hk
  rcases h.objects d k with hsame | hnew
  · rw [hsame]
    exact hc d hd k hk
  · exact hnew

lemma Published.refl (m : Manifest) (st : Destinations B) : Published m st st :=
  ⟨fun _ => .inl rfl, fun _ => rfl⟩

lemma Published.trans {m : Manifest} (h : Published m st st') (h' : Published m st' st'') :
    Published m st st'' := by
  refine ⟨fun d => ?_, fun d => (h'.objects d).trans (h.objects d)⟩
  rcases h'.manifest d with hsame | hnew
  · rw [hsame]
    exact h.manifest d
  · exact .inr hnew

lemma Written.put {key : String} {data : B} (hobj : objs key data) (st : Destinations B)
    (d : String) : Written objs st (Function.update st d ((st d).put key data)) := by
  refine ⟨fun d' => ?_, fun d' k => ?_⟩
  · by_cases hd : d' = d
    · subst hd
      rw [update_self]
      rfl
    · rw [update_of_ne hd]
  · by_cases hd : d' = d
    · subst hd
      rw [update_self]
      show ((st d').objects.insert key data)[k]? = _ ∨ _
      by_cases hk : key = k
      · subst hk
        exact .inr ⟨data, hobj, by simp [Destination.put]⟩
      · exact .inl (by simp [Std.ExtTreeMap.getElem?_insert, hk])
    · rw [update_of_ne hd]
      exact .inl rfl

lemma putAll_spec {key : String} {data : B} (hobj : objs key data) (ds : List String)
    (fault : Option Nat) (st : Destinations B) :
    Written objs st (putAll key data ds fault st).1 ∧ ((putAll key data ds fault st).2 ≠ none →
        Complete ds [key] objs (putAll key data ds fault st).1) := by
  induction ds generalizing fault st with
  | nil => exact ⟨Written.refl objs st, fun _ => nofun⟩
  | cons d ds ih =>
    unfold putAll
    cases call fault with
    | none => exact ⟨Written.refl objs st, fun h => absurd rfl h⟩
    | some fault =>
      have hput := Written.put hobj st d
      obtain ⟨hwrt, hcpl⟩ := ih fault (Function.update st d ((st d).put key data))
      refine ⟨hput.trans hwrt, fun hok => ?_⟩
      have hhere : Complete [d] [key] objs (Function.update st d ((st d).put key data)) := by
        intro d' hd' k hk
        obtain rfl := mem_singleton.mp hd'
        obtain rfl := mem_singleton.mp hk
        refine ⟨data, hobj, ?_⟩
        rw [update_self]
        simp [Destination.put]
      intro d' hd' k hk
      rcases mem_cons.mp hd' with rfl | hd'
      · exact hwrt.complete hhere d' mem_cons_self k hk
      · exact hcpl hok d' hd' k hk

lemma putManifests_spec (m : Manifest) (ds : List String) (fault : Option Nat)
    (revs : String → Nat) (st : Destinations B) :
    Published m st (putManifests m ds fault revs st).1 ∧
      ((putManifests m ds fault revs st).2.2 = true →
        ∀ d ∈ ds, ((putManifests m ds fault revs st).1 d).manifest = some m) := by
  induction ds generalizing fault revs st with
  | nil => exact ⟨Published.refl m st, fun _ => nofun⟩
  | cons d ds ih =>
    unfold putManifests
    cases call fault with
    | none => exact ⟨Published.refl m st, nofun⟩
    | some fault =>
      by_cases hrev : (st d).rev = revs d
      · simp only [hrev, if_true]
        have hput : Published m st (Function.update st d ((st d).putManifest m)) := by
          refine ⟨fun d' => ?_, fun d' => ?_⟩
          · by_cases hd : d' = d
            · subst hd
              rw [update_self]
              exact .inr rfl
            · rw [update_of_ne hd]
              exact .inl rfl
          · by_cases hd : d' = d
            · subst hd
              rw [update_self]
              rfl
            · rw [update_of_ne hd]
        obtain ⟨hrest, hall⟩ := ih fault (Function.update revs d (revs d + 1))
          (Function.update st d ((st d).putManifest m))
        refine ⟨hput.trans hrest, fun hok d' hd' => ?_⟩
        rcases mem_cons.mp hd' with rfl | hd'
        · rcases hrest.manifest d' with hsame | hnew
          · rw [hsame, update_self]
            rfl
          · exact hnew
        · exact hall hok d' hd'
      · simp only [hrev, if_false]
        exact ⟨Published.refl m st, nofun⟩

end

def Encodes (cfg : Config B V) (art : Artifact) (encode : Format B V → Option B)
    (formats : List (Format B V)) (k : String) (data : B) : Prop :=
  ∃ f ∈ formats, encode f = some data ∧ artifactObjectKey cfg.keyPrefix art f.extension = k

def objectKeys (cfg : Config B V) (art : Artifact) (formats : List (Format B V)) : List String :=
  formats.map fun f => artifactObjectKey cfg.keyPrefix art f.extension

section

variable {cfg : Config B V} {art : Artifact} {encode : Format B V → Option B}
variable {formats : List (Format B V)}

lemma putFormats_spec (cfg : Config B V) (art : Artifact) (encode : Format B V → Option B)
    (formats fs : List (Format B V)) (hfs : ∀ f ∈ fs, f ∈ formats) (fault : Option Nat)
    (st : Destinations B) :
    Written (Encodes cfg art encode formats) st (putFormats cfg art encode fs fault st).1 ∧
      ((putFormats cfg art encode fs fault st).2 ≠ none →
        Complete cfg.destinations (objectKeys cfg art fs) (Encodes cfg art encode formats)
          (putFormats cfg art encode fs fault st).1) := by
  induction fs generalizing fault st with
  | nil => exact ⟨Written.refl _ st, fun _ _ _ => nofun⟩
  | cons f fs ih =>
    unfold putFormats
    cases call fault with
    | none => exact ⟨Written.refl _ st, fun h => absurd rfl h⟩
    | some fault =>
      cases hdata : encode f with
      | none => exact ⟨Written.refl _ st, fun h => absurd rfl h⟩
      | some data =>
        have hobj : Encodes cfg art encode formats
            (artifactObjectKey cfg.keyPrefix art f.extension) data :=
          ⟨f, hfs f mem_cons_self, hdata, rfl⟩
        have hput := putAll_spec hobj cfg.destinations fault st
        cases hres : putAll (artifactObjectKey cfg.keyPrefix art f.extension) data
            cfg.destinations fault st with
        | mk st₁ left =>
          rw [hres] at hput
          simp only [hres]
          cases left with
          | none => exact ⟨hput.1, fun h => absurd rfl h⟩
          | some fault =>
            obtain ⟨hwrt, hcpl⟩ := ih (fun g hg => hfs g (mem_cons_of_mem _ hg)) fault st₁
            refine ⟨hput.1.trans hwrt, fun hok d hd k hk => ?_⟩
            rcases mem_cons.mp hk with rfl | hk
            · exact hwrt.complete (hput.2 nofun) d hd _ mem_cons_self
            · exact hcpl hok d hd k hk

inductive Attempt (cfg : Config B V) (art : Artifact) (encode : Format B V → Option B)
    (formats : List (Format B V)) (w : Writer V) (st : Destinations B) :
    Destinations B → Writer V → Bool → Prop
  | notPut {st' : Destinations B} (hw : Written (Encodes cfg art encode formats) st st') :
      Attempt cfg art encode formats w st st' w false
  | put {st₁ st' : Destinations B} {revs : String → Nat} {ok : Bool}
      (hw : Written (Encodes cfg art encode formats) st st₁)
      (hc : Complete cfg.destinations (objectKeys cfg art formats)
        (Encodes cfg art encode formats) st₁)
      (hp : Published (w.manifest.add cfg.keepEpochs art) st₁ st')
      (hok : ok = true → ∀ d ∈ cfg.destinations,
        (st' d).manifest = some (w.manifest.add cfg.keepEpochs art)) :
      Attempt cfg art encode formats w st st'
        { w with manifest := w.manifest.add cfg.keepEpochs art, revs := revs } ok

variable {st st' : Destinations B} {w w' : Writer V} {ok : Bool}

section

variable (h : Attempt cfg art encode formats w st st' w' ok)
include h

lemma Attempt.manifests :
    (w'.manifest = w.manifest ∨ w'.manifest = w.manifest.add cfg.keepEpochs art) ∧
      ∀ d, (st' d).manifest = (st d).manifest ∨
        (st' d).manifest = some (w.manifest.add cfg.keepEpochs art) := by
  cases h with
  | notPut hw => exact ⟨.inl rfl, fun d => .inl (hw.manifest d)⟩
  | put hw _ hp _ =>
    refine ⟨.inr rfl, fun d => ?_⟩
    rw [← hw.manifest d]
    exact hp.manifest d

lemma Attempt.manifests_all {P Q : Manifest → Prop} (hQ : ∀ m, Q m → P m) (hhl : P w.manifest)
    (hstd : ∀ n m, (st n).manifest = some m → Q m) (hadd : Q (w.manifest.add cfg.keepEpochs art)) :
    P w'.manifest ∧ ∀ n m, (st' n).manifest = some m → Q m := by
  obtain ⟨hhl', hstd'⟩ := h.manifests
  refine ⟨?_, fun n m hm => ?_⟩
  · rcases hhl' with hsame | hnew
    · rw [hsame]
      exact hhl
    · rw [hnew]
      exact hQ _ hadd
  · rcases hstd' n with hsame | hnew
    · exact hstd n m (hsame ▸ hm)
    · rw [hnew] at hm
      rw [← Option.some.inj hm]
      exact hadd

lemma Attempt.buffer_eq : w'.buffer = w.buffer := by
  cases h with
  | notPut _ => rfl
  | put _ _ _ _ => rfl

lemma Attempt.fromPos_eq : w'.fromPos = w.fromPos ∧ w'.epoch = w.epoch := by
  cases h with
  | notPut _ | put _ _ _ _ => exact ⟨rfl, rfl⟩

end

lemma Attempt.of_commit {st₁ : Destinations B} (w : Writer V)
    (hw : Written (Encodes cfg art encode formats) st st₁)
    (hc : Complete cfg.destinations (objectKeys cfg art formats)
      (Encodes cfg art encode formats) st₁) (fault : Option Nat) :
    Attempt cfg art encode formats w st (w.commit cfg art fault st₁).1
      (w.commit cfg art fault st₁).2.1 (w.commit cfg art fault st₁).2.2 := by
  obtain ⟨hp, hok⟩ := putManifests_spec (w.manifest.add cfg.keepEpochs art) cfg.destinations
    fault w.revs st₁
  exact .put hw hc hp hok

end

lemma Writer.loadManifest_all {P : Manifest → Prop} (cfg : Config B V) {st : Destinations B}
    (hemp : P Manifest.empty)
    (hstd : ∀ n ∈ cfg.destinations, ∀ m, (st n).manifest = some m → P m) :
    P (Writer.new.loadManifest cfg st : Writer V).manifest := by
  unfold Writer.loadManifest
  cases hprimary : (st (cfg.destinations.head cfg.destinations_ne)).manifest with
  | none => exact hemp
  | some m => exact hstd _ (head_mem _) m hprimary

def Config.primary (cfg : Config B V) : String := cfg.destinations.head cfg.destinations_ne

lemma Config.primary_mem (cfg : Config B V) : cfg.primary ∈ cfg.destinations :=
  head_mem cfg.destinations_ne

lemma putManifests_first (m : Manifest) (p : String) (ds : List String) (fault : Option Nat)
    (revs : String → Nat) (st : Destinations B) :
    (∀ n, ((putManifests m (p :: ds) fault revs st).1 n).manifest = (st n).manifest) ∨
      ((putManifests m (p :: ds) fault revs st).1 p).manifest = some m := by
  unfold putManifests
  cases call fault with
  | none => exact .inl fun _ => rfl
  | some fault =>
    by_cases hrev : (st p).rev = revs p
    · simp only [hrev, if_true]
      have hrest := (putManifests_spec m ds fault (Function.update revs p (revs p + 1))
        (Function.update st p ((st p).putManifest m))).1.manifest p
      refine .inr (hrest.elim (fun hsame => ?_) id)
      rw [hsame, update_self]
      rfl
    · simp only [hrev, if_false]
      exact .inl fun _ => trivial

def PrimaryFirst (cfg : Config B V) (m : Manifest) (st st' : Destinations B) : Prop :=
  (∀ n, (st' n).manifest = (st n).manifest) ∨ (st' cfg.primary).manifest = some m

lemma Writer.commit_first (cfg : Config B V) (art : Artifact) (fault : Option Nat) (w : Writer V)
    (st : Destinations B) :
    PrimaryFirst cfg (w.manifest.add cfg.keepEpochs art) st (w.commit cfg art fault st).1 := by
  have hfst := putManifests_first (w.manifest.add cfg.keepEpochs art) cfg.primary
    cfg.destinations.tail fault w.revs st
  unfold Config.primary at hfst
  rw [cons_head_tail] at hfst
  exact hfst

lemma PrimaryFirst.of_written {cfg : Config B V} {m : Manifest} {objs : String → B → Prop}
    {st st₁ st' : Destinations B} (hw : Written objs st st₁) (h : PrimaryFirst cfg m st₁ st') :
    PrimaryFirst cfg m st st' :=
  h.imp_left fun hsame n => (hsame n).trans (hw.manifest n)

def Tries (cfg : Config B V) (art : Artifact) (encode : Format B V → Option B)
    (formats : List (Format B V)) (w : Writer V) (st st' : Destinations B) (w' : Writer V)
    (ok : Bool) : Prop :=
  Attempt cfg art encode formats w st st' w' ok ∧
    PrimaryFirst cfg (w.manifest.add cfg.keepEpochs art) st st'

section

variable {cfg : Config B V} {art : Artifact} {encode : Format B V → Option B}
variable {formats : List (Format B V)} {st st₁ : Destinations B} {w : Writer V}

lemma Tries.notPut (hw : Written (Encodes cfg art encode formats) st st₁) :
    Tries cfg art encode formats w st st₁ w false := ⟨.notPut hw, .inl hw.manifest⟩

lemma Tries.of_commit (w : Writer V) (hw : Written (Encodes cfg art encode formats) st st₁)
    (hc : Complete cfg.destinations (objectKeys cfg art formats)
      (Encodes cfg art encode formats) st₁) (fault : Option Nat) :
    Tries cfg art encode formats w st (w.commit cfg art fault st₁).1
      (w.commit cfg art fault st₁).2.1 (w.commit cfg art fault st₁).2.2 :=
  ⟨.of_commit w hw hc fault, (w.commit_first cfg art fault st₁).of_written hw⟩

end

lemma Writer.finishSnapshot_spec (cfg : Config B V) (epoch : Nat) (rows : List (Row V))
    (pos : String) (now : Int) (fault : Option Nat) (w : Writer V) (st : Destinations B) :
    ∃ st' w' ok bytes, Tries cfg (snapshotArtifact cfg epoch pos) (·.writeSnapshot rows)
        cfg.snapshotFormats w st st' w' ok ∧
      w.finishSnapshot cfg epoch rows pos now fault st = (st', (if ok = true then { w' with
          epoch := epoch
          fromPos := pos
          lastSnapshotAt := now
          lastSnapshotBytes := bytes } else w'), ok) := by
  unfold Writer.finishSnapshot
  have hput := putFormats_spec cfg (snapshotArtifact cfg epoch pos) (·.writeSnapshot rows)
    cfg.snapshotFormats cfg.snapshotFormats (fun f hf => hf) fault st
  dsimp only
  generalize putFormats cfg (snapshotArtifact cfg epoch pos) (·.writeSnapshot rows)
    cfg.snapshotFormats fault st = r at hput ⊢
  obtain ⟨st₁, left⟩ := r
  cases left with
  | none => exact ⟨st₁, w, false, 0, .notPut hput.1, rfl⟩
  | some fault =>
    have hatt := Tries.of_commit w hput.1 (hput.2 nofun) fault
    dsimp only
    generalize w.commit cfg (snapshotArtifact cfg epoch pos) fault st₁ = r at hatt ⊢
    obtain ⟨st', w', ok⟩ := r
    cases ok with
    | false => exact ⟨st', w', false, 0, hatt, rfl⟩
    | true => exact ⟨st', w', true, _, hatt, rfl⟩

lemma Writer.finishFlush_spec (cfg : Config B V) (d : Drained V) (upTo : String) (count : Nat)
    (fault : Option Nat) (w : Writer V) (st : Destinations B) :
    w.finishFlush cfg d upTo count fault st = (st, w.discard, .rebase) ∨
    ∃ st' w' ok, Tries cfg (diffArtifact cfg d.epoch d.start upTo) (·.writeDiff d.changes)
        cfg.diffFormats w st st' w' ok ∧
      w.finishFlush cfg d upTo count fault st =
        if ok = true then (st', { w' with fromPos := upTo }, .done)
        else (st', { w' with buffer := w'.buffer.remerge d.buffer }, .failed) := by
  unfold Writer.finishFlush
  dsimp only
  have hfail : ∀ st', Written _ st st' → Tries cfg (diffArtifact cfg d.epoch d.start upTo)
      (·.writeDiff d.changes) cfg.diffFormats w st st' w false := fun st' h => .notPut h
  cases call fault with
  | none => exact .inr ⟨st, w, false, hfail st (Written.refl _ st), rfl⟩
  | some fault =>
    cases hdata : (cfg.diffFormats.head cfg.diffFormats_ne).writeDiff d.changes with
    | none => exact .inr ⟨st, w, false, hfail st (Written.refl _ st), rfl⟩
    | some data =>
      dsimp only
      by_cases hsnap : cfg.shouldSnapshot
          ⟨d.since, cfg.size data, d.churn, count, d.lastSnapBytes⟩ = true
      · rw [if_pos hsnap]
        exact .inl rfl
      · rw [if_neg hsnap]
        refine .inr ?_
        -- the primary format, then the others
        have hobj : Encodes cfg (diffArtifact cfg d.epoch d.start upTo) (·.writeDiff d.changes)
            cfg.diffFormats _ data := ⟨_, head_mem cfg.diffFormats_ne, hdata, rfl⟩
        have hfst := putAll_spec hobj cfg.destinations fault st
        generalize putAll _ data cfg.destinations fault st = r at hfst ⊢
        obtain ⟨st₁, left⟩ := r
        cases left with
        | none => exact ⟨st₁, w, false, hfail st₁ hfst.1, rfl⟩
        | some fault =>
          have hrest := putFormats_spec cfg (diffArtifact cfg d.epoch d.start upTo)
            (·.writeDiff d.changes) cfg.diffFormats cfg.diffFormats.tail
            (fun f hf => mem_of_mem_tail hf) fault st₁
          dsimp only
          generalize putFormats cfg _ (·.writeDiff d.changes) cfg.diffFormats.tail fault
            st₁ = r at hrest ⊢
          obtain ⟨st₂, left⟩ := r
          have hw := hfst.1.trans hrest.1
          cases left with
          | none => exact ⟨st₂, w, false, hfail st₂ hw, rfl⟩
          | some fault =>
            have hc := hrest.1.complete (hfst.2 nofun)
            have hatt := Tries.of_commit w hw (fun n hn k hk => by
              rw [objectKeys, ← cons_head_tail cfg.diffFormats_ne, map_cons] at hk
              rcases mem_cons.mp hk with rfl | hk
              · exact hc n hn _ mem_cons_self
              · exact hrest.2 nofun n hn k hk) fault
            dsimp only
            generalize w.commit cfg _ fault st₂ = r at hatt ⊢
            obtain ⟨st', w', ok⟩ := r
            cases ok with
            | false => exact ⟨st', w', false, hatt, rfl⟩
            | true => exact ⟨st', w', true, hatt, rfl⟩

end Laredo.Snapshotter
