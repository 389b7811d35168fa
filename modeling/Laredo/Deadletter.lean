import Laredo.Snapshot.Store

/-!
# Dead letters

The stores of failed changes (`deadletter/`): what `Read` makes of what `Write` has written, and
what `Replay` calls on a target.
-/

namespace Laredo.Deadletter

open List

open SnapshotStore (unmarshalText)

variable {E V : Type}

@[ext] structure Letter (V : Type) where
  table : TableIdentifier
  action : ChangeAction
  newValues : Option (Row V)
  oldValues : Option (Row V)
  message : String

inductive Call (V : Type)
  | onInsert (table : TableIdentifier) (new : Option (Row V))
  | onUpdate (table : TableIdentifier) (new old : Option (Row V))
  | onDelete (table : TableIdentifier) (old : Option (Row V))
  | onTruncate (table : TableIdentifier)

def Letter.call (l : Letter V) : Call V :=
  match l.action with
  | .insert => .onInsert l.table l.newValues
  | .update => .onUpdate l.table l.newValues l.oldValues
  | .delete => .onDelete l.table l.oldValues
  | .truncate => .onTruncate l.table

/-- The loop of `Replay`, which ends at the first error of the target. -/
def replay {σ : Type} (target : σ → Call V → σ × Option String) (s : σ) :
    List (Call V) → σ × Option String
  | [] => (s, none)
  | c :: cs =>
      match target s c with
      | (s', none) => replay target s' cs
      | (s', some err) => (s', some err)

/-- What `json.Marshal` writes for a value of type `error`. -/
inductive ErrorDoc
  | null
  | value
  deriving DecidableEq

structure Line (V : Type) where
  table : String
  letter : Letter V
  err : ErrorDoc

/-- `json.Unmarshal(line, &entry)`. Only `null` decodes into an interface with methods. -/
def Line.unmarshal (line : Line V) : Option (Letter V) :=
  match line.err, unmarshalText line.table with
  | .null, .ok table => some { line.letter with table := table }
  | _, _ => none

structure Failure (E V : Type) where
  pipelineID : String
  letter : Letter V
  err : E

namespace LocalStore

variable (marshal : E → ErrorDoc)

def write (files : String → List (Line V)) (f : Failure E V) : String → List (Line V) :=
  Function.update files f.pipelineID
    (files f.pipelineID ++ [⟨f.letter.table.text, f.letter, marshal f.err⟩])

def read (files : String → List (Line V)) (pipelineID : String) (limit : Int) : List (Letter V) :=
  let entries := (files pipelineID).filterMap Line.unmarshal
  if 0 < limit then entries.take limit.toNat else entries

def given (failures : List (Failure E V)) (pipelineID : String) : List (Failure E V) :=
  failures.filter fun f => f.pipelineID = pipelineID

lemma foldl_write (failures : List (Failure E V)) (files : String → List (Line V)) (pid : String) :
    failures.foldl (write marshal) files pid = files pid ++ (given failures pid).map
      fun f => ⟨f.letter.table.text, f.letter, marshal f.err⟩ := by
  induction failures generalizing files with
  | nil => simp [given]
  | cons f failures ih =>
    rw [foldl_cons, ih, given, given, filter_cons]
    by_cases hpid : f.pipelineID = pid
    · simp [write, hpid]
    · simp [write, hpid, Function.update_of_ne (Ne.symm hpid)]

end LocalStore

lemma filterMap_eq_map_iff {α β : Type} {f : α → Option β} {g : α → β} {xs : List α} :
    xs.filterMap f = xs.map g ↔ ∀ x ∈ xs, f x = some (g x) := by
  induction xs with
  | nil => simp
  | cons x xs ih =>
    cases hx : f x with
    | none =>
      have hlen := length_filterMap_le f xs
      constructor
      · intro h
        have heq := congrArg List.length h
        rw [filterMap_cons_none hx, length_map, length_cons] at heq
        omega
      · intro h
        simp [hx] at h
    | some y => simp [filterMap_cons_some hx, hx, ih]

/-- **Reading local dead letters.** For every sequence of failures and every pipeline: all letters
are read, in order, and replayed, if and only if every error value is written as `null` and the
name of every table reads back as that table. -/
theorem local_letters_read_iff (marshal : E → ErrorDoc) (failures : List (Failure E V))
    (pipelineID : String) :
    let letters := (LocalStore.given failures pipelineID).map (·.letter)
    let entries := LocalStore.read (failures.foldl (LocalStore.write marshal) fun _ => [])
      pipelineID 0
    (entries = letters ∧ ∀ (σ : Type) (target : σ → Call V → σ × Option String) (s : σ),
      replay target s (entries.map (·.call)) = replay target s (letters.map (·.call))) ↔
    ∀ f ∈ LocalStore.given failures pipelineID, marshal f.err = .null ∧
      unmarshalText f.letter.table.text = .ok f.letter.table := by
  intro letters entries
  have hread : entries = (LocalStore.given failures pipelineID).filterMap
      fun f => Line.unmarshal ⟨f.letter.table.text, f.letter, marshal f.err⟩ := by
    simp [entries, LocalStore.read, LocalStore.foldl_write]
  have hline : ∀ f : Failure E V, Line.unmarshal ⟨f.letter.table.text, f.letter, marshal f.err⟩ =
      some f.letter ↔ marshal f.err = .null ∧
        unmarshalText f.letter.table.text = .ok f.letter.table := by
    intro f
    unfold Line.unmarshal
    cases marshal f.err <;> cases unmarshalText f.letter.table.text <;> simp [Letter.ext_iff]
  rw [and_iff_left_of_imp fun h _ _ _ => by rw [h], hread, filterMap_eq_map_iff]
  exact forall₂_congr fun f _ => hline f

/-- An insert that failed with an `errors.New`. -/
theorem written_letter_is_skipped : let letter : Letter Text :=
      ⟨⟨"public", "accounts"⟩, .insert, some (.ofList [("id", some "1")]), none, "timeout"⟩
    let files := LocalStore.write (fun _ : Unit => .value) (fun _ => []) ⟨"p", letter, ()⟩
    (files "p").length = 1 ∧ LocalStore.read files "p" 0 = [] :=
  ⟨rfl, rfl⟩

structure S3Line (V : Type) where
  error : String
  newValues : Option (Row V)
  oldValues : Option (Row V)

/-- The entry `Read` makes of a line: the table and the action are not set. -/
def S3Line.letter (line : S3Line V) : Letter V :=
  ⟨⟨"", ""⟩, .insert, line.newValues, line.oldValues, line.error⟩

namespace S3Store

/-- The `s3Entry` of a letter; `omitempty` drops empty rows. -/
def line (l : Letter V) : S3Line V :=
  ⟨l.message, l.newValues.filter fun r => !r.isEmpty, l.oldValues.filter fun r => !r.isEmpty⟩

inductive Fetched
  | all
  | failed (lines : Nat) (part : Bool)

/-- `Write`, which does not look at the error of `readRaw`. A line after a part of another one does
not decode (`none`). -/
def write (lines : List (Option (S3Line V))) (w : Letter V × Fetched) :
    List (Option (S3Line V)) :=
  match w.2 with
  | .all => lines ++ [some (line w.1)]
  | .failed n part => lines.take n ++ [if part ∧ n < lines.length then none else some (line w.1)]

def read (lines : List (Option (S3Line V))) (fails : Bool) : List (Letter V) :=
  if fails then [] else (lines.filterMap id).map S3Line.letter

def calls (entries : List (Letter V)) : List (Call V) :=
  entries.map fun e => .onInsert ⟨"", ""⟩ e.newValues

lemma letter_line_iff (l : Letter V) : S3Line.letter (line l) = l ↔ l.table = ⟨"", ""⟩ ∧
    l.action = .insert ∧ l.newValues ≠ some ∅ ∧ l.oldValues ≠ some ∅ := by
  have homit : ∀ row : Option (Row V), row.filter (fun r => !r.isEmpty) = row ↔ row ≠ some ∅ := by
    intro row
    cases row <;> simp [Option.filter]
  rw [← homit, ← homit, Letter.ext_iff]
  simp only [S3Line.letter, line, eq_comm]
  tauto

def Fetched.Covers : Fetched → Nat → Prop
  | .all, _ => True
  | .failed lines _, n => n ≤ lines

def Covered (ws : List (Letter V × Fetched)) : Prop :=
  ∀ (i : Nat) (w : Letter V × Fetched), ws[i]? = some w → w.2.Covers i

lemma covered_snoc {ws : List (Letter V × Fetched)} {w : Letter V × Fetched} :
    Covered (ws ++ [w]) ↔ Covered ws ∧ w.2.Covers ws.length := by
  constructor
  · intro h
    refine ⟨fun i v hv => h i v ?_, h _ w (by simp)⟩
    rw [getElem?_append_left (List.getElem?_eq_some_iff.1 hv).1, hv]
  · rintro ⟨h, hw⟩ i v hv
    rcases Nat.lt_trichotomy i ws.length with hlt | rfl | hgt
    · exact h i v (by rwa [getElem?_append_left hlt] at hv)
    · simp only [getElem?_concat_length, Option.some.injEq] at hv
      exact hv ▸ hw
    · have hlen : (ws ++ [w]).length ≤ i := by simpa using Nat.succ_le_of_lt hgt
      rw [List.getElem?_eq_none hlen] at hv
      cases hv

lemma foldl_write_of_covered {ws : List (Letter V × Fetched)} (h : Covered ws) :
    ws.foldl write [] = ws.map fun w => some (line w.1) := by
  induction ws using List.reverseRecOn with
  | nil => rfl
  | append_singleton ws w ih =>
    obtain ⟨hws, hw⟩ := covered_snoc.1 h
    rw [foldl_append, map_append, ih hws]
    cases hgot : w.2 with
    | all => simp [write, hgot]
    | failed n part =>
      have hn : ws.length ≤ n := by simpa [hgot, Fetched.Covers] using hw
      simp [write, hgot, take_of_length_le, hn, Nat.not_lt.2 hn]

lemma readable_write_le (lines : List (Option (S3Line V))) (w : Letter V × Fetched) :
    ((write lines w).filterMap id).length ≤ (lines.filterMap id).length + 1 := by
  have htake : ∀ n, ((lines.take n).filterMap id).length ≤ (lines.filterMap id).length :=
    fun n => ((take_sublist n lines).filterMap id).length_le
  cases hgot : w.2 with
  | all => simp [write, hgot]
  | failed n part =>
    have hn := htake n
    simp only [write, hgot, filterMap_append, length_append]
    refine Nat.add_le_add hn ?_
    split <;> simp

lemma covered_of_readable {ws : List (Letter V × Fetched)} :
    ((ws.foldl write []).filterMap id).length ≤ ws.length ∧
      (((ws.foldl write []).filterMap id).length = ws.length → Covered ws) := by
  induction ws using List.reverseRecOn with
  | nil => exact ⟨Nat.le_refl 0, fun _ i w hw => by simp at hw⟩
  | append_singleton ws w ih =>
    obtain ⟨hle, heq⟩ := ih
    have hstep := readable_write_le (ws.foldl write []) w
    simp only [foldl_append, foldl_cons, foldl_nil, length_append, length_singleton]
    refine ⟨Nat.le_trans hstep (Nat.succ_le_succ hle), fun hlen => ?_⟩
    have hws := heq (by omega)
    refine covered_snoc.2 ⟨hws, ?_⟩
    rw [foldl_write_of_covered hws] at hlen
    cases hgot : w.2 with
    | all => trivial
    | failed n part =>
      have hn := length_filterMap_le id ((ws.map fun w => some (line w.1)).take n)
      have hlast := length_filterMap_le id
        [if part ∧ n < (ws.map fun w => some (line w.1)).length then none else some (line w.1)]
      rw [length_take] at hn
      simp only [write, hgot, filterMap_append, length_append] at hlen
      simp only [length_singleton] at hlast
      show ws.length ≤ n
      omega

end S3Store

/-- **The S3 store and the in-memory store** read and replay the same if and only if every write
fetches all lines before it, the last read does not fail, and every letter is an insert into the
table without a name whose rows are not empty. -/
theorem s3_replay_iff (ws : List (Letter V × S3Store.Fetched)) (fails : Bool) :
    let entries := S3Store.read (ws.foldl S3Store.write []) fails
    (entries = ws.map Prod.fst ∧ ∀ (σ : Type) (target : σ → Call V → σ × Option String) (s : σ),
      replay target s (S3Store.calls entries) = replay target s (ws.map (·.1.call))) ↔
    S3Store.Covered ws ∧ (ws ≠ [] → fails = false) ∧
      ∀ w ∈ ws, w.1.table = ⟨"", ""⟩ ∧ w.1.action = .insert ∧ w.1.newValues ≠ some ∅ ∧
        w.1.oldValues ≠ some ∅ := by
  intro entries
  have hread : S3Store.Covered ws → fails = false →
      entries = ws.map fun w => (S3Store.line w.1).letter := by
    rintro hws rfl
    simp [entries, S3Store.read, S3Store.foldl_write_of_covered hws]
  constructor
  · rintro ⟨heq, -⟩
    cases ws with
    | nil => exact ⟨fun i w hw => by simp at hw, by simp, by simp⟩
    | cons w ws =>
      have hfails : fails = false := by
        cases fails with
        | false => rfl
        | true => exact absurd heq (by simp [entries, S3Store.read])
      have hws : S3Store.Covered (w :: ws) := by
        have hlen := congrArg List.length heq
        refine S3Store.covered_of_readable.2 ?_
        simpa [entries, S3Store.read, hfails] using hlen
      refine ⟨hws, fun _ => hfails, fun v hv => ?_⟩
      rw [hread hws hfails] at heq
      exact (S3Store.letter_line_iff v.1).1 (map_inj_left.1 heq v hv)
  · rintro ⟨hws, hfails, hall⟩
    have heq : entries = ws.map Prod.fst := by
      by_cases hnil : ws = []
      · subst hnil
        cases fails <;> rfl
      · rw [hread hws (hfails hnil)]
        exact map_congr_left fun w hw => (S3Store.letter_line_iff w.1).2 (hall w hw)
    refine ⟨heq, fun σ target s => ?_⟩
    rw [heq, S3Store.calls, List.map_map]
    congr 1
    refine map_congr_left fun w hw => ?_
    simp [Letter.call, hall w hw]

/-- The read of the second write fails, and the first one is gone; the second, a delete, is
replayed as an insert of nothing. -/
theorem failed_read_forgets_letters : let update : Letter Text :=
      ⟨⟨"public", "accounts"⟩, .update, some (.ofList [("id", some "1")]), none, "timeout"⟩
    let delete : Letter Text :=
      ⟨⟨"public", "accounts"⟩, .delete, none, some (.ofList [("id", some "1")]), "timeout"⟩
    let entries := S3Store.read
      ([(update, .all), (delete, .failed 0 false)].foldl S3Store.write []) false
    entries.length = 1 ∧ S3Store.calls entries = [.onInsert ⟨"", ""⟩ none] :=
  ⟨rfl, rfl⟩

end Laredo.Deadletter
