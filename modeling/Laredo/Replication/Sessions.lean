import Laredo.Fanout.Clients
import Laredo.Lib.Leases
import Laredo.Replication.Sync

/-!
# Sessions

All `Sync` sessions on one fan-out target (`service/replication/replication.go`). A session
registers its client, pins the journal, and undoes both when the handler returns.
-/

namespace Laredo.Replication

open Laredo.Fanout Transition Target Std Option ExtTreeMap Journal

variable {P V : Type}

def clientIDOf (requested : String) (unixMilli : Int) : String :=
  if requested = "" then "anon-" ++ toString unixMilli else requested

structure Running (P V : Type) where
  call : Call P V
  session : Session P V

namespace Running

def clientID (r : Running P V) : String := r.call.clientID

def pin (r : Running P V) : Option Int :=
  if r.session.pinned then some r.session.resumeSeq else none

def leave (r : Running P V) : Running P V :=
  { r with session := { r.session with pc := .closed, pinned := false } }

end Running

structure Service (P V : Type) where
  target : Target P V
  registry : ClientRegistry
  sessions : ExtTreeMap Nat (Running P V)

namespace Service

def init (cfg : Config) (maxClients : Int) (columns : List ColumnDefinition) : Service P V where
  target := (new cfg).onInit columns
  registry := { maxClients := maxClients }
  sessions := ∅

inductive Act (P V : Type)
  | engine (op : Op P V) (env : AppendEnv)
  | schemaChange (columns : List ColumnDefinition) (env : AppendEnv)
  | restoreSnapshot (rows : List (Row V))
  | snapshot
  | start (id : Nat) (call : Call P V)
  | refuse (call : Call P V)
  | session (id : Nat)
  | report (id : Nat)
  | leave (id : Nat)
  | unregister (id : Nat)

inductive Step [GoValue V] (s : Service P V) : Act P V → Service P V → Prop
  | engine {op : Op P V} {env : AppendEnv} (henv : PinsOf s.target env) :
      Step s (.engine op env) { s with target := op.apply s.target env }
  | schemaChange {columns : List ColumnDefinition} {env : AppendEnv} (henv : PinsOf s.target env) :
      Step s (.schemaChange columns env) { s with target := s.target.onSchemaChange env columns }
  | restoreSnapshot {rows : List (Row V)} :
      Step s (.restoreSnapshot rows) { s with target := s.target.restoreSnapshot rows }
  | snapshot {env : SnapshotEnv V} (hrows : Iterates env.rows s.target.store) :
      Step s .snapshot { s with target := (s.target.takeSnapshot env).2 }
  | start {id : Nat} {call : Call P V} {requested : String} {unixMilli now : Int}
      {registry : ClientRegistry} (hnew : s.sessions[id]? = none)
      (hid : call.clientID = clientIDOf requested unixMilli)
      (hregister : s.registry.register now call.clientID = some registry) :
      Step s (.start id call)
        { s with registry := registry, sessions := s.sessions.insert id ⟨call, {}⟩ }
  | refuse {call : Call P V} {now : Int} (hfull : s.registry.register now call.clientID = none) :
      Step s (.refuse call) s
  | session {id : Nat} {r : Running P V} {target : Target P V} {session : Session P V}
      (hr : s.sessions[id]? = some r)
      (hs : SessionStep r.call s.target r.session target session) :
      Step s (.session id)
        { s with
          target := target
          sessions := s.sessions.insert id { r with session := session } }
  | updateSequence {id : Nat} {r : Running P V} {seq : Int} (hr : s.sessions[id]? = some r) :
      Step s (.report id) { s with registry := s.registry.updateSequence r.clientID seq }
  | setState {id : Nat} {r : Running P V} {phase : ClientPhase} (hr : s.sessions[id]? = some r) :
      Step s (.report id) { s with registry := s.registry.setState r.clientID phase }
  | leave {id : Nat} {r : Running P V} (hr : s.sessions[id]? = some r)
      (hopen : r.session.pc ≠ .closed) :
      Step s (.leave id)
        { s with
          target := if r.session.pinned then s.target.unpinJournal r.clientID else s.target
          sessions := s.sessions.insert id r.leave }
  | unregister {id : Nat} {r : Running P V} (hr : s.sessions[id]? = some r)
      (hclosed : r.session.pc = .closed) :
      Step s (.unregister id)
        { s with registry := s.registry.unregister r.clientID, sessions := s.sessions.erase id }

/-- There are as many sessions as `ConnectedClients()` says, and not too many. -/
def Counted (s : Service P V) : Prop :=
  (s.sessions.size : Int) = s.registry.count ∧
    (0 < s.registry.maxClients → (s.sessions.size : Int) ≤ s.registry.maxClients)

/-- Nothing past the pin of a session is pruned on the way from `s` to `s'`. -/
def KeepsPins (s s' : Service P V) : Prop :=
  ∀ (id : Nat) (r : Running P V) (seq : Int), s.sessions[id]? = some r → r.pin = some seq →
    s.target.j.KeepsPast s'.target.j seq

/-- A call comes in under an id that no session has, and an append finds room for what is pinned. -/
def Separate (s : Service P V) : Act P V → Prop
  | .start _ call => ∀ (id : Nat) (r : Running P V), s.sessions[id]? = some r →
      r.clientID ≠ call.clientID
  | .engine op env => op.appends = true → s.target.j.NothingDue env ∨ s.target.j.PinsFit
  | .schemaChange _ env => s.target.j.NothingDue env ∨ s.target.j.PinsFit
  | _ => True

end Service

def Pc.pastPin : Pc P V → Bool
  | .catchUp | .sendCatchUp _ | .readHead | .live _ | .sendLive _ _ => true
  | _ => false

structure PinsAfter (r : Running P V) (t t' : Target P V) (ss : Session P V) : Prop where
  pins : t'.j.pins = t.j.pins ∧ Running.pin { r with session := ss } = r.pin ∨
    ∃ seq, t'.j.pins = t.j.pins.insert r.clientID seq ∧
      Running.pin { r with session := ss } = some seq
  past : ss.pinned = true → ss.pc.pastPin = true
  entries : t'.j.firstSeq = t.j.firstSeq

section

variable {r : Running P V} {t t' : Target P V} {ss : Session P V}

lemma PinsAfter.early (hunpi : r.session.pinned = false)
    (hsame : ss.pinned = r.session.pinned) (hpins : t'.j.pins = t.j.pins)
    (hes : t'.j.firstSeq = t.j.firstSeq) : PinsAfter r t t' ss where
  pins := .inl ⟨hpins, by simp [Running.pin, hsame, hunpi]⟩
  past h := by simp [hsame, hunpi] at h
  entries := hes

lemma PinsAfter.late (hpast : ss.pc.pastPin = true) (hsame : ss.pinned = r.session.pinned)
    (hseq : ss.resumeSeq = r.session.resumeSeq) : PinsAfter r t t ss where
  pins := .inl ⟨rfl, by simp [Running.pin, hsame, hseq]⟩
  past _ := hpast
  entries := rfl

lemma SessionStep.pinsAfter (hpast : r.session.pinned = true → r.session.pc.pastPin = true)
    (hs : SessionStep r.call t r.session t' ss) : PinsAfter r t t' ss := by
  have hfree : ∀ {pc : Pc P V}, r.session.pc = pc → pc.pastPin = false →
      r.session.pinned = false := by
    intro pc hpc hbef
    rw [← hpc] at hbef
    exact Bool.eq_false_iff.mpr fun hpin => by simp [hpast hpin] at hbef
  cases hs with
  | readOldest h | readCurrent h | positionCovered h hseq | positionMissed h hseq
  | coldPlanned h hsrc hpos hseq | coldUnavailable h | selectMode h | takeSnapshot h hrows =>
    exact .early (hfree h rfl) rfl rfl rfl
  | pinJournal h => exact ⟨.inr ⟨_, rfl, rfl⟩, fun _ => rfl, rfl⟩
  | catchUp h | sendCatchUp h | caughtUp h | readHead h | poll h | sendLive h | polled h =>
    exact .late rfl rfl rfl

end

namespace Service

section

variable {s s' : Service P V}

/-- What holds while the ids are kept apart: each session has the registration and the pin under its
id, and there are no others. -/
structure Owned (s : Service P V) : Prop where
  distinct : Leases.Distinct (fun id : Nat => s.sessions[id]?) Running.clientID
  registered : Leases.Books (fun id : Nat => s.sessions[id]?) Running.clientID (fun _ => some ())
    fun clientID : String => s.registry.clients[clientID]?.map fun _ => ()
  pins : Leases.Books (fun id : Nat => s.sessions[id]?) Running.clientID Running.pin
    fun clientID : String => s.target.j.pins[clientID]?
  counted : s.Counted
  past : ∀ (id : Nat) (r : Running P V), s.sessions[id]? = some r → r.session.pinned = true →
    r.session.pc.pastPin = true

lemma owned_init (cfg : Config) (maxClients : Int) (cols : List ColumnDefinition) :
    (init cfg maxClients cols : Service P V).Owned where
  distinct a b r r' h := by simp [init] at h
  registered n w := by simp [init]
  pins n w := by simp [init, new, onInit, Journal.newJournal]
  counted := by
    refine ⟨by simp [init, ClientRegistry.count], fun h => ?_⟩
    simp only [init, size_empty] at h ⊢
    omega
  past id r h := by simp [init] at h

variable {id : Nat} {r : Running P V}

lemma Owned.turn (h : s.Owned) (hr : s.sessions[id]? = some r)
    (sessions : ExtTreeMap Nat (Running P V))
    (hothers : ∀ i : Nat, i ≠ id → sessions[i]? = s.sessions[i]?)
    (hself : ∀ r' : Running P V, sessions[id]? = some r' → r'.clientID = r.clientID) :
    Leases.Turn (fun i : Nat => s.sessions[i]?) (fun i : Nat => sessions[i]?)
      Running.clientID id r.clientID where
  others := hothers
  before r' hr' := by
    rw [hr] at hr'
    rw [some.inj hr']
  after := hself
  alone := h.distinct.alone hr

lemma Owned.mem_clients_iff (h : s.Owned) (clientID : String) : clientID ∈ s.registry.clients ↔
      ∃ (id : Nat) (r : Running P V), s.sessions[id]? = some r ∧ r.clientID = clientID := by
  have hbook := h.registered clientID ()
  simp only [and_true] at hbook
  rw [← hbook, mem_iff_isSome_getElem?, isSome_iff_exists]
  simp

lemma Owned.pin_eq (h : s.Owned) (hr : s.sessions[id]? = some r) :
    s.target.j.pins[r.clientID]? = r.pin := by
  refine Option.ext fun seq => ?_
  rw [h.pins r.clientID seq]
  constructor
  · rintro ⟨i, r', hr', hname, hpin⟩
    obtain rfl : i = id := h.distinct i id r' r hr' hr hname
    rwa [← some.inj (hr'.symm.trans hr)]
  · exact fun hpin => ⟨id, r, hr, rfl, hpin⟩

lemma mem_sessions (hr : s.sessions[id]? = some r) : id ∈ s.sessions := by
  rw [mem_iff_isSome_getElem?, hr]
  rfl

lemma size_start (hnew : s.sessions[id]? = none) (r : Running P V) :
    (s.sessions.insert id r).size = s.sessions.size + 1 := by
  have hnone : id ∉ s.sessions := by
    rw [mem_iff_isSome_getElem?, hnew]
    exact Bool.false_ne_true
  simp [size_insert, hnone]

lemma Owned.move (h : s.Owned) {r' : Running P V} (hr : s.sessions[id]? = some r)
    (hname : r'.clientID = r.clientID) {target : Target P V}
    (hothers : ∀ clientID : String, clientID ≠ r.clientID →
      target.j.pins[clientID]? = s.target.j.pins[clientID]?)
    (hpin : target.j.pins[r.clientID]? = r'.pin)
    (hpast : r'.session.pinned = true → r'.session.pc.pastPin = true) :
    Owned { s with target := target, sessions := s.sessions.insert id r' } := by
  have hself : (s.sessions.insert id r')[id]? = some r' := getElem?_insert_self
  have hturn := h.turn hr (s.sessions.insert id r')
    (fun i hi => by simp [ExtTreeMap.getElem?_insert, hi.symm]) fun r'' hr'' => by
      rw [hself] at hr''
      rw [← some.inj hr'', hname]
  have hsize : (s.sessions.insert id r').size = s.sessions.size := by
    simp [size_insert, mem_sessions hr]
  refine ⟨hturn.distinct h.distinct, hturn.books h.registered (fun _ _ => rfl) ?_,
    hturn.books h.pins hothers (by simpa [hself] using hpin),
    by simpa only [Counted, hsize] using h.counted, hturn.all h.past fun r'' hr'' => ?_⟩
  · rw [hself]
    exact (h.registered r.clientID ()).mpr ⟨id, r, hr, rfl, rfl⟩
  · rw [← some.inj (hself.symm.trans hr'')]
    exact hpast

lemma Owned.retarget (h : s.Owned) {target : Target P V}
    (hpins : target.j.pins = s.target.j.pins) : Owned { s with target := target } :=
  ⟨h.distinct, h.registered, by simpa only [hpins] using h.pins, h.counted, h.past⟩

lemma Owned.modify (h : s.Owned) (cid : String) (f : ClientState → ClientState) : Owned { s with
      registry := { s.registry with clients := s.registry.clients.modify cid f } } := by
  refine ⟨h.distinct, ?_, h.pins, ?_, h.past⟩
  · have hsame : ∀ id : String, (s.registry.clients.modify cid f)[id]?.map (fun _ => ()) =
        s.registry.clients[id]?.map fun _ => () := by
      intro id
      rw [ExtTreeMap.getElem?_modify]
      split
      · next hid => simp [Std.LawfulEqOrd.eq_of_compare hid]
      · rfl
    simpa only [hsame] using h.registered
  · simpa [Counted, ClientRegistry.count, size_modify] using h.counted

variable {registry : ClientRegistry}

lemma Owned.start (h : s.Owned) {call : Call P V} {now : Int} (hnew : s.sessions[id]? = none)
    (hreg : s.registry.register now call.clientID = some registry)
    (halone : ∀ (i : Nat) (r : Running P V), s.sessions[i]? = some r → r.clientID ≠ call.clientID) :
    Owned { s with registry := registry, sessions := s.sessions.insert id ⟨call, {}⟩ } := by
  obtain ⟨hroom, rfl⟩ := ClientRegistry.register_inv hreg
  have hself : (s.sessions.insert id ⟨call, {}⟩)[id]? = some ⟨call, {}⟩ :=
    getElem?_insert_self
  have hturn : Leases.Turn (fun i : Nat => s.sessions[i]?)
      (fun i : Nat => (s.sessions.insert id ⟨call, {}⟩)[i]?) Running.clientID id call.clientID := by
    refine ⟨fun i hi => by simp [ExtTreeMap.getElem?_insert, hi.symm], ?_, ?_,
      fun i r _ hr => halone i r hr⟩
    · intro r hr
      rw [hnew] at hr
      cases hr
    · intro r hr
      rw [← some.inj (hself.symm.trans hr)]
      rfl
  have hfree : call.clientID ∉ s.registry.clients := by
    rw [h.mem_clients_iff]
    rintro ⟨i, r, hr, hname⟩
    exact halone i r hr hname
  have hclients : (s.registry.clients.insert call.clientID
      { id := call.clientID, connectedAt := now }).size = s.registry.clients.size + 1 := by
    simp [size_insert, hfree]
  refine ⟨hturn.distinct h.distinct, hturn.books h.registered ?_ ?_,
    hturn.books h.pins (fun _ _ => rfl) ?_, ?_, hturn.all h.past fun r hr hpin => ?_⟩
  · intro clientID hne
    simp [ExtTreeMap.getElem?_insert, hne.symm]
  · simp
  · rw [hself]
    -- a pin under the id would be some session's
    refine eq_none_iff_forall_ne_some.mpr fun seq hseq => ?_
    obtain ⟨i, r, hr, hname, -⟩ := (h.pins call.clientID seq).mp hseq
    exact halone i r hr hname
  · obtain ⟨hcount, hmax⟩ := h.counted
    unfold ClientRegistry.count at hcount hroom
    simp only [Counted, ClientRegistry.count, size_start hnew, hclients]
    omega
  · rw [← some.inj (hself.symm.trans hr)] at hpin
    cases hpin

lemma Owned.unregister (h : s.Owned) (hr : s.sessions[id]? = some r)
    (hcl : r.session.pc = .closed) :
    Owned { s with
      registry := s.registry.unregister r.clientID
      sessions := s.sessions.erase id } := by
  have hunpi : r.pin = none := by
    unfold Running.pin
    split
    · next hpin =>
        have hpast := h.past id r hr hpin
        rw [hcl] at hpast
        cases hpast
    · rfl
  have hself : (s.sessions.erase id)[id]? = none := getElem?_erase_self
  have hturn := h.turn hr (s.sessions.erase id)
    (fun i hi => by simp [ExtTreeMap.getElem?_erase, hi.symm]) fun r' hr' => by
      rw [hself] at hr'
      cases hr'
  have hmem := mem_sessions hr
  refine ⟨hturn.distinct h.distinct, hturn.books h.registered ?_ ?_,
    hturn.books h.pins (fun _ _ => rfl) ?_, ?_, hturn.all h.past fun r' hr' => ?_⟩
  · intro clientID hne
    simp [ClientRegistry.unregister, ExtTreeMap.getElem?_erase, hne.symm]
  · simp [ClientRegistry.unregister]
  · rw [hself]
    exact (h.pin_eq hr).trans hunpi
  · obtain ⟨hcount, hmax⟩ := h.counted
    unfold ClientRegistry.count at hcount
    have hpos : s.sessions.size ≠ 0 := by
      intro hzero
      rw [eq_empty_iff_size_eq_zero.mpr hzero] at hmem
      simp at hmem
    have hsess : (s.sessions.erase id).size = s.sessions.size - 1 := by
      simp [ExtTreeMap.size_erase, hmem]
    have hclients : (s.registry.clients.erase r.clientID).size = s.registry.clients.size - 1 := by
      simp [ExtTreeMap.size_erase, (h.mem_clients_iff r.clientID).mpr ⟨id, r, hr, rfl⟩]
    simp only [Counted, ClientRegistry.count, ClientRegistry.unregister, hsess, hclients]
    omega
  · rw [hself] at hr'
    cases hr'

lemma Owned.not_counted_start (h : s.Owned) {i : Nat} {call : Call P V} {now : Int}
    (hnew : s.sessions[id]? = none)
    (hreg : s.registry.register now call.clientID = some registry)
    (hr : s.sessions[i]? = some r) (hsame : r.clientID = call.clientID) :
    ¬ Counted { s with registry := registry, sessions := s.sessions.insert id ⟨call, {}⟩ } := by
  obtain ⟨-, rfl⟩ := ClientRegistry.register_inv hreg
  have hclients : (s.registry.clients.insert call.clientID
      { id := call.clientID, connectedAt := now }).size = s.registry.clients.size := by
    simp [size_insert, (h.mem_clients_iff call.clientID).mpr ⟨i, r, hr, hsame⟩]
  have hcount := h.counted.1
  unfold ClientRegistry.count at hcount
  simp only [Counted, ClientRegistry.count, size_start hnew, hclients]
  omega

lemma keepsPins_of_firstSeq (hsame : s'.target.j.firstSeq = s.target.j.firstSeq) :
    s.KeepsPins s' :=
  fun _ _ _ _ _ => (keepsPast_iff _ _ _).mpr (.inl (Int.le_of_eq hsame))

lemma Owned.keepsPins_append_iff (h : s.Owned) {env : AppendEnv} (henv : PinsOf s.target env)
    {act : ChangeAction} {old new : Option (Row V)} {pos : Option P}
    (hj : s'.target.j = s.target.j.append env act old new pos) :
    s.KeepsPins s' ↔ s.target.j.NothingDue env ∨ s.target.j.PinsFit := by
  have hpins : ∀ seq, seq ∈ env.pinOrder ↔ ∃ id : String, s.target.j.pins[id]? = some seq := by
    intro seq
    rw [henv.mem_iff]
    simp [mem_toList_iff_getElem?_eq_some]
  rw [← append_keepsPast_iff hpins, ← hj]
  constructor
  · intro hkp clientID seq hseq
    obtain ⟨id, r, hr, -, hpin⟩ := (h.pins clientID seq).mp hseq
    exact hkp id r seq hr hpin
  · intro hkp id r seq hr hpin
    exact hkp r.clientID seq ((h.pins _ _).mpr ⟨id, r, hr, rfl, hpin⟩)

variable [GoValue V] {a : Act P V}

lemma Owned.step (h : s.Owned) (hok : s.Separate a) (hstep : Step s a s') : s'.Owned := by
  cases hstep with
  | engine henv => exact h.retarget (Op.journal _ _ _).1
  | schemaChange henv | restoreSnapshot | snapshot hrows => exact h.retarget rfl
  | start hnew hid hreg => exact h.start hnew hreg hok
  | refuse hfull => exact h
  | updateSequence hr | setState hr => exact h.modify _ _
  | unregister hr hcl => exact h.unregister hr hcl
  | @session id r target ss hr hs =>
    have hname : Running.clientID { r with session := ss } = r.clientID := rfl
    obtain ⟨hpins, hpast, -⟩ := hs.pinsAfter (h.past id r hr)
    rcases hpins with ⟨hsame, hpin⟩ | ⟨seq, hset, hpin⟩
    · exact h.move hr hname (fun _ _ => by rw [hsame]) (by rw [hsame, hpin, h.pin_eq hr]) hpast
    · refine h.move hr hname (fun clientID hne => ?_) ?_ hpast
      · rw [hset]
        simp [ExtTreeMap.getElem?_insert, hne.symm]
      · rw [hset, hpin, getElem?_insert_self]
  | @leave id r hr hopen =>
    have hname : r.leave.clientID = r.clientID := rfl
    have hunpi : r.leave.pin = none := rfl
    by_cases hpinned : r.session.pinned = true
    · rw [if_pos hpinned]
      refine h.move hr hname (fun clientID hne => ?_) ?_ nofun
      · simp [unpinJournal, Journal.unpin, ExtTreeMap.getElem?_erase, hne.symm]
      · simp [unpinJournal, Journal.unpin, hunpi]
    · rw [if_neg hpinned]
      refine h.move hr hname (fun _ _ => rfl) ?_ nofun
      rw [h.pin_eq hr, hunpi, Running.pin, if_neg hpinned]

lemma Owned.step_iff (h : s.Owned) (hstep : Step s a s') :
    (s'.Counted ∧ s.KeepsPins s') ↔ s.Separate a := by
  constructor
  · rintro ⟨hcnt, hkp⟩
    cases hstep with
    | @engine op env henv =>
      intro happends
      rcases (Op.journal s.target env op).2 with ⟨-, action, old, new, position, hj⟩ | ⟨hnot, -⟩
      · exact (h.keepsPins_append_iff henv hj).mp hkp
      · rw [hnot] at happends
        cases happends
    | schemaChange henv => exact (h.keepsPins_append_iff henv rfl).mp hkp
    | start hnew hid hreg => exact fun i r hr hsame => h.not_counted_start hnew hreg hr hsame hcnt
    | _ => trivial
  · intro hok
    refine ⟨(h.step hok hstep).counted, ?_⟩
    cases hstep with
    | @engine op env henv =>
      rcases (Op.journal s.target env op).2 with
        ⟨happends, action, old, new, position, hj⟩ | ⟨-, hsame⟩
      · exact (h.keepsPins_append_iff henv hj).mpr (hok happends)
      · exact keepsPins_of_firstSeq hsame
    | schemaChange henv => exact (h.keepsPins_append_iff henv rfl).mpr hok
    | @session id r target ss hr hs =>
      exact keepsPins_of_firstSeq (hs.pinsAfter (h.past id r hr)).entries
    | leave hr hopen =>
      refine keepsPins_of_firstSeq ?_
      split <;> rfl
    | _ => exact keepsPins_of_firstSeq rfl

/-- **Sessions and their pins.** As long as every step meets the condition there are as many
sessions as connected clients; and the next step leaves it so and prunes nothing past the pin of a
session, if and only if it meets the condition. -/
theorem sessions_own_pins_iff (cfg : Config) (maxClients : Int) (columns : List ColumnDefinition)
    (hreach : Reach Step Separate (init cfg maxClients columns) s)
    (hstep : Step s a s') :
    s.Counted ∧ ((s'.Counted ∧ s.KeepsPins s') ↔ s.Separate a) := by
  have howned : s.Owned := hreach.invariant Owned (owned_init cfg maxClients columns)
    fun h hok hstep => h.step hok hstep
  exact ⟨howned.counted, howned.step_iff hstep⟩

lemma step_session {t t' : Target P V}
    {sessions : ExtTreeMap Nat (Running P V)} {ss : Session P V}
    (hs : SessionStep r.call t r.session t' ss) :
    Step ⟨t, registry, sessions.insert id r⟩ (.session id)
      ⟨t', registry, sessions.insert id { r with session := ss }⟩ := by
  have hins : (sessions.insert id r).insert id { r with session := ss } =
      sessions.insert id { r with session := ss } := by
    refine ExtTreeMap.ext_getElem? fun i => ?_
    by_cases hi : id = i <;> simp [ExtTreeMap.getElem?_insert, hi]
  have hstep := Step.session (s := ⟨t, registry, sessions.insert id r⟩)
    getElem?_insert_self hs
  rwa [hins] at hstep

end

def newClient (clientID : String) : Call Int Text := ⟨clientID, 0, "", "", none, none⟩

def pinnedAt (oldestSeq seq : Int) : Session Int Text :=
  { pc := .catchUp
    handshake := some ⟨.fullSnapshot, seq, oldestSeq, 0, ""⟩
    resumeSeq := seq
    pinned := true }

def inOrder (t : Target Int Text) : SnapshotEnv Text :=
  ⟨0, 0, 0, t.store.toList.map Prod.snd⟩

lemma reach_pinned (t : Target Int Text) (registry : ClientRegistry)
    (sessions : ExtTreeMap Nat (Running Int Text)) (id : Nat) (cid : String) :
    Reach Step Separate ⟨t, registry, sessions.insert id ⟨newClient cid, {}⟩⟩
      ⟨(t.takeSnapshot (inOrder t)).2.pinJournal cid t.j.currentSequence, registry,
        sessions.insert id ⟨newClient cid, pinnedAt t.j.oldestSequence t.j.currentSequence⟩⟩ := by
  have hrows : Iterates (inOrder t).rows t.store := .refl _
  have h : Reach Step Separate _ _ :=
    .refl ⟨t, registry, sessions.insert id ⟨newClient cid, {}⟩⟩
  have h := h
    |>.snoc (step_session (.readOldest rfl))
    |>.snoc (step_session (.readCurrent rfl))
    |>.snoc (step_session (.positionMissed rfl rfl))
    |>.snoc (step_session (.coldUnavailable rfl))
    |>.snoc (step_session (.selectMode rfl))
    |>.snoc (step_session (.takeSnapshot rfl hrows))
    |>.snoc (step_session (.pinJournal rfl))
  exact h

def insertOf (n : String) : Op Int Text := .onInsert (.ofList [("id", some n)])

def agedConfig : Config := { maxJournalEntries := 0, maxJournalAge := 10 }

def firstTarget : Target Int Text :=
  (insertOf "1").apply ((new agedConfig).onInit []) ⟨0, 0, []⟩

def oneSession : Service Int Text where
  target := (insertOf "2").apply
    ((firstTarget.takeSnapshot (inOrder firstTarget)).2.pinJournal "anon-7" 1) ⟨5, 5, [1]⟩
  registry := ⟨ExtTreeMap.insert ∅ "anon-7" { id := "anon-7", connectedAt := 1 }, 2⟩
  sessions := ExtTreeMap.insert ∅ 0 ⟨newClient "anon-7", pinnedAt 1 1⟩

instance (t : Target P V) (env : AppendEnv) : Decidable (PinsOf t env) :=
  inferInstanceAs (Decidable (List.Perm _ _))

lemma step_start {t : Target Int Text} {registry registry' : ClientRegistry}
    {sessions : ExtTreeMap Nat (Running Int Text)} (id : Nat)
    (requested : String) (unixMilli : Int) {cid : String}
    (hid : cid = clientIDOf requested unixMilli) (hnew : sessions[id]? = none)
    (hreg : registry.register 1 cid = some registry') :
    Step ⟨t, registry, sessions⟩ (.start id (newClient cid))
      ⟨t, registry', sessions.insert id ⟨newClient cid, {}⟩⟩ :=
  .start hnew hid hreg

variable {s : Service Int Text}

lemma step_insert (n : String) {env : AppendEnv} (henv : PinsOf s.target env) :
    Step s (.engine (insertOf n) env) { s with target := (insertOf n).apply s.target env } :=
  .engine henv

lemma separate_insert (n : String) (env : AppendEnv)
    (hmax : s.target.j.maxEntries ≤ 0)
    (hpos : ∀ seq ∈ s.target.j.pins.toList.map Prod.snd, 0 < seq) :
    s.Separate (.engine (insertOf n) env) := by
  refine fun _ => .inr ⟨fun id seq hseq => hpos seq ?_, .inl (.inl hmax)⟩
  exact List.mem_map.mpr ⟨(id, seq), mem_toList_iff_getElem?_eq_some.mpr hseq, rfl⟩

lemma reach_oneSession : Reach Step Separate (init agedConfig 2 []) oneSession := by
  have h : Reach Step Separate _ _ :=
    .refl (init agedConfig 2 [] : Service Int Text)
  have h := h
    |>.snoc (step_insert "1" (by decide +kernel : PinsOf _ ⟨0, 0, []⟩))
      (separate_insert "1" _ (Int.le_refl 0) (by decide +kernel))
    |>.snoc (step_start 0 "" 7 (by decide +kernel : "anon-7" = _) rfl rfl) fun id r hr => by
      simp [init] at hr
  have h := h.trans (reach_pinned firstTarget _ ∅ 0 "anon-7")
  have h := h.snoc (step_insert "2" (by decide +kernel : PinsOf _ ⟨5, 5, [1]⟩))
    (separate_insert "2" _ (Int.le_refl 0) (by decide +kernel))
  exact h

/-- A second client without an id comes in the same millisecond, and leaves. -/
theorem shared_client_id_loses_pin : ∃ s s' : Service Int Text, Run Step (init agedConfig 2 []) s ∧
      Step s (.engine (insertOf "3") ⟨100, 100, []⟩) s' ∧
      (∃ r, s.sessions[0]? = some r ∧ r.session.pc = .catchUp ∧ r.pin = some 1) ∧
      s.sessions.size = 1 ∧ s.registry.count = 0 ∧
      (∃ e ∈ s.target.j.entries, e.sequence = 2) ∧
      ¬ ∃ e ∈ s'.target.j.entries, e.sequence = 2 := by
  have h : Run Step (init agedConfig 2 []) oneSession :=
    reach_oneSession.mono fun _ _ _ => trivial
  have h := h.snoc (step_start 1 "" 7 (by decide +kernel : "anon-7" = _) rfl rfl)
  have h := h.trans ((reach_pinned oneSession.target _ _ 1 "anon-7").mono fun _ _ _ => trivial)
  have h := h
    |>.snoc (.leave getElem?_insert_self nofun)
    |>.snoc (.unregister getElem?_insert_self rfl)
  refine ⟨_, _, h, step_insert "3" (by decide +kernel),
    ⟨⟨newClient "anon-7", pinnedAt 1 1⟩, rfl, rfl, rfl⟩, rfl, rfl, by decide +kernel,
    by decide +kernel⟩

theorem sessions_own_pins_iff_run : ∃ s s' : Service Int Text,
      Reach Step Separate (init agedConfig 2 []) s ∧
      Step s (.engine (insertOf "3") ⟨100, 100, [2, 1]⟩) s' ∧ s.sessions.size = 2 ∧
      s.Counted ∧ s'.Counted ∧ s.KeepsPins s' := by
  have halone : oneSession.Separate (.start 1 (newClient "replica-2")) := by
    intro id r hr
    rw [oneSession, ExtTreeMap.getElem?_insert] at hr
    split at hr
    · rw [← some.inj hr]
      decide +kernel
    · simp at hr
  have h := reach_oneSession.snoc (step_start 1 "replica-2" 7 rfl rfl rfl)
  have h := h.trans (reach_pinned oneSession.target _ _ 1 "replica-2")
  have hiff := sessions_own_pins_iff agedConfig 2 [] h
    (step_insert "3" (by decide +kernel : PinsOf _ ⟨100, 100, [2, 1]⟩))
  have hkept := hiff.2.mpr (separate_insert "3" _ (Int.le_refl 0) (by decide +kernel))
  exact ⟨_, _, h, step_insert "3" (by decide +kernel), rfl, hiff.1, hkept.1, hkept.2⟩

end Service

end Laredo.Replication
