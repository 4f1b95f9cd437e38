import KeyValue.Proofs.Replication.Resyncing
import KeyValue.Proofs.Replication.Withholding
import KeyValue.Proofs.Sessions.Conversation
import KeyValue.Proofs.Sessions.Storing
import Mathlib.Data.List.Nodup

/-!
# Connections that are registered as replicas

A connection is registered as a replica each time it is granted a resync, and when it is closed its
last registration is removed.

A resync is granted to each request for one that a master handles outside of a transaction
(`Engine.dispatch_fullResync_iff`); a request that is queued is refused when the queue is run. So
while a connection is served, the registry holds one entry of it for each resync that it was
granted, and all that is forwarded is written to it that many times. All its entries but the last
are still there when it is closed, and they stay (`Crowd.Run.registers`). For a connection that asks
once this is as it should be: one entry, and none when it is closed. One that asks twice leaves an
entry behind (`Crowd.close_leaves_entry`).

The registry is followed by what it tells of each link (`Crowd.Books`). A step changes at most what
it tells of one link, since entries have different ids.

## Main definitions

* `Engine.grants`: A command is granted a resync.
* `Engine.Keeps`, `Engine.Enrolls`: The registry stays as it is; a link is registered once more.
* `Crowd`: The connections that share an engine.
* `Crowd.Step`, `Crowd.Run`: What happens to them, with the links that are granted a resync.
* `Crowd.Books`: The registry tells which resyncs were granted.

## Theorems

* `Engine.dispatch_fullResync_iff`: Which commands are answered with a resync.
* `Connection.handle_keeps`, `Connection.handle_enrolls`: What handling does to the registry.
* `Crowd.Step.books`, `Crowd.Run.books`: Steps keep the books.
* `Crowd.receive_run`, `Crowd.wake_run`, `Crowd.giveUp_run`: Connections take these steps.
* `Crowd.Run.registers`: What the registry holds of each connection.
* `Crowd.close_leaves_entry`: An entry that is left behind.
-/

namespace KeyValue

/-- What has the state of a master is one. -/
theorem Role.eq_master_of_isSome {role : Role} (h : role.master?.isSome = true) :
    ∃ master, role = .master master := by
  cases role with
  | master master => exact ⟨master, rfl⟩
  | replica replica => simp [master?] at h

namespace Engine

section Granting

variable {engine : Engine} {session : Session} {now : UInt64} {command : Command}

/-- The command is granted a resync: it asks for one, outside of a transaction, and of a master. -/
def grants (engine : Engine) (session : Session) (command : Command) : Bool :=
  engine.role.master?.isSome && !session.transaction.isOpen &&
    decide (Request.ofCommand command = .ok .resync)

-- A command that is granted a resync is answered with it.
theorem dispatch_of_grants (now : UInt64) (h : engine.grants session command = true) :
    ∃ master after, engine.role = .master master ∧
      engine.dispatch session now command = (.answered engine.resync, after, session) ∧
      engine.Quiet after := by
  simp only [grants, Bool.and_eq_true, decide_eq_true_eq, Option.isSome_iff_exists] at h
  rcases h with ⟨⟨hmaster, hclosed⟩, hrequest⟩
  rcases Role.eq_master_of_isSome (Option.isSome_iff_exists.mpr hmaster) with ⟨master, hrole⟩
  have hclosed : session.transaction = .closed := by
    cases htransaction : session.transaction with
    | closed => rfl
    | opened queue => simp [htransaction, Transaction.isOpen] at hclosed
  have hhandle : (engine.record command).2.handle session now (engine.record command).1 command =
      _ := handle_of_closed hrequest hclosed
  simp only [perform, engine.record_resync command] at hhandle
  exact ⟨master, _, hrole, engine.dispatch_of_handle now hhandle,
    (engine.record_quiet command).trans (conclude_quiet _ _ _)⟩

/-- A command is answered with a resync exactly if it is granted one. -/
theorem dispatch_fullResync_iff :
    (∃ header snapshot, (engine.dispatch session now command).1 =
      .answered (.fullResync header snapshot)) ↔ engine.grants session command = true := by
  constructor
  · rintro ⟨header, snapshot, hanswer⟩
    rw [(dispatch_outcome engine session now command).1] at hanswer
    rcases handle_fullResync hanswer with ⟨hrequest, hclosed, hresync⟩
    rw [engine.record_resync command] at hresync
    cases hrole : engine.role with
    | master master => simp [grants, hrole, Role.master?, hclosed, Transaction.isOpen, hrequest]
    | replica replica => simp [resync, hrole] at hresync
  · intro h
    rcases dispatch_of_grants now h with ⟨master, after, hrole, hdispatch, -⟩
    rw [hdispatch]
    simp [resync, hrole]

-- Commands do not change under which id the session is registered.
theorem dispatch_replicaId (engine : Engine) (session : Session) (now : UInt64)
    (command : Command) :
    (engine.dispatch session now command).2.2.replicaId = session.replicaId := by
  rw [(dispatch_outcome engine session now command).2]
  unfold handle
  split
  · rfl
  · split
    · split <;> rfl
    · rename_i request hrequest hopen
      cases request with
      | runTransaction =>
          simp only [perform]
          split <;> rfl
      | beginTransaction | dropTransaction | resync | replication => rfl
      | _ =>
          simp only [perform]
          split <;> rfl

end Granting

/-- No replica comes or goes, and no link is opened or closed. -/
structure Keeps (before after : Engine) : Prop where
  registry : after.registry = before.registry
  length : after.links.all.length = before.links.all.length
  isOpen : ∀ link, after.links.isOpen link = before.links.isOpen link

/-- The same registry has the same replicas. -/
theorem Keeps.peers {before after : Engine} (h : before.Keeps after) :
    after.peers = before.peers :=
  congrArg Prod.fst h.registry

/-- What is kept twice in a row is kept. -/
theorem Keeps.trans {before middle after : Engine} (h : before.Keeps middle)
    (h' : middle.Keeps after) : before.Keeps after :=
  ⟨h'.registry.trans h.registry, h'.length.trans h.length,
    fun link => (h'.isOpen link).trans (h.isOpen link)⟩

theorem Keeps.refl (engine : Engine) : engine.Keeps engine := ⟨rfl, rfl, fun _ => rfl⟩

/-- Where the links and the registry are the same, both are kept. -/
theorem Still.keeps {before after : Engine} (h : before.Still after) : before.Keeps after :=
  ⟨h.registry, by rw [h.links], fun link => by rw [h.links]⟩

/-- Forwarding writes to links, and neither opens nor closes one. -/
theorem propagate_keeps (engine : Engine) (bytes : Bytes) :
    engine.Keeps (engine.propagate bytes) := by
  refine ⟨?_, ?_, engine.propagate_isOpen bytes⟩
  · rw [propagate_eq]
    rfl
  · rw [propagate_eq]
    simp only
    generalize engine.links = links
    induction engine.peers generalizing links with
    | nil => rfl
    | cons peer rest ih => exact (ih _).trans (links.length_write peer.link bytes)

/-- Writing to a link neither opens nor closes one. -/
theorem write_keeps (engine : Engine) (link : Nat) (bytes : Bytes) :
    engine.Keeps { engine with links := engine.links.write link bytes } :=
  ⟨rfl, Links.length_write _ _ _, fun other => Links.isOpen_write _ _ other _⟩

/-- Commands keep the registry and the links. -/
theorem dispatch_keeps (engine : Engine) (session : Session) (now : UInt64) (command : Command) :
    engine.Keeps (engine.dispatch session now command).2.1 := by
  have hdoes := dispatch_does engine session now command
  revert hdoes
  generalize (engine.dispatch session now command).2.1 = after
  intro hdoes
  cases hdoes with
  | quiet hquiet => exact hquiet.still.keeps
  | asks hbefore hafter =>
      exact (hbefore.still.keeps.trans (propagate_keeps _ _)).trans hafter.still.keeps
  | @writes request middle _ hbefore _ _ _ hafter =>
      refine (hbefore.still.keeps.trans ?_).trans hafter.still.keeps
      have hrun := Still.of_frame (middle.run_frame now request)
      unfold runAndForward
      split
      · rename_i hresult
        rw [hresult] at hrun
        exact hrun.keeps.trans (propagate_keeps _ _)
      · rename_i hresult
        rw [hresult] at hrun
        exact hrun.keeps
  | @runs queue middle _ hbefore _ _ hafter =>
      exact (hbefore.still.keeps.trans (runQueue_still now queue middle).keeps).trans
        hafter.still.keeps

/-- The entries of a link in the registry. -/
def entriesOn (engine : Engine) (link : Nat) : List Peer := engine.peers.filter (·.link == link)

/-- What is forwarded is written to a link once for each entry that the registry has of it. -/
theorem copies_eq (engine : Engine) (link : Nat) :
    engine.copies link = (engine.entriesOn link).length :=
  List.countP_eq_length_filter

/-- A link is registered once more, under the next id. -/
structure Enrolls (before : Engine) (link : Nat) (after : Engine) : Prop where
  registry : after.registry =
    (before.peers ++ [⟨before.registry.2, link⟩], before.registry.2 + 1)
  length : after.links.all.length = before.links.all.length
  isOpen : ∀ other, after.links.isOpen other = before.links.isOpen other

/-- What comes before a registration may keep the registry. -/
theorem Keeps.enrolls {link : Nat} {before middle after : Engine} (h : before.Keeps middle)
    (h' : middle.Enrolls link after) : before.Enrolls link after := by
  refine ⟨?_, h'.length.trans h.length, fun other => (h'.isOpen other).trans (h.isOpen other)⟩
  rw [h'.registry, h.registry, h.peers]

/-- The same registry has the same entries of each link. -/
theorem Keeps.entriesOn {before after : Engine} (h : before.Keeps after) (link : Nat) :
    after.entriesOn link = before.entriesOn link :=
  congrArg (List.filter fun peer : Peer => peer.link == link) h.peers

/-- A link that is registered comes last. -/
theorem Enrolls.peers {before after : Engine} {link : Nat} (h : before.Enrolls link after) :
    after.peers = before.peers ++ [⟨before.registry.2, link⟩] :=
  congrArg Prod.fst h.registry

/-- The link that is registered has one more entry, behind those that it had. -/
theorem Enrolls.entriesOn {before after : Engine} {link : Nat} (h : before.Enrolls link after) :
    after.entriesOn link = before.entriesOn link ++ [⟨before.registry.2, link⟩] := by
  simp [Engine.entriesOn, h.peers]

/-- The entries of the other links stay as they are. -/
theorem Enrolls.entriesOn_of_ne {before after : Engine} {link other : Nat}
    (h : before.Enrolls link after) (hne : other ≠ link) :
    after.entriesOn other = before.entriesOn other := by
  simp [Engine.entriesOn, h.peers, Ne.symm hne]

/-- A replica that is removed is gone by its id. The next id does not go back, so no id is given
    twice. -/
theorem updateMaster_remove_registry (engine : Engine) (id : Nat) :
    (engine.updateMaster (·.remove id)).registry =
      (engine.peers.filter (·.id != id), engine.registry.2) := by
  unfold updateMaster peers registry
  cases hrole : engine.role with
  | master master => rfl
  | replica replica => simp [hrole]

end Engine

/-- Only links that were opened can be written to. -/
theorem Links.lt_of_isOpen {links : Links} {link : Nat} (h : links.isOpen link = true) :
    link < links.all.length := by
  unfold isOpen at h
  by_contra hlt
  simp [List.getElem?_eq_none (Nat.le_of_not_lt hlt)] at h

/-- To close one link leaves the others open. -/
theorem Links.isOpen_close_of_ne (links : Links) {link other : Nat} (h : other ≠ link) :
    (links.close link).isOpen other = links.isOpen other := by
  unfold isOpen close
  rw [List.getElem?_modify]
  cases links.all[other]? with
  | none => rfl
  | some found => simp [Ne.symm h]

namespace Connection

variable (connection : Connection) (engine : Engine)

/-- The links that are granted a resync for what was framed: the link of the connection, or none. -/
def granted : Framer.Event → List Nat
  | .error _ => []
  | .ok command => if engine.grants connection.session command then [connection.link] else []

/-- A response that is no resync is at most written. -/
theorem answer_keeps {response : Response}
    (h : ∀ header snapshot, response ≠ .fullResync header snapshot) :
    (connection.answer engine response).1 = connection ∧
      engine.Keeps (connection.answer engine response).2 := by
  cases response with
  | reply reply => exact ⟨rfl, engine.write_keeps _ _⟩
  | silent => exact ⟨rfl, Engine.Keeps.refl engine⟩
  | fullResync header snapshot => exact absurd rfl (h header snapshot)

/-- What is granted no resync keeps the registry, and the id that the connection remembers. -/
theorem handle_keeps (now : UInt64) {event : Framer.Event}
    (h : connection.granted engine event = []) :
    (connection.handle engine now event).1.link = connection.link ∧
      (connection.handle engine now event).1.session.replicaId = connection.session.replicaId ∧
      engine.Keeps (connection.handle engine now event).2 := by
  cases event with
  | error e => exact ⟨rfl, rfl, engine.write_keeps _ _⟩
  | ok command =>
      have hgrants : ¬engine.grants connection.session command = true := by
        intro hgrants
        simp [granted, hgrants] at h
      have hkeeps := engine.dispatch_keeps connection.session now command
      have hid := engine.dispatch_replicaId connection.session now command
      rw [← @Engine.dispatch_fullResync_iff engine connection.session now command] at hgrants
      simp only [handle]
      rcases hdispatch : engine.dispatch connection.session now command with
        ⟨response | ⟨pending, index⟩, after, session⟩ <;> simp only
      · rw [hdispatch] at hkeeps hid hgrants
        have hanswer := answer_keeps { connection with session } after
          fun header snapshot heq => hgrants ⟨header, snapshot, congrArg _ heq⟩
        refine ⟨?_, ?_, hkeeps.trans hanswer.2⟩
        · exact (congrArg Connection.link hanswer.1).trans rfl
        · exact (congrArg (·.session.replicaId) hanswer.1).trans hid
      · rw [hdispatch] at hkeeps hid
        exact ⟨trivial, hid, hkeeps⟩

/-- A master registers the link under the next id, and the connection remembers the id. -/
theorem enroll_enrolls {engine : Engine} (h : engine.role.master?.isSome = true) :
    (connection.enroll engine).1 =
        { connection with session := { connection.session with
          replicaId := some engine.registry.2 } } ∧
      engine.Enrolls connection.link (connection.enroll engine).2 := by
  rcases Role.eq_master_of_isSome h with ⟨master, hrole⟩
  simp only [enroll, hrole, Master.register]
  refine ⟨?_, ⟨?_, rfl, fun _ => rfl⟩⟩ <;>
    simp only [Engine.registry, Engine.peers, hrole, Master.registry]

/-- Registering a link writes nothing to it. -/
theorem enroll_links : (connection.enroll engine).2.links = engine.links := by
  unfold enroll
  split <;> rfl

-- The header and the snapshot are written before.
theorem answer_enrolls {engine : Engine} (h : engine.role.master?.isSome = true) (header : Reply)
    (snapshot : Bytes) :
    (connection.answer engine (.fullResync header snapshot)).1 =
        { connection with session := { connection.session with
          replicaId := some engine.registry.2 } } ∧
      engine.Enrolls connection.link
        (connection.answer engine (.fullResync header snapshot)).2 := by
  have henroll := @enroll_enrolls connection (connection.announce engine header snapshot) h
  exact ⟨henroll.1, (engine.write_keeps _ _).enrolls henroll.2⟩

/-- What is granted a resync registers the link, and the connection remembers the id. -/
theorem handle_enrolls (now : UInt64) {event : Framer.Event}
    (h : connection.granted engine event ≠ []) :
    connection.granted engine event = [connection.link] ∧
      (connection.handle engine now event).1.link = connection.link ∧
      (connection.handle engine now event).1.session.replicaId = some engine.registry.2 ∧
      engine.Enrolls connection.link (connection.handle engine now event).2 := by
  cases event with
  | error e => exact absurd rfl h
  | ok command =>
      have hgrants : engine.grants connection.session command = true := by
        by_contra hgrants
        simp [granted, hgrants] at h
      rcases Engine.dispatch_of_grants now hgrants with ⟨master, after, hrole, hdispatch, hquiet⟩
      have hside := (engine.dispatch_setup now connection.session command).side
      rw [hdispatch, hrole] at hside
      refine ⟨if_pos hgrants, ?_⟩
      simp only [handle, hdispatch, Engine.resync, hrole]
      have hanswer := @answer_enrolls connection after hside
      rw [(hanswer _ _).1, ← hquiet.registry]
      exact ⟨rfl, rfl, hquiet.still.keeps.enrolls (hanswer _ _).2⟩

/-- A connection stays on its link, whatever it handles. -/
theorem handle_link (now : UInt64) (event : Framer.Event) :
    (connection.handle engine now event).1.link = connection.link := by
  by_cases h : connection.granted engine event = []
  · exact (connection.handle_keeps engine now h).1
  · exact (connection.handle_enrolls engine now h).2.1

/-- When a connection is closed, the entry that it remembers is removed from the registry. -/
theorem close_registry :
    (connection.close engine).registry =
      (engine.peers.filter fun peer => connection.session.replicaId != some peer.id,
        engine.registry.2) := by
  unfold close
  cases connection.session.replicaId with
  | none =>
      exact congrArg (·, engine.registry.2) (List.filter_eq_self.mpr fun _ _ => rfl).symm
  | some id =>
      have hremove := engine.updateMaster_remove_registry id
      simp only [Engine.registry] at hremove ⊢
      rw [hremove]
      simp [bne, Option.some_beq_some, BEq.comm]

/-- When a connection is closed, so is its link, and no other. -/
theorem close_links : (connection.close engine).links = engine.links.close connection.link := by
  unfold close
  cases connection.session.replicaId with
  | none => rfl
  | some id =>
      simp only [Engine.updateMaster]
      split <;> rfl

end Connection

-- A command that waited is not answered with a resync.
theorem Engine.answers_plainly {engine after : Engine} {now : UInt64} {pending : Pending}
    {index : Option Nat} {response : Response}
    (h : engine.resume now pending index = (some response, after) ∨
      engine.giveUp now pending index = (response, after)) (header : Reply) (snapshot : Bytes) :
    response ≠ .fullResync header snapshot := by
  rintro rfl
  rcases h with h | h
  · unfold resume at h
    split at h <;> simp [Response.ofExcept] at h
  · simp [giveUp, Response.ofExcept] at h

/-- A command that goes on after a wait changes no registration. -/
theorem Engine.answers_quietly {engine after : Engine} {now : UInt64} {pending : Pending}
    {index : Option Nat} {response : Response}
    (h : engine.resume now pending index = (some response, after) ∨
      engine.giveUp now pending index = (response, after)) : engine.Quiet after := by
  rcases h with h | h
  · have hquiet := engine.resume_quiet now pending index
    rwa [h] at hquiet
  · have hquiet := engine.giveUp_quiet now pending index
    rwa [h] at hquiet

/-- The connections that share an engine. -/
structure Crowd where
  engine : Engine
  /-- The connections that are served, by their links. -/
  served : Nat → Option Connection := fun _ => none

namespace Crowd

open Connection

/-- The engine at its start, with no connections. -/
def start (config : Config) (file : Snapshot.File) (replicationId : String) : Crowd :=
  { engine := .start config file replicationId }

/-- A connection and the engine are changed; the other connections stay as they are. -/
def put (crowd : Crowd) (connection : Connection) (engine : Engine) : Crowd :=
  { engine, served := Function.update crowd.served connection.link (some connection) }

/-- A connection is gone. -/
def drop (crowd : Crowd) (connection : Connection) : Crowd :=
  { engine := connection.close crowd.engine
    served := Function.update crowd.served connection.link none }

/-- What happens next, with the links that are granted a resync. -/
inductive Step : Crowd → List Nat → Crowd → Prop where
  /-- A client connects. -/
  | connect (crowd : Crowd) :
      Step crowd []
        (crowd.put (Connection.opened crowd.engine).1 (Connection.opened crowd.engine).2)
  /-- Bytes come in on a connection. -/
  | arrive {crowd : Crowd} {link : Nat} {connection : Connection} {events : List Framer.Event}
      {framer : Framer} (chunk : Bytes) (hserved : crowd.served link = some connection)
      (h : connection.framer.absorb chunk = (events, framer)) :
      Step crowd [] (crowd.put { connection with framer, backlog := connection.backlog ++ events }
        crowd.engine)
  /-- The next thing that was framed is handled, unless a command waits. -/
  | handle {crowd : Crowd} {link : Nat} {connection : Connection} {event : Framer.Event}
      {rest : List Framer.Event} (now : UInt64) (hserved : crowd.served link = some connection)
      (hidle : connection.suspended = none) (h : connection.backlog = event :: rest) :
      Step crowd (connection.granted crowd.engine event)
        (crowd.put ({ connection with backlog := rest }.handle crowd.engine now event).1
          ({ connection with backlog := rest }.handle crowd.engine now event).2)
  /-- A command that waits looks for a wake-up and finds too little. -/
  | look {crowd : Crowd} {link : Nat} {connection : Connection} {waiting : Suspended}
      {after : Engine} (now : UInt64) (hserved : crowd.served link = some connection)
      (hwaits : connection.suspended = some waiting)
      (h : crowd.engine.resume now waiting.pending waiting.index = (none, after)) :
      Step crowd [] (crowd.put connection after)
  /-- A command that waits answers, since it finds enough or its time is over. -/
  | answer {crowd : Crowd} {link : Nat} {connection : Connection} {waiting : Suspended}
      {response : Response} {after : Engine} (now : UInt64)
      (hserved : crowd.served link = some connection) (hwaits : connection.suspended = some waiting)
      (h : crowd.engine.resume now waiting.pending waiting.index = (some response, after) ∨
        crowd.engine.giveUp now waiting.pending waiting.index = (response, after)) :
      Step crowd [] (crowd.put ({ connection with suspended := none }.answer after response).1
        ({ connection with suspended := none }.answer after response).2)
  /-- A connection is closed. -/
  | close {crowd : Crowd} {link : Nat} {connection : Connection}
      (hserved : crowd.served link = some connection) : Step crowd [] (crowd.drop connection)

/-- Any number of steps, with all links that were granted a resync, once for each. -/
inductive Run (first : Crowd) : List Nat → Crowd → Prop where
  | start : Run first [] first
  | step {log granted : List Nat} {before after : Crowd} (h : Run first log before)
      (h' : Step before granted after) : Run first (log ++ granted) after

/-- What the registry holds of a link that was granted a number of resyncs: one entry for each while
    its connection is served, which remembers the last; and one less when it is gone. -/
inductive Holds (engine : Engine) (link count : Nat) : Option Connection → Prop where
  | served {connection : Connection} (hlink : connection.link = link)
      (hopen : engine.links.isOpen link = true) (hentries : (engine.entriesOn link).length = count)
      (hlast : connection.session.replicaId = (engine.entriesOn link).getLast?.map (·.id)) :
      Holds engine link count (some connection)
  | gone (hentries : (engine.entriesOn link).length = count - 1) : Holds engine link count none

/-- What is told of a link depends on its entries and on whether it is open. -/
theorem Holds.congr {before after : Engine} {link count : Nat} {connection : Option Connection}
    (h : Holds before link count connection)
    (hentries : after.entriesOn link = before.entriesOn link)
    (hopen : after.links.isOpen link = before.links.isOpen link) :
    Holds after link count connection := by
  cases h with
  | served hlink hopen' hlength hlast =>
      exact .served hlink (hopen.trans hopen') (hentries ▸ hlength) (hentries ▸ hlast)
  | gone hlength => exact .gone (hentries ▸ hlength)

/-- The registry tells which links were granted how many resyncs, under ids that are all
    different. -/
structure Books (log : List Nat) (crowd : Crowd) : Prop where
  nodup : (crowd.engine.peers.map (·.id)).Nodup
  below : ∀ peer ∈ crowd.engine.peers, peer.id < crowd.engine.registry.2
  known : ∀ link ∈ log, link < crowd.engine.links.all.length
  holds : ∀ link, Holds crowd.engine link (log.count link) (crowd.served link)

namespace Books

variable {log : List Nat} {crowd : Crowd} {connection next : Connection} {link : Nat}
  {after : Engine}

/-- An engine with an empty registry that serves no one has granted nothing. -/
theorem of_no_peers {engine : Engine} (h : engine.peers = []) : Books [] { engine } := by
  refine ⟨?_, ?_, by simp, fun link => .gone ?_⟩
  · simp [h]
  · simp [h]
  · simp [Engine.entriesOn, h]

/-- At the start no resync was granted. -/
theorem start (config : Config) (file : Snapshot.File) (replicationId : String) :
    Books [] (Crowd.start config file replicationId) :=
  of_no_peers (Engine.start_peers config file replicationId)

/-- What the registry tells of a connection that is served. -/
theorem of_served (h : Books log crowd) (hserved : crowd.served link = some connection) :
    connection.link = link ∧ crowd.engine.links.isOpen link = true ∧
      (crowd.engine.entriesOn link).length = log.count link ∧
      connection.session.replicaId = (crowd.engine.entriesOn link).getLast?.map (·.id) := by
  have hholds := h.holds link
  rw [hserved] at hholds
  rcases hholds with ⟨hlink, hopen, hentries, hlast⟩
  exact ⟨hlink, hopen, hentries, hlast⟩

/-- A connection acts, and the registry stays as it is. -/
theorem keeps (h : Books log crowd) (hserved : crowd.served link = some connection)
    (hlink : next.link = connection.link)
    (hid : next.session.replicaId = connection.session.replicaId)
    (hkeeps : crowd.engine.Keeps after) : Books log (crowd.put next after) := by
  refine ⟨?_, ?_, ?_, fun other => ?_⟩
  · exact hkeeps.peers ▸ h.nodup
  · exact hkeeps.peers ▸ hkeeps.registry ▸ h.below
  · exact hkeeps.length ▸ h.known
  · have hother := (h.holds other).congr (hkeeps.entriesOn other) (hkeeps.isOpen other)
    rcases h.of_served hserved with ⟨rfl, -, -, -⟩
    by_cases heq : other = connection.link
    · subst heq
      rw [hserved] at hother
      rcases hother with ⟨-, hopen, hentries, hlast⟩
      simp only [put, hlink, Function.update_self]
      exact .served hlink hopen hentries (hid.trans hlast)
    · simp only [put, hlink, Function.update_of_ne heq]
      exact hother

/-- A connection is granted a resync, and its link has one more entry. -/
theorem enrolls (h : Books log crowd) (hserved : crowd.served link = some connection)
    (hlink : next.link = connection.link)
    (hid : next.session.replicaId = some crowd.engine.registry.2)
    (henrolls : crowd.engine.Enrolls connection.link after) :
    Books (log ++ [connection.link]) (crowd.put next after) := by
  rcases h.of_served hserved with ⟨rfl, hopen, hentries, -⟩
  have habove : after.registry.2 = crowd.engine.registry.2 + 1 :=
    congrArg Prod.snd henrolls.registry
  refine ⟨?_, ?_, ?_, fun other => ?_⟩
  · -- The next id is above all that are taken.
    have hfresh : crowd.engine.registry.2 ∉ crowd.engine.peers.map (·.id) := by
      intro hmem
      rcases List.mem_map.mp hmem with ⟨peer, hpeer, heq⟩
      exact Nat.lt_irrefl _ (heq ▸ h.below peer hpeer)
    simp only [put, henrolls.peers, List.map_append, List.map_cons, List.map_nil,
      List.nodup_append]
    refine ⟨h.nodup, List.nodup_singleton _, fun id hmem next hnext => ?_⟩
    rw [List.mem_singleton.mp hnext]
    exact fun heq => hfresh (heq ▸ hmem)
  · intro peer hmem
    simp only [put, henrolls.peers, List.mem_append, List.mem_singleton] at hmem
    simp only [put, habove]
    rcases hmem with hmem | rfl
    · exact Nat.lt_succ_of_lt (h.below peer hmem)
    · exact Nat.lt_succ_self _
  · intro other hmem
    simp only [put, henrolls.length]
    rcases List.mem_append.mp hmem with hmem | hmem
    · exact h.known other hmem
    · rw [List.mem_singleton.mp hmem]
      exact Links.lt_of_isOpen hopen
  · rw [List.count_append]
    by_cases heq : other = connection.link
    · subst heq
      simp only [put, hlink, Function.update_self]
      refine .served hlink ((henrolls.isOpen _).trans hopen) ?_ ?_
      · rw [henrolls.entriesOn, List.length_append, hentries, List.count_singleton_self]
        rfl
      · rw [henrolls.entriesOn, List.getLast?_concat, hid]
        rfl
    · rw [List.count_singleton, if_neg (by simpa using Ne.symm heq), Nat.add_zero]
      simp only [put, hlink, Function.update_of_ne heq]
      exact (h.holds other).congr (henrolls.entriesOn_of_ne heq) (henrolls.isOpen other)

/-- A link that was never opened was granted nothing, and has no entries. -/
theorem connects (h : Books log crowd) :
    Books log
      (crowd.put (Connection.opened crowd.engine).1 (Connection.opened crowd.engine).2) := by
  have hlength : crowd.engine.links.connect.2.all.length = crowd.engine.links.all.length + 1 := by
    simp [Links.connect]
  refine ⟨h.nodup, h.below, fun other hmem => ?_, fun other => ?_⟩
  · exact (Nat.lt_succ_of_lt (h.known other hmem)).trans_eq hlength.symm
  · have hother := h.holds other
    by_cases heq : other = crowd.engine.links.all.length
    · subst heq
      have hcount : log.count crowd.engine.links.all.length = 0 :=
        List.count_eq_zero.mpr fun hmem => Nat.lt_irrefl _ (h.known _ hmem)
      have hempty : crowd.engine.entriesOn crowd.engine.links.all.length = [] := by
        generalize crowd.served crowd.engine.links.all.length = found at hother
        cases hother with
        | served _ hopen _ _ => exact absurd (Links.lt_of_isOpen hopen) (Nat.lt_irrefl _)
        | gone hentries => exact List.length_eq_zero_iff.mp (by rw [hentries, hcount])
      rw [hcount]
      simp only [put, Connection.opened, Links.connect, Function.update_self]
      refine .served rfl ?_ ?_ ?_
      · simp [Links.isOpen]
      · exact congrArg List.length hempty
      · exact (congrArg (fun entries => entries.getLast?.map (·.id)) hempty).symm
    · simp only [put, Connection.opened, Links.connect, Function.update_of_ne heq]
      generalize crowd.served other = found at hother ⊢
      cases hother with
      | served hlink hopen hentries hlast =>
          have hconnect := (crowd.engine.links.connect_of_lt (Links.lt_of_isOpen hopen)).1
          exact .served hlink (hconnect.trans hopen) hentries hlast
      | gone hentries => exact .gone hentries

-- Entries with the same id are the same.
theorem eq_of_id (h : Books log crowd) {peer other : Peer} (hpeer : peer ∈ crowd.engine.peers)
    (hother : other ∈ crowd.engine.peers) (heq : peer.id = other.id) : peer = other :=
  List.inj_on_of_nodup_map h.nodup hpeer hother heq

-- Without the last element, a list without duplicates is the same up to the last one.
theorem filter_getLast {entries : List Peer} (h : entries.Nodup) :
    (entries.filter fun peer => entries.getLast? != some peer) = entries.dropLast := by
  rcases List.eq_nil_or_concat' entries with rfl | ⟨front, last, rfl⟩
  · rfl
  · rw [List.nodup_append] at h
    have hfront : ∀ peer ∈ front, last ≠ peer := fun peer hpeer heq =>
      h.2.2 peer hpeer last List.mem_cons_self heq.symm
    rw [List.getLast?_concat, List.dropLast_concat, List.filter_append,
      List.filter_eq_self.mpr (by simpa using hfront)]
    simp

-- The entry that a connection remembers is the last one of its link.
theorem remembered (h : Books log crowd) (hserved : crowd.served link = some connection)
    {peer : Peer} (hpeer : peer ∈ crowd.engine.peers) :
    connection.session.replicaId = some peer.id ↔
      (crowd.engine.entriesOn link).getLast? = some peer := by
  rw [(h.of_served hserved).2.2.2]
  constructor
  · intro hid
    rcases Option.map_eq_some_iff.mp hid with ⟨last, hfound, heq⟩
    have hmem := (List.mem_filter.mp (List.mem_of_getLast? hfound)).1
    rw [hfound, h.eq_of_id hmem hpeer heq]
  · intro hfound
    rw [hfound]
    rfl

/-- When a connection is closed, the last entry of its link is removed, and no other. -/
theorem entriesOn_close (h : Books log crowd) (hserved : crowd.served link = some connection)
    (other : Nat) :
    (connection.close crowd.engine).entriesOn other =
      if other = link then (crowd.engine.entriesOn link).dropLast
      else crowd.engine.entriesOn other := by
  have hpeers : (connection.close crowd.engine).entriesOn other =
      (crowd.engine.entriesOn other).filter fun peer =>
        connection.session.replicaId != some peer.id := by
    simp only [Engine.entriesOn, Engine.peers, connection.close_registry, List.filter_filter]
    exact List.filter_congr fun _ _ => Bool.and_comm _ _
  have hmem {link : Nat} {peer : Peer} (hpeer : peer ∈ crowd.engine.entriesOn link) :
      peer ∈ crowd.engine.peers ∧ peer.link = link := by
    rcases List.mem_filter.mp hpeer with ⟨hmem, hlink⟩
    exact ⟨hmem, by simpa using hlink⟩
  rw [hpeers]
  split
  · rename_i heq
    subst heq
    have hnodup : (crowd.engine.entriesOn other).Nodup := (h.nodup.of_map _).filter _
    rw [← filter_getLast hnodup]
    refine List.filter_congr fun peer hpeer => ?_
    rw [Bool.eq_iff_iff, bne_iff_ne, bne_iff_ne, ne_eq, ne_eq, h.remembered hserved (hmem hpeer).1]
  · rename_i hne
    refine List.filter_eq_self.mpr fun peer hpeer => ?_
    rw [bne_iff_ne, ne_eq, h.remembered hserved (hmem hpeer).1]
    intro hlast
    exact hne ((hmem hpeer).2.symm.trans (hmem (List.mem_of_getLast? hlast)).2)

-- A connection is gone, and so is its last entry.
theorem drops (h : Books log crowd) (hserved : crowd.served link = some connection) :
    Books log (crowd.drop connection) := by
  have hentries := h.entriesOn_close hserved
  rcases h.of_served hserved with ⟨rfl, -, hcount, -⟩
  have hsublist : (connection.close crowd.engine).peers.Sublist crowd.engine.peers := by
    rw [Engine.peers, close_registry]
    exact List.filter_sublist
  refine ⟨?_, ?_, ?_, fun other => ?_⟩
  · exact (hsublist.map _).nodup h.nodup
  · intro peer hmem
    simp only [drop, close_registry]
    exact h.below peer (hsublist.subset hmem)
  · simp only [drop, close_links, Links.length_close]
    exact h.known
  · by_cases heq : other = connection.link
    · subst heq
      simp only [drop, Function.update_self]
      refine .gone ?_
      rw [hentries, if_pos rfl, List.length_dropLast, hcount]
    · simp only [drop, Function.update_of_ne heq]
      refine (h.holds other).congr ?_ ?_
      · rw [hentries, if_neg heq]
      · rw [close_links, Links.isOpen_close_of_ne _ heq]

end Books

/-- A step keeps the registry, with what it was granted. -/
theorem Step.books {log granted : List Nat} {before after : Crowd}
    (h : Step before granted after) (hbooks : Books log before) : Books (log ++ granted) after := by
  cases h with
  | connect =>
      rw [List.append_nil]
      exact hbooks.connects
  | arrive chunk hserved =>
      rw [List.append_nil]
      exact hbooks.keeps hserved rfl rfl (.refl _)
  | @handle link connection event rest now hserved hidle hbacklog =>
      by_cases hgranted : connection.granted before.engine event = []
      · rcases handle_keeps { connection with backlog := rest } before.engine now hgranted with
          ⟨hlink, hid, hkeeps⟩
        rw [hgranted, List.append_nil]
        exact hbooks.keeps hserved hlink hid hkeeps
      · rcases handle_enrolls { connection with backlog := rest } before.engine now hgranted with
          ⟨hsame, hlink, hid, henrolls⟩
        rw [show connection.granted before.engine event = [connection.link] from hsame]
        exact hbooks.enrolls hserved hlink hid henrolls
  | @look link connection waiting after now hserved hwaits hresume =>
      have hquiet := before.engine.resume_quiet now waiting.pending waiting.index
      rw [hresume] at hquiet
      rw [List.append_nil]
      exact hbooks.keeps hserved rfl rfl hquiet.still.keeps
  | @answer link connection waiting response after now hserved hwaits hanswer =>
      have hquiet := Engine.answers_quietly hanswer
      have hanswers := answer_keeps { connection with suspended := none } after
        (Engine.answers_plainly hanswer)
      rw [List.append_nil, hanswers.1]
      exact hbooks.keeps hserved rfl rfl (hquiet.still.keeps.trans hanswers.2)
  | close hserved =>
      rw [List.append_nil]
      exact hbooks.drops hserved

/-- Any number of steps keep the registry. -/
theorem Run.books {first crowd : Crowd} {log : List Nat} (h : Run first log crowd)
    (hfirst : Books [] first) : Books log crowd := by
  induction h with
  | start => exact hfirst
  | step _ hstep ih => exact hstep.books ih

section Connections

variable {first : Crowd} (crowd : Crowd) (now : UInt64)

@[simp] theorem put_engine (connection : Connection) (engine : Engine) :
    (crowd.put connection engine).engine = engine := rfl

/-- A connection that was put in its place is found there. -/
theorem served_put (connection : Connection) (engine : Engine) :
    (crowd.put connection engine).served connection.link = some connection :=
  Function.update_self ..

/-- Of two states of one connection the second one counts. -/
theorem put_put {connection next : Connection} (engine after : Engine)
    (h : next.link = connection.link) :
    (crowd.put connection engine).put next after = crowd.put next after := by
  simp only [put, h, Function.update_idem]

-- The next thing that was framed on a connection is handled.
theorem Step.handle_put (connection : Connection) (engine : Engine) (event : Framer.Event)
    (rest : List Framer.Event) (hidle : connection.suspended = none) :
    Step (crowd.put { connection with backlog := event :: rest } engine)
      (connection.granted engine event)
      (crowd.put { (connection.handle engine now event).1 with backlog := rest }
        (connection.handle engine now event).2) := by
  have hstep := Step.handle now
    (crowd.served_put { connection with backlog := event :: rest } engine) hidle rfl
  have hbacklog := connection.handle_backlog engine now event rest
  simp only [put_engine, hbacklog] at hstep
  rw [put_put] at hstep
  · exact hstep
  · exact connection.handle_link engine now event

/-- What was framed is handled in steps, up to a command that waits. -/
theorem handleAll_run (events : List Framer.Event) :
    ∀ {log : List Nat} {connection : Connection} {engine : Engine}, connection.suspended = none →
      Run first log (crowd.put { connection with backlog := events } engine) →
      ∃ granted, Run first (log ++ granted) (crowd.put (connection.handleAll engine now events).1
        (connection.handleAll engine now events).2) := by
  induction events with
  | nil =>
      intro log connection engine _ hrun
      exact ⟨[], by rwa [List.append_nil]⟩
  | cons event rest ih =>
      intro log connection engine hidle hrun
      have hnext := hrun.step (Step.handle_put crowd now connection engine event rest hidle)
      simp only [Connection.handleAll]
      split
      · exact ⟨_, hnext⟩
      · rename_i hidle'
        rcases ih (by simpa using hidle') hnext with ⟨granted, hrun⟩
        exact ⟨_, List.append_assoc _ _ _ ▸ hrun⟩

variable {crowd} {connection : Connection} {log : List Nat}
  (hserved : crowd.served connection.link = some connection) (hrun : Run first log crowd)
include hserved hrun

/-- Bytes that come in on a connection are framed, and handled in steps. -/
theorem receive_run (chunk : Bytes) (hsettled : Conversation.Settled connection) :
    ∃ granted, Run first (log ++ granted)
      (crowd.put (connection.receive crowd.engine now chunk).1
        (connection.receive crowd.engine now chunk).2) := by
  have harrive := hrun.step (.arrive chunk hserved rfl)
  rw [List.append_nil] at harrive
  unfold Connection.receive
  simp only
  split
  · exact ⟨[], by rwa [List.append_nil]⟩
  · rename_i hidle
    have hnone : connection.suspended = none := by simpa using hidle
    rw [hsettled hnone, List.nil_append] at harrive
    exact handleAll_run crowd now _ hnone harrive

/-- A command that answers is followed by those behind it. -/
theorem proceed_run {waiting : Suspended} {after : Engine} {response : Response}
    (hwaits : connection.suspended = some waiting)
    (h : crowd.engine.resume now waiting.pending waiting.index = (some response, after) ∨
      crowd.engine.giveUp now waiting.pending waiting.index = (response, after)) :
    ∃ granted, Run first (log ++ granted) (crowd.put
      (connection.proceed after now response).1 (connection.proceed after now response).2) := by
  have hanswer := hrun.step (.answer now hserved hwaits h)
  have hsame := (answer_keeps { connection with suspended := none } after
    (Engine.answers_plainly h)).1
  rw [List.append_nil] at hanswer
  simp only [Connection.proceed]
  rw [hsame] at hanswer ⊢
  exact handleAll_run crowd now _ rfl hanswer

/-- A command that waits looks, and goes on if it finds enough. -/
theorem wake_run : ∃ granted, Run first (log ++ granted)
    (crowd.put (connection.wake crowd.engine now).1 (connection.wake crowd.engine now).2) := by
  unfold Connection.wake
  rcases hwaits : connection.suspended with _ | waiting
  · refine ⟨[], ?_⟩
    simp only [put, List.append_nil]
    rwa [← hserved, Function.update_eq_self]
  · simp only
    rcases hresume : crowd.engine.resume now waiting.pending waiting.index with
      ⟨_ | response, after⟩
    · exact ⟨[], hrun.step (.look now hserved hwaits hresume)⟩
    · exact proceed_run now hserved hrun hwaits (Or.inl hresume)

/-- A command that waits gives up. -/
theorem giveUp_run : ∃ granted, Run first (log ++ granted)
    (crowd.put (connection.giveUp crowd.engine now).1 (connection.giveUp crowd.engine now).2) := by
  unfold Connection.giveUp
  rcases hwaits : connection.suspended with _ | waiting
  · refine ⟨[], ?_⟩
    simp only [put, List.append_nil]
    rwa [← hserved, Function.update_eq_self]
  · exact proceed_run now hserved hrun hwaits (Or.inr rfl)

end Connections

-- What is left when a connection is closed are the entries of the others, if it has one at most.
theorem Books.peers_close {log : List Nat} {crowd : Crowd} {connection : Connection} {link : Nat}
    (h : Books log crowd) (hserved : crowd.served link = some connection) :
    (connection.close crowd.engine).peers = crowd.engine.peers.filter (·.link != link) ↔
      (crowd.engine.entriesOn link).length ≤ 1 := by
  constructor
  · intro hpeers
    have hown := h.entriesOn_close hserved link
    have hnone : (connection.close crowd.engine).entriesOn link = [] := by
      simp [Engine.entriesOn, hpeers]
    rw [if_pos rfl, hnone] at hown
    have hlength := congrArg List.length hown
    rw [List.length_dropLast, List.length_nil] at hlength
    omega
  · intro hlength
    have hpeers : (connection.close crowd.engine).peers =
        crowd.engine.peers.filter fun peer => connection.session.replicaId != some peer.id :=
      congrArg Prod.fst (connection.close_registry crowd.engine)
    rw [hpeers]
    refine List.filter_congr fun peer hpeer => ?_
    rw [Bool.eq_iff_iff, bne_iff_ne, bne_iff_ne, ne_eq, ne_eq, h.remembered hserved hpeer]
    refine not_congr ⟨fun hlast => ?_, fun hlink => ?_⟩
    · simpa using (List.mem_filter.mp (List.mem_of_getLast? hlast)).2
    · -- The only entry of the link is the last one.
      have hmem : peer ∈ crowd.engine.entriesOn link :=
        List.mem_filter.mpr ⟨hpeer, by simpa using hlink⟩
      rcases List.length_eq_one_iff.mp (Nat.le_antisymm hlength (List.length_pos_of_mem hmem)) with
        ⟨last, hsingle⟩
      rw [hsingle, List.mem_singleton] at hmem
      rw [hsingle, hmem]
      rfl

/-- In whatever order connections come, ask for resyncs and go, while a connection is served the
    registry holds one entry of it for each resync that it was granted, and what is forwarded is
    written to its link that many times. When it is closed, its last entry is removed and the
    entries of the other links stay as they are; so exactly the entries of the others are left if it
    was granted one resync at most, and only then. Of every connection that is gone, one entry less
    than there were resyncs is left. -/
theorem Run.registers {config : Config} {file : Snapshot.File} {replicationId : String}
    {log : List Nat} {crowd : Crowd} (h : Run (Crowd.start config file replicationId) log crowd) :
    (∀ link connection, crowd.served link = some connection →
      (crowd.engine.entriesOn link).length = log.count link ∧
      (∀ bytes, (crowd.engine.propagate bytes).links.written link =
        crowd.engine.links.written link ++ (List.replicate (log.count link) bytes).flatten) ∧
      (∀ other, (connection.close crowd.engine).entriesOn other =
        if other = link then (crowd.engine.entriesOn link).dropLast
        else crowd.engine.entriesOn other) ∧
      ((connection.close crowd.engine).peers = crowd.engine.peers.filter (·.link != link) ↔
        log.count link ≤ 1)) ∧
    ∀ link, crowd.served link = none →
      (crowd.engine.entriesOn link).length = log.count link - 1 := by
  have hbooks := h.books (.start config file replicationId)
  refine ⟨fun link connection hserved => ?_, fun link hserved => ?_⟩
  · rcases hbooks.of_served hserved with ⟨-, hopen, hentries, -⟩
    refine ⟨hentries, fun bytes => ?_, hbooks.entriesOn_close hserved, ?_⟩
    · rw [Engine.written_propagate_copies _ bytes hopen, Engine.copies_eq, hentries]
    · rw [hbooks.peers_close hserved, hentries]
  · have hholds := hbooks.holds link
    rw [hserved] at hholds
    rcases hholds with _ | hentries
    exact hentries

/-- A connection that asks for a resync once has one entry, and none when it is closed. -/
theorem Run.registers_once :
    ∃ crowd connection, Run (Crowd.start {} .missing "id") [0] crowd ∧
      crowd.served 0 = some connection ∧ (crowd.engine.entriesOn 0).length = 1 ∧
      (connection.close crowd.engine).peers = [] := by
  let psync : Command := .ofParts .psync ["?", "-1"]
  let opened := Connection.opened (Engine.start {} .missing "id")
  have habsorb : opened.1.framer.absorb psync.raw = ([.ok psync], .empty) := by decide +kernel
  have hgranted : opened.1.granted opened.2 (.ok psync) = [0] := by decide +kernel
  have hconnect : Run (Crowd.start {} .missing "id") [] _ := .step .start (.connect _)
  have harrive := hconnect.step (.arrive psync.raw (served_put _ opened.1 opened.2) habsorb)
  have hhandle := harrive.step (.handle 0 (served_put _ _ _) rfl rfl)
  have hrun := hgranted ▸ hhandle
  have h := hrun.registers.1 0 _ (served_put _ _ _)
  refine ⟨_, _, hrun, served_put _ _ _, h.1, (h.2.2.2.mpr (Nat.le_refl 1)).trans ?_⟩
  decide +kernel

/-- A connection that asks for a resync twice receives what is forwarded twice, and leaves an entry
    behind when it is closed. -/
theorem close_leaves_entry :
    let (connection, engine) := Connection.opened (Engine.start {} .missing "id")
    let psync := Wire.request ["PSYNC", "?", "-1"]
    let (asking, master) := connection.receive engine 0 (psync ++ psync)
    (master.propagate [88]).links.written connection.link =
        master.links.written connection.link ++ [88, 88] ∧
      master.peers = [⟨1, connection.link⟩, ⟨2, connection.link⟩] ∧
      (asking.close master).peers = [⟨1, connection.link⟩] := by
  decide +kernel

end Crowd

end KeyValue
