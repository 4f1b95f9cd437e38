import KeyValue.Proofs.Engine.Heeding
import KeyValue.Proofs.Engine.Setup
import KeyValue.Proofs.Engine.Sparing
import KeyValue.Proofs.Sessions.Turns
import KeyValue.Replication.Following

/-!
# Resyncs

A client that asks for a resync becomes a replica in steps. Its request is dispatched, which fixes
what it is sent; the header and the snapshot are written to its link; and the link is registered.
Any number of turns of other clients may come in between.

The snapshot is always the one without keys. Nothing else is written to the link before it is
registered, because a link without a replica is spared by all commands. So a replica starts without
keys (`starts_empty`), and what the master holds by then is missing on it: a key that was there
before the request (`Resyncing.misses_key`), and one that was written since then. A replica of a
master that holds no key starts with what its master holds.

## Main definitions

* `Resyncing`: A client that asks for a resync, among others.
* `Resyncing.Step`: A step of the resync, or a turn of another client.
* `Resyncing.Granted`, `Resyncing.Sent`: What the client was granted, and what it was sent.

## Theorems

* `Engine.dispatch_fullResync`: Only masters grant resyncs, and always the same snapshot.
* `Clients.take_spares`, `Clients.take_setup`: What turns of others leave alone.
* `Resyncing.steps_of_dispatch`: The steps in a row are what a connection does.
* `Resyncing.starts_empty`: What a replica has when it is registered.
-/

namespace KeyValue

namespace Engine

section Granting

variable {engine : Engine} {session : Session} {now : UInt64} {index : Option Nat}
  {command : Command} {header : Reply} {snapshot : Bytes}

-- Of all requests only the one for a resync is answered with one.
theorem perform_fullResync {request : Request}
    (h : (engine.perform session now index command request).1 =
      .answered (.fullResync header snapshot)) :
    request = .resync ∧ engine.resync = .fullResync header snapshot := by
  cases request with
  | resync => exact ⟨rfl, Dispatch.answered.inj h⟩
  | beginTransaction => simp [perform] at h
  | dropTransaction => simp [perform, Response.ofExcept] at h
  | runTransaction =>
      simp only [perform] at h
      split at h <;> simp [Response.refusal] at h
  | replication option arguments =>
      simp only [perform, converse] at h
      repeat' split at h
      all_goals simp at h
  | _ =>
      simp only [perform] at h
      split at h <;> simp [Response.ofExcept] at h

-- It is not answered so in a transaction, where it is queued.
theorem handle_fullResync
    (h : (engine.handle session now index command).1 = .answered (.fullResync header snapshot)) :
    Request.ofCommand command = .ok .resync ∧ session.transaction = .closed ∧
      engine.resync = .fullResync header snapshot := by
  unfold handle at h
  split at h
  · simp [Response.refusal] at h
  · rename_i hrequest
    split at h
    · split at h <;> simp [Response.refusal] at h
    · rename_i hperformed
      rcases perform_fullResync h with ⟨rfl, hresync⟩
      exact ⟨hrequest, closed_of_performed hrequest hperformed (by simp), hresync⟩

theorem record_resync (engine : Engine) (command : Command) :
    (engine.record command).2.resync = engine.resync := by
  unfold record
  cases hrole : engine.role with
  | master master => simp only [resync, hrole]
  | replica replica => rfl

/-- A command that is answered with a resync was sent to a master, and the snapshot is the one
    without keys. -/
theorem dispatch_fullResync {after : Engine} {session' : Session}
    (h : engine.dispatch session now command =
      (.answered (.fullResync header snapshot), after, session')) :
    snapshot = Snapshot.empty ∧ after.role.master?.isSome = true := by
  have hsetup := engine.dispatch_setup now session command
  rw [h] at hsetup
  have hresync : engine.resync = .fullResync header snapshot := by
    rw [← engine.record_resync command]
    unfold dispatch at h
    simp only at h
    split at h
    · rename_i hhandled
      have hresult := congrArg Prod.fst hhandled
      rw [(Prod.mk.inj h).1] at hresult
      exact (handle_fullResync hresult).2.2
    · simp at h
  unfold resync at hresync
  split at hresync
  · rename_i master hrole
    refine ⟨(Response.fullResync.inj hresync).2.symm, hsetup.side.trans ?_⟩
    rw [hrole]
    rfl
  · simp at hresync

end Granting

end Engine

namespace Clients

variable (clients : Clients)

/-- A turn spares a link without a replica. -/
theorem take_spares {link : Nat} (h : clients.engine.Unlinked link) (turn : Turn) :
    clients.engine.Spares link (clients.take turn).engine :=
  clients.take_changes (.refl link) (Engine.dispatch_spares h)
    (fun now pending index => clients.engine.resume_spares now pending index link)
    (fun now pending index => clients.engine.giveUp_spares now pending index link) turn

theorem take_setup (turn : Turn) : clients.engine.SameSetup (clients.take turn).engine :=
  clients.take_changes .refl (fun session now => clients.engine.dispatch_setup now session)
    clients.engine.resume_setup clients.engine.giveUp_setup turn

end Clients

/-- How far a client has come with its resync. -/
inductive Resyncing.Stage where
  /-- It has not asked for one. -/
  | ready
  /-- It is about to be sent a header and a snapshot. -/
  | granted (header : Reply) (snapshot : Bytes)
  /-- It was sent them, and is about to be registered. -/
  | announced (header : Reply) (snapshot : Bytes)

/-- A client that asks for a resync, among others. -/
structure Resyncing where
  connection : Connection
  clients : Clients
  stage : Resyncing.Stage := .ready

namespace Resyncing

/-- A step of the resync, or a turn of another client. -/
inductive Step : Resyncing → Resyncing → Prop where
  | others {resyncing : Resyncing} (turn : Turn) :
      Step resyncing { resyncing with clients := resyncing.clients.take turn }
  /-- The request is dispatched. -/
  | ask {connection : Connection} {clients : Clients} {command : Command} {header : Reply}
      {snapshot : Bytes} {engine : Engine} {session : Session} (now : UInt64)
      (h : clients.engine.dispatch connection.session now command =
        (.answered (.fullResync header snapshot), engine, session)) :
      Step ⟨connection, clients, .ready⟩
        ⟨{ connection with session }, { clients with engine }, .granted header snapshot⟩
  /-- The header and the snapshot are written. -/
  | announce {connection : Connection} {clients : Clients} {header : Reply} {snapshot : Bytes} :
      Step ⟨connection, clients, .granted header snapshot⟩
        ⟨connection, { clients with
          engine := connection.announce clients.engine header snapshot },
          .announced header snapshot⟩

/-- With nothing in between, the steps do what a connection does when it handles the request. So a
    connection on its own is one of the runs that are considered here. -/
theorem steps_of_dispatch {connection : Connection} {clients : Clients} {now : UInt64}
    {command : Command} {header : Reply} {snapshot : Bytes} {engine : Engine} {session : Session}
    (h : clients.engine.dispatch connection.session now command =
      (.answered (.fullResync header snapshot), engine, session)) :
    ∃ after, Relation.ReflTransGen Step ⟨connection, clients, .ready⟩ after ∧
      after.stage = .announced header snapshot ∧
      connection.handle clients.engine now (.ok command) =
        after.connection.enroll after.clients.engine := by
  refine ⟨_, (Relation.ReflTransGen.single (.ask now h)).tail .announce, rfl, ?_⟩
  simp only [Connection.handle, h, Connection.answer]

/-- The client has the link, and what it was granted is what masters grant. -/
structure Granted (link : Nat) (resyncing : Resyncing) : Prop where
  owner : resyncing.connection.link = link
  stage : match resyncing.stage with
    | .ready => True
    | .granted _ snapshot | .announced _ snapshot =>
      snapshot = Snapshot.empty ∧ resyncing.clients.engine.role.master?.isSome = true

/-- The link, which is open and no replica's, was sent what the resync is due, and no more. -/
structure Sent (link : Nat) (before : Bytes) (resyncing : Resyncing) : Prop where
  owner : resyncing.connection.link = link
  isOpen : resyncing.clients.engine.links.isOpen link = true
  unlinked : resyncing.clients.engine.Unlinked link
  stage : resyncing.clients.engine.links.written link = before ++
    match resyncing.stage with
    | .ready | .granted _ _ => []
    | .announced header snapshot => header.encode ++ (Reply.snapshot snapshot).encode

variable {link : Nat} {before : Bytes} {resyncing after : Resyncing}

theorem Granted.step (h : Granted link resyncing) (hstep : Step resyncing after) :
    Granted link after := by
  cases hstep with
  | others turn =>
      have hstage := h.stage
      rw [← (resyncing.clients.take_setup turn).side] at hstage
      exact ⟨h.owner, hstage⟩
  | ask now hdispatch => exact ⟨h.owner, Engine.dispatch_fullResync hdispatch⟩
  | announce => exact ⟨h.owner, h.stage⟩

/-- Each step sends what is due. -/
theorem Sent.step (h : Sent link before resyncing) (hstep : Step resyncing after) :
    Sent link before after := by
  cases hstep with
  | others turn =>
      have hspares := resyncing.clients.take_spares h.unlinked turn
      exact ⟨h.owner, hspares.isOpen.trans h.isOpen, hspares.unlinked h.unlinked,
        hspares.written.trans h.stage⟩
  | @ask connection clients command header snapshot engine session now hdispatch =>
      have hspares := Engine.dispatch_spares h.unlinked connection.session now command
      rw [hdispatch] at hspares
      exact ⟨h.owner, hspares.isOpen.trans h.isOpen, hspares.unlinked h.unlinked,
        hspares.written.trans h.stage⟩
  | @announce connection clients header snapshot =>
      obtain rfl : connection.link = link := h.owner
      have hopen : clients.engine.links.isOpen connection.link = true := h.isOpen
      have hwrite := clients.engine.links.written_write connection.link connection.link
        (header.encode ++ (Reply.snapshot snapshot).encode)
      rw [if_pos ⟨rfl, hopen⟩, h.stage, List.append_nil] at hwrite
      exact ⟨rfl, (Links.isOpen_write _ _ _ _).trans hopen, h.unlinked, hwrite⟩

/-- What each step preserves holds after any number of them. -/
theorem steps_preserve {holds : Resyncing → Prop}
    (hstep : ∀ {before after : Resyncing}, holds before → Step before after → holds after)
    (hsteps : Relation.ReflTransGen Step resyncing after) (h : holds resyncing) : holds after := by
  induction hsteps with
  | refl => exact h
  | tail _ hlast ih => exact hstep ih hlast

-- The snapshot without keys is read, and leaves a keyspace as it is.
theorem entries_empty : Snapshot.entries Snapshot.empty = .ok [] := by rfl

theorem takeOver_empty (engine : Engine) (now : UInt64) {resync : Handshake.Resync}
    (h : resync.snapshot = Snapshot.empty) :
    (engine.takeOver now resync).keyspace = engine.keyspace := by
  unfold Engine.takeOver Engine.updateReplica
  simp only [h, entries_empty, Engine.load]
  split <;> rfl

/-- When a client is registered as a replica, it was granted the snapshot without keys, whatever
    other clients did since it asked for a resync. On an open link without a replica it was sent the
    header and the snapshot since then, and nothing else. An engine without keys that takes the
    snapshot over holds no key. So it holds what the master holds by then exactly if that is
    nothing. -/
theorem starts_empty {start after : Resyncing} {header : Reply} {snapshot : Bytes}
    (hsteps : Relation.ReflTransGen Step start after) (hstart : start.stage = .ready)
    (hafter : after.stage = .announced header snapshot) :
    let link := start.connection.link
    let (connection, master) := after.connection.enroll after.clients.engine
    (∃ id, connection.session.replicaId = some id ∧
      master.peers = after.clients.engine.peers ++ [⟨id, link⟩]) ∧
    (start.clients.engine.links.isOpen link = true → start.clients.engine.Unlinked link →
      master.links.written link = start.clients.engine.links.written link ++
        (header.encode ++ (Reply.snapshot snapshot).encode)) ∧
    snapshot = Snapshot.empty ∧ Snapshot.entries snapshot = .ok [] ∧
    ∀ (replica : Engine) (resync : Handshake.Resync) (now now' : UInt64),
      replica.keyspace = .empty → resync.snapshot = snapshot →
        (∀ key, (replica.takeOver now resync).keyspace.live? now' key = none) ∧
        ((∀ key, (replica.takeOver now resync).keyspace.live? now' key =
            master.keyspace.live? now' key) ↔
          ∀ key, master.keyspace.live? now' key = none) := by
  have hready : Granted start.connection.link start := ⟨rfl, by rw [hstart]; trivial⟩
  have hgranted := steps_preserve Granted.step hsteps hready
  have hstage := hgranted.stage
  rw [hafter] at hstage
  rcases hstage with ⟨rfl, hmaster⟩
  cases hrole : after.clients.engine.role with
  | replica replica => simp [hrole, Role.master?] at hmaster
  | master master =>
      simp only [Connection.enroll, hrole]
      refine ⟨⟨_, rfl, ?_⟩, ?_, trivial, entries_empty, ?_⟩
      · simp only [Engine.peers, Engine.registry, hrole, Master.registry, Master.register,
          hgranted.owner]
      · intro hopen hunlinked
        have hsent : Sent start.connection.link _ start :=
          ⟨rfl, hopen, hunlinked, by rw [hstart, List.append_nil]⟩
        have hwritten := (steps_preserve Sent.step hsteps hsent).stage
        rwa [hafter] at hwritten
      · intro replica resync now now' hempty hsnapshot
        have hnone : ∀ key, (replica.takeOver now resync).keyspace.live? now' key = none := by
          intro key
          rw [takeOver_empty replica now hsnapshot, hempty]
          rfl
        refine ⟨hnone, ?_⟩
        constructor
        · exact fun h key => (h key).symm.trans (hnone key)
        · exact fun h key => (hnone key).trans (h key).symm

-- One key is written before the request, and another one when the snapshot is sent already.
theorem starts_empty_amid_writes :
    let opened := Connection.opened (Engine.start {} .missing "id")
    let start : Resyncing := { connection := opened.1, clients := { engine := opened.2 } }
    ∃ after header, Relation.ReflTransGen Step start after ∧
      after.stage = .announced header Snapshot.empty ∧
      (after.connection.enroll after.clients.engine).2.links.written 0 =
        header.encode ++ (Reply.snapshot Snapshot.empty).encode ∧
      (∀ key ∈ ["a", "b"], (after.connection.enroll after.clients.engine).2.keyspace.live? 8 key =
        some ⟨.integer 1, .never⟩) ∧
      ∀ key, (start.clients.engine.takeOver 8 ⟨"id", 0, Snapshot.empty⟩).keyspace.live? 8 key =
        none := by
  intro opened start
  let write (now : UInt64) (key : String) : Turn := .command 1 now (.ofParts .set [key, "1"])
  have hask := @Step.ask start.connection (start.clients.take (write 5 "a"))
    (.ofParts .psync ["?", "-1"]) _ _ _ _ 6 rfl
  have hsteps := (((Relation.ReflTransGen.single (.others (write 5 "a"))).tail hask).tail
    .announce).tail (.others (write 7 "b"))
  have h := starts_empty hsteps rfl rfl
  exact ⟨_, _, hsteps, rfl, h.2.1 rfl fun _ hpeer => absurd hpeer List.not_mem_nil,
    by decide +kernel, fun key => (h.2.2.2.2 _ _ 8 8 rfl rfl).1 key⟩

/-- A key that is there when the resync is asked for is not in the snapshot. -/
theorem misses_key :
    let psync : Command := .ofParts .psync ["?", "-1"]
    let (connection, replica) := Connection.opened (Engine.start {} .missing "id")
    let engine := (replica.dispatch {} 5 (.ofParts .set ["a", "1"])).2.1
    let (_, master) := connection.handle engine 6 (.ok psync)
    ∃ header snapshot entries,
      (engine.dispatch connection.session 6 psync).1 = .answered (.fullResync header snapshot) ∧
      Snapshot.entries snapshot = .ok entries ∧
      master.peers = [⟨1, connection.link⟩] ∧
      master.keyspace.live? 7 "a" = some ⟨.integer 1, .never⟩ ∧
      (replica.load 7 entries).2.keyspace.live? 7 "a" = none := by
  refine ⟨_, _, _, rfl, entries_empty, ?_⟩
  decide +kernel

end Resyncing

end KeyValue
