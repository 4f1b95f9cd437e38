import KeyValue.Proofs.Engine.Setup
import KeyValue.Proofs.Sessions.Storing

/-!
# Requests that are run at once

Most requests are the same in a transaction and outside of one: they are run at once, look at the
keyspace, the snapshot file, the configuration and the facts about the role, and change the keyspace
and which readers are woken. What differs is around them. Outside of a transaction the command has a
place in the history, and its bytes are forwarded to the replicas.

None of this can be seen by a request. `Alike` engines differ in their links, and in what a master
keeps about its commands; a request comes to the same in them, and leaves them alike
(`Alike.run`). So a session is answered what the request comes to (`dispatch_immediate`).

## Main definitions

* `Engine.Alike`: Engines that no request tells apart.
* `Request.Immediate`: The requests that are run at once.
* `Engine.dispatchAll`: A session sends commands one after the other.

## Theorems

* `Alike.run`, `Alike.runCommand`: Requests and commands on alike engines.
* `dispatch_immediate`: What a session is answered, and what is left behind.
-/

namespace KeyValue

/-- The request is run at once, in a transaction or not: it does not belong to a session, and it
    does not wait. -/
def Request.Immediate : Request → Prop
  | .beginTransaction | .runTransaction | .dropTransaction | .replication _ _ | .resync
  | .waitForReplicas _ _ => False
  | .readStreams arguments =>
    ∀ read, StreamRead.ofArguments {} arguments = .ok read → read.block = none
  | _ => True

namespace Engine

/-- A session sends commands one after the other, each at its own time. -/
def dispatchAll (engine : Engine) (session : Session) :
    List (UInt64 × Command) → List Dispatch × Engine × Session
  | [] => ([], engine, session)
  | (now, command) :: rest =>
    let (result, engine, session) := engine.dispatch session now command
    let (results, engine, session) := engine.dispatchAll session rest
    (result :: results, engine, session)

/-- Engines that no request tells apart. They may differ in their links, and in what a master keeps
    about its commands. -/
structure Alike (a b : Engine) : Prop where
  config : a.config = b.config
  keyspace : a.keyspace = b.keyspace
  readers : a.readers = b.readers
  file : a.file = b.file
  facts : a.role.facts = b.role.facts

namespace Alike

variable {a b c engine : Engine}

theorem refl (engine : Engine) : engine.Alike engine := ⟨rfl, rfl, rfl, rfl, rfl⟩

theorem symm (h : a.Alike b) : b.Alike a :=
  ⟨h.config.symm, h.keyspace.symm, h.readers.symm, h.file.symm, h.facts.symm⟩

theorem trans (h : a.Alike b) (h' : b.Alike c) : a.Alike c :=
  ⟨h.config.trans h'.config, h.keyspace.trans h'.keyspace, h.readers.trans h'.readers,
    h.file.trans h'.file, h.facts.trans h'.facts⟩

/-- A request comes to the same in engines that are alike, and leaves them alike. -/
theorem run (h : a.Alike b) (now : UInt64) (request : Request) :
    (a.run now request).1 = (b.run now request).1 ∧
      (a.run now request).2.Alike (b.run now request).2 := by
  rcases a with ⟨config, keyspace, readers, file, role, links⟩
  rcases b with ⟨config', keyspace', readers', file', role', links'⟩
  rcases h with ⟨hconfig, hkeyspace, hreaders, hfile, hfacts⟩
  simp only at hconfig hkeyspace hreaders hfile hfacts
  subst hconfig hkeyspace hreaders hfile
  cases request with
  | ping message => cases message <;> exact ⟨rfl, rfl, rfl, rfl, rfl, hfacts⟩
  | info topic =>
      refine ⟨?_, rfl, rfl, rfl, rfl, hfacts⟩
      simp only [Engine.run, Report.info, hfacts]
  | addEntry key id fields =>
      simp only [Engine.run, addEntry]
      rcases StreamCommand.addEntry keyspace now key id fields with ⟨_ | id, keyspace⟩
      · exact ⟨rfl, rfl, rfl, rfl, rfl, hfacts⟩
      · exact ⟨rfl, rfl, rfl, rfl, rfl, hfacts⟩
  | readStreams arguments =>
      simp only [Engine.run, openRead]
      cases StreamRead.ofArguments {} arguments with
      | error e => exact ⟨rfl, rfl, rfl, rfl, rfl, hfacts⟩
      | ok read =>
          simp only [withKeyspace, readAll]
          rcases Cursor.resolveAll keyspace now read.starts with ⟨_ | cursors, keyspace⟩
          · exact ⟨rfl, rfl, rfl, rfl, rfl, hfacts⟩
          · exact ⟨rfl, rfl, rfl, rfl, rfl, hfacts⟩
  | _ => exact ⟨rfl, rfl, rfl, rfl, rfl, hfacts⟩

/-- A queued command finds the same, and does the same, on engines that it cannot tell apart. -/
theorem runCommand (h : a.Alike b) (now : UInt64) (command : Command) :
    (a.runCommand now command).1 = (b.runCommand now command).1 ∧
      (a.runCommand now command).2.Alike (b.runCommand now command).2 := by
  unfold Engine.runCommand
  cases Request.ofCommand command with
  | error e => exact ⟨rfl, h⟩
  | ok request => exact ⟨congrArg Reply.ofExcept (h.run now request).1, (h.run now request).2⟩

end Alike

section Around

variable (engine : Engine)

-- What is done around a request cannot be seen by one.
theorem updateMaster_alike {update : Master → Master}
    (h : ∀ master : Master, (update master).facts = master.facts) :
    (engine.updateMaster update).Alike engine := by
  unfold updateMaster
  cases hrole : engine.role with
  | master master => exact ⟨rfl, rfl, rfl, rfl, by simp only [hrole, Role.facts, h]⟩
  | replica replica => exact .refl engine

/-- The history is nothing that requests can tell. -/
theorem record_alike (command : Command) : (engine.record command).2.Alike engine := by
  unfold record
  cases hrole : engine.role with
  | master master => exact ⟨rfl, rfl, rfl, rfl, by simp only [hrole]; rfl⟩
  | replica replica => exact .refl engine

theorem conclude_alike (index : Option Nat) (response : Response) :
    (engine.conclude index response).Alike engine := by
  cases index with
  | none => exact .refl engine
  | some index => exact engine.updateMaster_alike fun _ => rfl

theorem propagate_alike (bytes : Bytes) : (engine.propagate bytes).Alike engine := by
  rw [propagate_eq]
  exact ⟨rfl, rfl, rfl, rfl, rfl⟩

end Around

variable {session : Session} {command : Command} {request : Request}

-- A read that does not block is answered what it finds.
theorem startRead_of_unblocked (engine : Engine) (now : UInt64) {arguments : List String}
    (h : (Request.readStreams arguments).Immediate) :
    engine.startRead now arguments =
      (.answered (engine.run now (.readStreams arguments)).1,
        (engine.run now (.readStreams arguments)).2) := by
  simp only [startRead, run, openRead]
  cases hread : StreamRead.ofArguments {} arguments with
  | error e => rfl
  | ok read =>
      have hblock : read.block = none := h read hread
      simp only [withKeyspace]
      rcases Cursor.resolveAll engine.keyspace now read.starts with ⟨_ | cursors, keyspace⟩
      · rfl
      · simp only [Except.map, hblock]

/-- A request that can be answered at once is started like it is run, with something around it that
    no request can tell. -/
theorem startRequest_immediate (engine : Engine) (now : UInt64) (index : Option Nat)
    (command : Command) (h : request.Immediate) :
    ∃ after, engine.startRequest now index command request =
        (.answered (engine.run now request).1, after) ∧
      after.Alike (engine.run now request).2 := by
  cases request with
  | readStreams arguments =>
      exact ⟨_, engine.startRead_of_unblocked now h, .refl _⟩
  | waitForReplicas wanted timeout => exact absurd h id
  | _ =>
      refine ⟨_, rfl, ?_⟩
      split
      · exact propagate_alike _ _
      · exact .refl _

/-- A session without a transaction is answered what the request comes to, and leaves behind what
    the request does, as far as requests can tell. -/
theorem dispatch_immediate (engine : Engine) (now : UInt64)
    (hrequest : Request.ofCommand command = .ok request) (himmediate : request.Immediate)
    (hclosed : session.transaction = .closed) :
    ∃ after, engine.dispatch session now command =
        (.answered (.ofExcept (engine.run now request).1), after, session) ∧
      after.Alike (engine.run now request).2 := by
  have hrecorded := (engine.record_alike command).run now request
  rcases (engine.record command).2.startRequest_immediate now (engine.record command).1 command
    himmediate with ⟨after, hstart, hafter⟩
  have hhandle : (engine.record command).2.handle session now (engine.record command).1 command =
      _ := handle_of_closed hrequest hclosed
  have hperform : (engine.record command).2.perform session now (engine.record command).1 command
      request = (.answered (.ofExcept (engine.run now request).1), after, session) := by
    rw [← hrecorded.1]
    cases request with
    | beginTransaction | runTransaction | dropTransaction | resync => exact absurd himmediate id
    | replication option arguments => exact absurd himmediate id
    | _ => simp only [perform, hstart]
  rw [hperform] at hhandle
  exact ⟨_, engine.dispatch_of_handle now hhandle,
    ((after.conclude_alike _ _).trans hafter).trans hrecorded.2⟩

end Engine

end KeyValue
