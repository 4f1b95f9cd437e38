import KeyValue.Dispatch
import KeyValue.Proofs.Engine.Requests
import KeyValue.Proofs.Replication.Forwarding

/-!
# What a server is set up with

A server is a master or a replica from its start to its end, and no command changes its
configuration, which snapshot file it has, or what it announces as a master (`SameSetup`). What
commands change of the role is the rest of the state of a master.

## Main definitions

* `Engine.announced`: What a master announces to a new replica.
* `Engine.SameSetup`: The configuration, the snapshot file and what is announced are the same.

## Theorems

* `SameSetup.side`: It stays a master, or a replica.
* `dispatch_setup`, `resume_setup`, `giveUp_setup`: Commands change none of them.
-/

namespace KeyValue

namespace Master

variable (master : Master)

/-- The id and the offset that a master announces to a new replica. -/
def announced : String × UInt64 := (master.replicationId, master.offset)

/-- To leave the place of a wait changes neither the id of the master nor its offset. -/
theorem leave_announced (wait : AckWait) : (master.leave wait).announced = master.announced := by
  unfold leave
  split
  · split <;> rfl
  · rfl

/-- An acknowledgement counts for a client that waits, and not for the offset. -/
theorem recordAck_announced (id : Nat) : (master.recordAck id).announced = master.announced := by
  unfold recordAck
  split
  · split <;> rfl
  · rfl

/-- A wait that goes on looking has used up a signal, and nothing else. -/
theorem poll_announced {master after : Master} {wait : AckWait}
    (h : master.poll wait = .again after) : after.announced = master.announced := by
  simp only [poll] at h
  split at h
  · split at h
    · split at h
      · simp only [reduceCtorEq] at h
      · split at h
        · simp only [reduceCtorEq] at h
        · rw [← Poll.again.inj h]
          rfl
    · simp only [reduceCtorEq] at h
  · simp only [reduceCtorEq] at h

end Master

namespace Engine

/-- What a master announces to a new replica; a replica announces nothing. -/
def announced (engine : Engine) : Option (String × UInt64) :=
  engine.role.master?.map (·.announced)

/-- The configuration and the snapshot file are the same, and so is what is announced. -/
structure SameSetup (before after : Engine) : Prop where
  config : after.config = before.config
  file : after.file = before.file
  announced : after.announced = before.announced

namespace SameSetup

/-- Whether there is something to announce tells a master from a replica. -/
theorem side {before after : Engine} (h : SameSetup before after) :
    after.role.master?.isSome = before.role.master?.isSome := by
  have hannounced := congrArg Option.isSome h.announced
  simpa only [Engine.announced, Option.isSome_map] using hannounced

theorem refl (engine : Engine) : SameSetup engine engine := ⟨rfl, rfl, rfl⟩

theorem trans {before middle after : Engine} (h : SameSetup before middle)
    (h' : SameSetup middle after) : SameSetup before after :=
  ⟨h'.config.trans h.config, h'.file.trans h.file, h'.announced.trans h.announced⟩

/-- The keyspace and the readers are not part of it. -/
theorem of_frame {engine after : Engine} {keyspace : Keyspace} {readers : Readers}
    (h : after = { engine with keyspace, readers }) : SameSetup engine after := by
  rw [h]
  exact ⟨rfl, rfl, rfl⟩

end SameSetup

variable (engine : Engine) (now : UInt64)

/-- The state of a master may change in all that it does not announce. -/
theorem updateMaster_setup {update : Master → Master}
    (h : ∀ master : Master, (update master).announced = master.announced) :
    SameSetup engine (engine.updateMaster update) := by
  unfold updateMaster
  cases hrole : engine.role with
  | master master =>
      refine ⟨rfl, rfl, ?_⟩
      simp only [announced, hrole, Role.master?, Option.map_some, h]
  | replica replica => exact .refl engine

/-- A recorded command is put in the history, which is not announced. -/
theorem record_setup (command : Command) : SameSetup engine (engine.record command).2 := by
  unfold record
  cases hrole : engine.role with
  | master master =>
      refine ⟨rfl, rfl, ?_⟩
      simp only [announced, hrole]
      rfl
  | replica replica => exact .refl engine

/-- To mark a command in the history as a success or not is no change of what is announced. -/
theorem conclude_setup (index : Option Nat) (response : Response) :
    SameSetup engine (engine.conclude index response) := by
  cases index with
  | none => exact .refl engine
  | some index => exact engine.updateMaster_setup fun _ => rfl

/-- What is forwarded is written to the links; a master does not count it in its offset. -/
theorem propagate_setup (bytes : Bytes) : SameSetup engine (engine.propagate bytes) := by
  rw [propagate_eq]
  exact ⟨rfl, rfl, rfl⟩

/-- A request changes the keyspace and wakes readers, and nothing else. -/
theorem run_setup (request : Request) : SameSetup engine (engine.run now request).2 := by
  rcases engine.run_frame now request with ⟨keyspace, readers, hrun⟩
  exact .of_frame hrun

/-- Each command of a queue changes the keyspace and wakes readers, too. -/
theorem runQueue_setup (queue : List Command) :
    ∀ engine : Engine, SameSetup engine (engine.runQueue now queue).2 := by
  induction queue with
  | nil => exact .refl
  | cons command rest ih =>
      intro engine
      rcases engine.runCommand_frame now command with ⟨keyspace, readers, hcommand⟩
      exact (SameSetup.of_frame hcommand).trans (ih _)

/-- A reader that looks may prune the keyspace, and leaves the registry of readers if it is
    answered. -/
theorem look_setup (reader : Nat) (cursors : List Cursor) (count : Option Nat) :
    SameSetup engine (engine.look now reader cursors count).2 := by
  unfold look
  rcases engine.readAll_read now count cursors with ⟨keyspace, -, hread⟩
  rcases hall : engine.readAll now count cursors with ⟨_ | _ | ⟨reply, replies⟩, after⟩ <;>
    rw [hall] at hread <;> subst hread
  all_goals exact ⟨rfl, rfl, rfl⟩

/-- Starting a read resolves where it begins, registers its reader and looks. -/
theorem startRead_setup (arguments : List String) :
    SameSetup engine (engine.startRead now arguments).2 := by
  unfold startRead
  rcases engine.openRead_read now arguments with ⟨keyspace, -, hopen⟩
  rcases hresult : engine.openRead now arguments with ⟨_ | ⟨read, cursors⟩, after⟩ <;>
    rw [hresult] at hopen
  · exact .of_frame hopen
  · have hopened : SameSetup engine after := .of_frame hopen
    simp only
    cases read.block with
    | none =>
        rcases after.readAll_read now read.count cursors with ⟨keyspace, -, hread⟩
        exact hopened.trans (.of_frame hread)
    | some ms =>
        -- The reader is registered before it looks.
        have hlook := look_setup { after with readers := (after.readers.register read.keys).2 } now
          (after.readers.register read.keys).1 cursors read.count
        have hregister : SameSetup after
            { after with readers := (after.readers.register read.keys).2 } := ⟨rfl, rfl, rfl⟩
        simp only
        split <;> (rename_i hlooked; rw [hlooked] at hlook)
        · exact (hopened.trans hregister).trans hlook
        · exact (hopened.trans hregister).trans hlook

/-- Starting a wait for replicas takes the place and asks the replicas. -/
theorem startWait_setup (index : Option Nat) (wanted timeout : String) :
    SameSetup engine (engine.startWait now index wanted timeout).2 := by
  unfold startWait
  split
  · exact .refl engine
  · split
    · split
      · exact .refl engine
      · rename_i wait _
        have hinstall : engine.SameSetup (engine.updateMaster (·.install wait)) :=
          engine.updateMaster_setup fun _ => rfl
        exact hinstall.trans (propagate_setup _ _)
    · exact .refl engine

/-- Only the two requests that may wait are started in a way of their own; all others are run. -/
theorem startRequest_setup (index : Option Nat) (command : Command) (request : Request) :
    SameSetup engine (engine.startRequest now index command request).2 := by
  cases request with
  | readStreams arguments => exact engine.startRead_setup now arguments
  | waitForReplicas wanted timeout => exact engine.startWait_setup now index wanted timeout
  | _ =>
      simp only [startRequest]
      split
      · exact (engine.run_setup now _).trans (propagate_setup _ _)
      · exact engine.run_setup now _

/-- Of what replicas say only an acknowledgement changes the state of a master. -/
theorem converse_setup (replicaId : Option Nat) (option : String) (arguments : List String) :
    SameSetup engine (engine.converse replicaId option arguments).2 := by
  unfold converse
  simp only
  split
  · split
    · exact engine.updateMaster_setup fun master => master.recordAck_announced _
    · exact .refl engine
  · split
    · exact .refl engine
    · split <;> exact .refl engine

/-- Performing a request is starting it, but for the requests about transactions and replicas. -/
theorem perform_setup (session : Session) (index : Option Nat) (command : Command)
    (request : Request) :
    SameSetup engine (engine.perform session now index command request).2.1 := by
  cases request with
  | beginTransaction => exact .refl engine
  | dropTransaction => exact .refl engine
  | resync => exact .refl engine
  | replication option arguments => exact engine.converse_setup session.replicaId option arguments
  | runTransaction =>
      simp only [perform]
      split
      · exact .refl engine
      · exact runQueue_setup now _ engine
  | _ =>
      simp only [perform]
      split
      all_goals
        rename_i hstarted
        have hafter := congrArg Prod.snd hstarted
        simp only at hafter
        rw [← hafter]
        exact engine.startRequest_setup now index command _

/-- A command that is refused or queued is not performed, and changes nothing here. -/
theorem handle_setup (session : Session) (index : Option Nat) (command : Command) :
    SameSetup engine (engine.handle session now index command).2.1 := by
  unfold handle
  split
  · exact .refl engine
  · split
    · split <;> exact .refl engine
    · exact engine.perform_setup now session index command _

/-- A command changes neither the configuration nor what is announced. -/
theorem dispatch_setup (session : Session) (command : Command) :
    SameSetup engine (engine.dispatch session now command).2.1 := by
  have hhandle := handle_setup (engine.record command).2 now session (engine.record command).1
    command
  unfold dispatch
  simp only
  split <;> (rename_i hhandled; rw [hhandled] at hhandle)
  · exact ((engine.record_setup command).trans hhandle).trans (conclude_setup _ _ _)
  · exact (engine.record_setup command).trans hhandle

/-- A command that waits looks for a wake-up, and uses it up. -/
theorem poll_setup (waiting : Waiting) : SameSetup engine (engine.poll now waiting).2 := by
  cases waiting with
  | entries reader cursors count =>
      simp only [poll]
      split
      · have hconsume : SameSetup engine
            { engine with readers := engine.readers.consume reader } := ⟨rfl, rfl, rfl⟩
        exact hconsume.trans (look_setup _ now reader cursors count)
      · exact .refl engine
  | acks wait =>
      simp only [poll]
      cases hrole : engine.role with
      | replica replica => exact .refl engine
      | master master =>
          simp only
          split
          · exact engine.updateMaster_setup fun master => master.leave_announced _
          · rename_i hpoll
            refine ⟨rfl, rfl, ?_⟩
            simp only [announced, hrole, Role.master?, Option.map_some,
              Master.poll_announced hpoll]
          · exact .refl engine

/-- A read that gives up looks at its streams once more; a wait for replicas leaves the place. -/
theorem expire_setup (waiting : Waiting) : SameSetup engine (engine.expire now waiting).2 := by
  cases waiting with
  | entries reader cursors count =>
      rcases engine.readAll_read now count cursors with ⟨keyspace, -, hread⟩
      exact (SameSetup.of_frame hread).trans ⟨rfl, rfl, rfl⟩
  | acks wait =>
      simp only [expire]
      split
      · exact .refl engine
      · exact engine.updateMaster_setup fun master => master.leave_announced _

/-- A command that is answered in the end is concluded like any other. -/
theorem resume_setup (pending : Pending) (index : Option Nat) :
    SameSetup engine (engine.resume now pending index).2 := by
  have hpoll := engine.poll_setup now pending.waiting
  unfold resume
  split <;> (rename_i hpolled; rw [hpolled] at hpoll)
  · exact hpoll
  · exact hpoll.trans (conclude_setup _ _ _)

theorem giveUp_setup (pending : Pending) (index : Option Nat) :
    SameSetup engine (engine.giveUp now pending index).2 :=
  (engine.expire_setup now pending.waiting).trans (conclude_setup _ _ _)

end Engine

end KeyValue
