import KeyValue.Proofs.Engine.Dispatching
import KeyValue.Proofs.Replication.Counting

/-!
# Commands that the state of a master heeds

Of all commands that a session sends, only two kinds leave a trace in the state of a master besides
their own entry in the history: a request to wait that asks the replicas, and the acknowledgement of
a registered replica. Whatever else a command does, the state stays as it is (`handle_role`).

A request to wait that does not ask is answered at once. After a write the answer is the count of
acknowledgements for it, or zero without replicas (`acks_of_handle`).

## Main definitions

* `Session.acknowledgesAs?`: The replica that a command acknowledges for.
* `Engine.Heeds`: The command is the acknowledgement of a registered replica.

## Theorems

* `handle_of_acknowledges`: An acknowledgement is handled.
* `handle_role`: What other commands leave alone.
* `handle_waits`: What other commands wait for.
* `route_of_wait`: When a request to wait asks, and for what.
* `acks_of_handle`: What it is answered if it does not.
-/

namespace KeyValue

/-- The id of the replica that a command of a session acknowledges for, with an offset that can be
    read; none if the command says nothing of the kind, or is queued. -/
def Session.acknowledgesAs? (session : Session) (command : Command) : Option Nat :=
  match Request.ofCommand command, session.transaction with
  | .ok (.replication option arguments), .closed =>
    if option.toLower = "ack" ∧ (arguments.head?.bind Decimal.uint64?).isSome then session.replicaId
    else none
  | _, _ => none

namespace Engine

/-- The command is the acknowledgement of a replica that is registered. -/
def Heeds (engine : Engine) (session : Session) (command : Command) : Prop :=
  ∃ id master, session.acknowledgesAs? command = some id ∧ engine.role = .master master ∧
    master.admits id = true

section Role

variable (engine : Engine) (now : UInt64)

/-- Forwarding writes to the links and leaves the role. -/
theorem propagate_role (bytes : Bytes) : (engine.propagate bytes).role = engine.role := by
  rw [propagate_eq]

theorem run_role (request : Request) : (engine.run now request).2.role = engine.role := by
  rcases engine.run_frame now request with ⟨keyspace, readers, hrun⟩
  rw [hrun]

theorem runQueue_role (queue : List Command) :
    ∀ engine : Engine, (engine.runQueue now queue).2.role = engine.role := by
  induction queue with
  | nil => exact fun _ => rfl
  | cons command rest ih =>
      intro engine
      rcases engine.runCommand_frame now command with ⟨keyspace, readers, hcommand⟩
      exact (ih (engine.runCommand now command).2).trans (by rw [hcommand])

/-- A reader that looks leaves the role, whatever it finds. -/
theorem look_role (reader : Nat) (cursors : List Cursor) (count : Option Nat) :
    (engine.look now reader cursors count).2.role = engine.role := by
  unfold look
  rcases engine.readAll_read now count cursors with ⟨keyspace, -, hread⟩
  rcases hall : engine.readAll now count cursors with ⟨_ | _ | ⟨reply, replies⟩, after⟩ <;>
    rw [hall] at hread <;> subst hread
  all_goals rfl

theorem startRead_role (arguments : List String) :
    (engine.startRead now arguments).2.role = engine.role := by
  unfold startRead
  rcases engine.openRead_read now arguments with ⟨keyspace, -, hopen⟩
  rcases hresult : engine.openRead now arguments with ⟨_ | ⟨read, cursors⟩, after⟩ <;>
    rw [hresult] at hopen <;> subst hopen
  · rfl
  · simp only
    cases read.block with
    | none =>
        rcases readAll_read { engine with keyspace } now read.count cursors with ⟨last, -, hread⟩
        rw [hread]
    | some ms =>
        -- The reader is registered before it looks.
        have hlook := look_role
          { engine with keyspace, readers := (engine.readers.register read.keys).2 } now
          (engine.readers.register read.keys).1 cursors read.count
        simp only
        split
        · rename_i hlooked
          rwa [hlooked] at hlook
        · rename_i hlooked
          rwa [hlooked] at hlook

/-- Waiting for entries is nothing that the state of a master heeds. -/
theorem poll_role (reader : Nat) (cursors : List Cursor) (count : Option Nat) :
    (engine.poll now (.entries reader cursors count)).2.role = engine.role := by
  simp only [poll]
  split
  · exact look_role _ now reader cursors count
  · rfl

theorem expire_role (reader : Nat) (cursors : List Cursor) (count : Option Nat) :
    (engine.expire now (.entries reader cursors count)).2.role = engine.role := rfl

/-- Only a request to wait changes the role when it is started. -/
theorem startRequest_role (index : Option Nat) (command : Command) {request : Request}
    (hwait : ∀ wanted timeout, request ≠ .waitForReplicas wanted timeout) :
    (engine.startRequest now index command request).2.role = engine.role := by
  cases request with
  | readStreams arguments => exact engine.startRead_role now arguments
  | waitForReplicas wanted timeout => exact absurd rfl (hwait wanted timeout)
  | _ =>
      simp only [startRequest]
      split
      · exact (propagate_role _ _).trans (run_role _ _ _)
      · exact run_role _ _ _

end Role

variable {engine : Engine} {session : Session} {index : Option Nat} {command : Command}
  (now : UInt64)

/-- An acknowledgement that is not queued is handled by counting it, and has no answer. -/
theorem handle_of_acknowledges {id : Nat} (h : session.acknowledgesAs? command = some id) :
    engine.handle session now index command =
      (.answered .silent, engine.updateMaster (·.recordAck id), session) := by
  unfold Session.acknowledgesAs? at h
  split at h
  · rename_i option arguments hrequest hclosed
    split at h
    · rename_i hack
      rcases Option.isSome_iff_exists.mp hack.2 with ⟨offset, hoffset⟩
      rw [handle_of_closed hrequest hclosed]
      simp only [perform, converse, hack.1, if_true, h, hoffset]
    · simp only [reduceCtorEq] at h
  · simp only [reduceCtorEq] at h

/-- What a replica says changes the role only if it is an acknowledgement that is heeded. -/
theorem converse_role {option : String} {arguments : List String}
    (hrequest : Request.ofCommand command = .ok (.replication option arguments))
    (hclosed : session.transaction = .closed) (hheeds : ¬engine.Heeds session command) :
    (engine.converse session.replicaId option arguments).2.role = engine.role := by
  simp only [converse]
  split
  · rename_i hack
    split
    · rename_i id offset hid hoffset
      -- The replica is not registered, or this is no master.
      have hacknowledges : session.acknowledgesAs? command = some id := by
        simp only [Session.acknowledgesAs?, hrequest, hclosed, hack, hoffset, Option.isSome_some,
          and_self, if_true, hid]
      cases hrole : engine.role with
      | replica replica => simp only [updateMaster, hrole]
      | master master =>
          have hadmits : ¬master.admits id = true := fun hadmits =>
            hheeds ⟨id, master, hacknowledges, hrole, hadmits⟩
          simp only [updateMaster, hrole, Master.recordAck_eq, if_neg hadmits]
    · rfl
  · split
    · rfl
    · split <;> rfl

/-- Of all that is performed only acknowledgements and requests to wait can change the role. -/
theorem perform_role {request : Request}
    (hwords : ∀ option arguments, request = .replication option arguments →
      (engine.converse session.replicaId option arguments).2.role = engine.role)
    (hwait : ∀ wanted timeout, request = .waitForReplicas wanted timeout →
      engine.waitOf index wanted timeout = none) :
    (engine.perform session now index command request).2.1.role = engine.role := by
  have hstart := @startRequest_role engine now index command request
  cases request with
  | beginTransaction => rfl
  | dropTransaction => rfl
  | resync => rfl
  | runTransaction =>
      simp only [perform]
      split
      · rfl
      · exact runQueue_role now _ engine
  | replication option arguments => exact hwords option arguments rfl
  | waitForReplicas wanted timeout =>
      rcases startWait_of_none now (hwait wanted timeout rfl) with ⟨result, hstart⟩
      simp only [perform, startRequest, hstart]
  | _ =>
      -- The rest is started, and is answered or waits.
      have hstart := hstart (by simp)
      simp only [perform]
      split <;> (rename_i hstarted; rwa [hstarted] at hstart)

/-- Only the commands that control a transaction are performed in an open one. -/
theorem closed_of_performed {request : Request} (hrequest : Request.ofCommand command = .ok request)
    (hperformed : ¬(session.transaction.isOpen && !command.name.isTransactionControl) = true)
    (hother : request ≠ .beginTransaction ∧ request ≠ .runTransaction ∧
      request ≠ .dropTransaction) : session.transaction = .closed := by
  cases htransaction : session.transaction with
  | closed => rfl
  | opened queue =>
      have hcontrol : command.name.isTransactionControl = true := by
        simpa [htransaction, Transaction.isOpen] using hperformed
      rcases Request.eq_of_isTransactionControl hrequest hcontrol with rfl | rfl | rfl <;>
        simp at hother

-- A request to wait that does not ask has nothing to wait for.
theorem waitOf_eq_none {wanted timeout : String}
    (hasks : ∀ wait ms, engine.route session index command ≠ .asks wait ms)
    (hrequest : Request.ofCommand command = .ok (.waitForReplicas wanted timeout))
    (hclosed : session.transaction = .closed) : engine.waitOf index wanted timeout = none := by
  cases hwait : engine.waitOf index wanted timeout with
  | none => rfl
  | some wait =>
      refine absurd ?_ (hasks wait.1 wait.2)
      simp only [route, hrequest, hclosed, hwait]

/-- A command that does not ask the replicas, and is not the acknowledgement of one that is
    registered, leaves the state of a master as it is. -/
theorem handle_role (hasks : ∀ wait ms, engine.route session index command ≠ .asks wait ms)
    (hheeds : ¬engine.Heeds session command) :
    (engine.handle session now index command).2.1.role = engine.role := by
  unfold handle
  cases hrequest : Request.ofCommand command with
  | error e => rfl
  | ok request =>
      simp only
      split
      · split <;> rfl
      · rename_i hperformed
        refine perform_role now ?_ ?_
        · rintro option arguments rfl
          exact converse_role hrequest (closed_of_performed hrequest hperformed (by simp)) hheeds
        · rintro wanted timeout rfl
          exact waitOf_eq_none hasks hrequest (closed_of_performed hrequest hperformed (by simp))

-- Whoever reads waits for entries.
theorem startRead_waits {arguments : List String} {pending : Pending} {after : Engine}
    (h : engine.startRead now arguments = (.waits pending, after)) :
    ∃ reader cursors count, pending.waiting = .entries reader cursors count := by
  unfold startRead at h
  split at h
  · simp at h
  · split at h
    · simp at h
    · simp only at h
      split at h
      · simp at h
      · rw [← (Progress.waits.inj (Prod.mk.inj h).1)]
        exact ⟨_, _, _, rfl⟩

/-- A command that waits without asking the replicas waits for entries, and is no request to wait for
    replicas. -/
theorem handle_waits (hasks : ∀ wait ms, engine.route session index command ≠ .asks wait ms)
    {pending : Pending} {place : Option Nat} {after : Engine} {next : Session}
    (h : engine.handle session now index command = (.waits pending place, after, next)) :
    (∃ reader cursors count, pending.waiting = .entries reader cursors count) ∧
      command.name ≠ .wait := by
  unfold handle at h
  split at h
  · simp at h
  · rename_i request hrequest
    split at h
    · split at h <;> simp at h
    · rename_i hperformed
      cases request with
      | readStreams arguments =>
          simp only [perform, startRequest] at h
          split at h
          · simp at h
          · rename_i hstarted
            rcases Prod.mk.inj h with ⟨hwaits, -⟩
            rw [← (Dispatch.waits.inj hwaits).1]
            refine ⟨startRead_waits now hstarted, fun hname => ?_⟩
            rcases Request.eq_waitForReplicas hname hrequest with ⟨wanted, timeout, hwait⟩
            simp only [reduceCtorEq] at hwait
      | waitForReplicas wanted timeout =>
          -- A request to wait that does not ask is answered.
          have hnone := waitOf_eq_none hasks hrequest
            (closed_of_performed hrequest hperformed (by simp))
          rcases startWait_of_none now hnone with ⟨result, hstart⟩
          simp [perform, startRequest, hstart] at h
      | runTransaction =>
          simp only [perform] at h
          split at h <;> simp at h
      | _ => simp [perform, startRequest] at h

section Waiting

variable {master : Master} {target : Nat} (hrole : engine.role = .master master)
include hrole

/-- A request to wait asks, if there is a replica, the command right before it is a write and more
    acknowledgements are wanted than there are. -/
theorem route_of_wait {wanted timeout : String} {count : Nat} {ms : UInt64}
    (hrequest : Request.ofCommand command = .ok (.waitForReplicas wanted timeout))
    (hnumbers : waitNumbers wanted timeout = .ok (count, ms))
    (hclosed : session.transaction = .closed) (hpeers : master.peers ≠ [])
    (hwrite : master.history.kind? target = some .write)
    (hacks : master.history.ackCount target < count) :
    engine.route session (some (target + 1)) command = .asks ⟨target, count⟩ ms := by
  have htarget : master.waitTarget (target + 1) count = .inr ⟨target, count⟩ := by
    rw [Master.waitTarget_of_write hpeers hwrite, if_neg (Nat.not_le.mpr hacks)]
  simp only [route, hrequest, hclosed, waitOf, hnumbers, hrole, htarget]

/-- What a request to wait asks for is the write right before it. -/
theorem target_of_asks {index : Nat} {wait : AckWait} {ms : UInt64}
    (h : engine.route session (some index) command = .asks wait ms) :
    index = wait.target + 1 ∧ master.history.kind? wait.target = some .write := by
  rcases route_asks h with ⟨wanted, text, -, -, hwait⟩
  simp only [waitOf, hrole] at hwait
  split at hwait
  · rename_i hmaster hindex
    obtain rfl := Role.master.inj hmaster
    obtain rfl := Option.some.inj hindex
    split at hwait
    · rename_i htarget
      rw [(Prod.mk.inj (Option.some.inj hwait)).1] at htarget
      rcases Master.waitTarget_eq_inr htarget with ⟨hnext, -, hwrite, -⟩
      exact ⟨hnext, hwrite⟩
    · simp only [reduceCtorEq] at hwait
  · simp only [reduceCtorEq] at hwait

/-- The number that a request to wait right after a write is answered with at once is the count of
    acknowledgements for the write; or zero, without replicas. -/
theorem acks_of_handle {number : Int64} {after : Engine} {next : Session}
    (hname : command.name = .wait) (hwrite : master.history.kind? target = some .write)
    (h : engine.handle session now (some (target + 1)) command =
      (.answered (.reply (.integer number)), after, next)) :
    ∃ acks, Reply.integer number = countReply acks ∧
      (acks = 0 ∨ acks = master.history.ackCount target) := by
  unfold handle at h
  split at h
  · -- A wrong number of arguments is refused with a text.
    simp [Response.refusal, Reply.ofError] at h
  · rename_i request hrequest
    split at h
    · -- A queued command is answered with a text.
      split at h <;> simp [Response.refusal, Reply.ofError] at h
    · rcases Request.eq_waitForReplicas hname hrequest with ⟨wanted, timeout, rfl⟩
      simp only [perform, startRequest, startWait, hrole] at h
      cases hnumbers : waitNumbers wanted timeout with
      | error e =>
          simp [hnumbers, Response.ofExcept, Reply.ofExcept, Reply.ofError] at h
      | ok numbers =>
          rcases numbers with ⟨count, ms⟩
          simp only [hnumbers] at h
          cases htarget : master.waitTarget (target + 1) count with
          | inr wait => simp [htarget] at h
          | inl acks =>
              simp only [htarget, Response.ofExcept, Reply.ofExcept, Prod.mk.injEq,
                Dispatch.answered.injEq, Response.reply.injEq] at h
              exact ⟨acks, h.1.symm, Master.waitTarget_eq_inl hwrite htarget⟩

end Waiting

end Engine

end KeyValue
