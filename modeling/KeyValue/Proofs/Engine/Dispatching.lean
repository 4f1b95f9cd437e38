import KeyValue.Dispatch
import KeyValue.Proofs.Engine.Requests
import KeyValue.Proofs.Replication.Forwarding

/-!
# What a dispatched command does to an engine

Most of what happens to an engine is bookkeeping: the history grows, readers register and are
woken, a client that waits takes and leaves its place. `Quiet` sums it up: the keyspace is pruned,
and neither the links nor the registered replicas change.

Once it is recorded, a command takes one of four ways (`route`). It is quiet, but for three of
them: a write that is run at once, which is forwarded if it succeeds; a request to wait, which asks
the replicas for acknowledgements; and the queue of a transaction that is run. What a waiting
command does later is always quiet (`resume_quiet`, `giveUp_quiet`).

## Main definitions

* `Engine.Quiet`: Keys may be pruned, and nothing is sent.
* `Engine.Route`, `Engine.route`: The way that a recorded command takes.
* `Engine.Does`: What a dispatched command does.

## Theorems

* `handle_of_quick`, `handle_of_writes`, `handle_of_asks`, `handle_of_runs`: The four ways.
* `dispatch_does`: Every command does one of these.
* `resume_quiet`, `giveUp_quiet`: What a waiting command does.
-/

namespace KeyValue

namespace Engine

/-- Keys may be pruned; nothing is sent, and no replica comes or goes. -/
structure Quiet (before after : Engine) : Prop where
  keyspace : before.keyspace.Prunes after.keyspace
  links : after.links = before.links
  registry : after.registry = before.registry

/-- A quiet change registers no replica, and removes none. -/
theorem Quiet.peers {before after : Engine} (h : Quiet before after) :
    after.peers = before.peers :=
  congrArg Prod.fst h.registry

theorem Quiet.refl (engine : Engine) : Quiet engine engine := ⟨.refl _, rfl, rfl⟩

/-- Two quiet changes in a row are one. -/
theorem Quiet.trans {before middle after : Engine} (h : Quiet before middle)
    (h' : Quiet middle after) : Quiet before after :=
  ⟨h.keyspace.trans h'.keyspace, h'.links.trans h.links, h'.registry.trans h.registry⟩

/-- Pruning keys is quiet. -/
theorem quiet_of_prunes {engine after : Engine}
    (h : ∃ keyspace, engine.keyspace.Prunes keyspace ∧ after = { engine with keyspace }) :
    Quiet engine after := by
  rcases h with ⟨keyspace, hprunes, rfl⟩
  exact ⟨hprunes, rfl, rfl⟩

/-- What readers do in the registry is quiet. -/
theorem quiet_readers (engine : Engine) (readers : Readers) :
    Quiet engine { engine with readers } :=
  ⟨.refl _, rfl, rfl⟩

/-- Changing the state of a master is quiet if no replica comes or goes. -/
theorem quiet_updateMaster (engine : Engine) (update : Master → Master)
    (h : ∀ master, (update master).registry = master.registry) :
    Quiet engine (engine.updateMaster update) := by
  unfold updateMaster
  cases hrole : engine.role with
  | master master => exact ⟨.refl _, rfl, by simp only [registry, hrole, h]⟩
  | replica replica => exact .refl engine

/-- Recording a command only writes down that it came. -/
theorem record_quiet (engine : Engine) (command : Command) :
    Quiet engine (engine.record command).2 := by
  unfold record
  cases hrole : engine.role with
  | master master => exact ⟨.refl _, rfl, by simp only [registry, hrole]; rfl⟩
  | replica replica => exact .refl engine

/-- Concluding a command only marks it in the history. -/
theorem conclude_quiet (engine : Engine) (index : Option Nat) (response : Response) :
    Quiet engine (engine.conclude index response) := by
  cases index with
  | none => exact .refl engine
  | some index => exact quiet_updateMaster engine _ fun _ => rfl

/-- Recording and concluding change the role only. -/
theorem record_role (engine : Engine) (command : Command) :
    ∃ role, (engine.record command).2 = { engine with role } := by
  unfold record
  split
  · exact ⟨_, rfl⟩
  · exact ⟨engine.role, rfl⟩

theorem conclude_role (engine : Engine) (index : Option Nat) (response : Response) :
    ∃ role, engine.conclude index response = { engine with role } := by
  unfold conclude updateMaster
  split
  · split
    · exact ⟨_, rfl⟩
    · exact ⟨engine.role, rfl⟩
  · exact ⟨engine.role, rfl⟩

/-- A wait that leaves has no say in which replicas are registered. -/
theorem leave_registry (master : Master) (wait : AckWait) :
    (master.leave wait).registry = master.registry := by
  unfold Master.leave
  split
  · split <;> rfl
  · rfl

/-- A replica that acknowledges stays registered as it was. -/
theorem recordAck_registry (master : Master) (id : Nat) :
    (master.recordAck id).registry = master.registry := by
  unfold Master.recordAck
  split
  · split <;> rfl
  · rfl

/-- A wait that looks leaves the registry as it was, however often it does. -/
theorem poll_registry {master after : Master} {wait : AckWait}
    (h : master.poll wait = .again after) : after.registry = master.registry := by
  simp only [Master.poll] at h
  split at h
  · split at h
    · split at h
      · simp only [reduceCtorEq] at h
      · split at h
        · simp only [reduceCtorEq] at h
        · rw [← Master.Poll.again.inj h]
          rfl
    · simp only [reduceCtorEq] at h
  · simp only [reduceCtorEq] at h

/-- A reader that looks may remove expired keys on its way, which nobody can tell. -/
theorem look_quiet (engine : Engine) (now : UInt64) (reader : Nat) (cursors : List Cursor)
    (count : Option Nat) : Quiet engine (engine.look now reader cursors count).2 := by
  have hread := quiet_of_prunes (engine.readAll_read now count cursors)
  unfold look
  -- A failure, nothing, and something: only with nothing the reader stays registered.
  rcases hall : engine.readAll now count cursors with ⟨_ | _ | ⟨reply, replies⟩, after⟩
  · rw [hall] at hread
    exact hread.trans (quiet_readers _ _)
  · rw [hall] at hread
    exact hread
  · rw [hall] at hread
    exact hread.trans (quiet_readers _ _)

/-- Starting a read is quiet, also if it waits: the reader that is registered is none of the
    replicas. -/
theorem startRead_quiet (engine : Engine) (now : UInt64) (arguments : List String) :
    Quiet engine (engine.startRead now arguments).2 := by
  have hopen := quiet_of_prunes (engine.openRead_read now arguments)
  unfold startRead
  rcases hopened : engine.openRead now arguments with ⟨_ | ⟨read, cursors⟩, after⟩
  · rw [hopened] at hopen
    exact hopen
  · rw [hopened] at hopen
    simp only
    -- A read that may not wait looks once, and one that may is registered before it looks.
    cases read.block with
    | none => exact hopen.trans (quiet_of_prunes (after.readAll_read now read.count cursors))
    | some ms =>
        have hregister := hopen.trans (quiet_readers after (after.readers.register read.keys).2)
        have hlook := hregister.trans (look_quiet _ now (after.readers.register read.keys).1
          cursors read.count)
        simp only
        rcases hlooked : look { after with readers := (after.readers.register read.keys).2 } now
          (after.readers.register read.keys).1 cursors read.count with ⟨_ | result, last⟩
        · rw [hlooked] at hlook
          exact hlook
        · rw [hlooked] at hlook
          exact hlook

/-- A command that looks for a wake-up is quiet, whatever it waits for. -/
theorem poll_quiet (engine : Engine) (now : UInt64) (waiting : Waiting) :
    Quiet engine (engine.poll now waiting).2 := by
  cases waiting with
  | entries reader cursors count =>
      simp only [poll]
      split
      · exact (quiet_readers engine _).trans (look_quiet _ now reader cursors count)
      · exact .refl engine
  | acks wait =>
      simp only [poll]
      cases hrole : engine.role with
      | replica replica => exact .refl engine
      | master master =>
          simp only
          rcases hpoll : master.poll wait with acks | after | _
          · exact quiet_updateMaster engine _ fun master => leave_registry master wait
          · exact ⟨.refl _, rfl, by simp only [registry, hrole, poll_registry hpoll]⟩
          · exact .refl engine

/-- A command that gives up is quiet, too. -/
theorem expire_quiet (engine : Engine) (now : UInt64) (waiting : Waiting) :
    Quiet engine (engine.expire now waiting).2 := by
  cases waiting with
  | entries reader cursors count =>
      exact (quiet_of_prunes (engine.readAll_read now count cursors)).trans (quiet_readers _ _)
  | acks wait =>
      simp only [expire]
      cases engine.role with
      | replica replica => exact .refl engine
      | master master => exact quiet_updateMaster engine _ fun master => leave_registry master wait

/-- A waiting command that looks for a wake-up is quiet. -/
theorem resume_quiet (engine : Engine) (now : UInt64) (pending : Pending) (index : Option Nat) :
    Quiet engine (engine.resume now pending index).2 := by
  have hpoll := poll_quiet engine now pending.waiting
  unfold resume
  rcases hpolled : engine.poll now pending.waiting with ⟨_ | result, after⟩
  · rw [hpolled] at hpoll
    exact hpoll
  · rw [hpolled] at hpoll
    exact hpoll.trans (conclude_quiet _ _ _)

/-- A waiting command whose time is over is quiet. -/
theorem giveUp_quiet (engine : Engine) (now : UInt64) (pending : Pending) (index : Option Nat) :
    Quiet engine (engine.giveUp now pending index).2 :=
  (expire_quiet engine now pending.waiting).trans (conclude_quiet _ _ _)

/-- What a replica says about itself is not forwarded, and an acknowledgement registers no one. -/
theorem converse_quiet (engine : Engine) (replicaId : Option Nat) (option : String)
    (arguments : List String) :
    Quiet engine (engine.converse replicaId option arguments).2 := by
  unfold converse
  simp only
  split
  · split
    · exact quiet_updateMaster engine _ fun master => recordAck_registry master _
    · exact .refl engine
  · split
    · exact .refl engine
    · split
      · exact .refl engine
      · exact .refl engine

/-- What a write leads to that is run at once: it is forwarded if it succeeds. -/
def runAndForward (engine : Engine) (now : UInt64) (raw : Bytes) (request : Request) : Engine :=
  match engine.run now request with
  | (.ok _, engine) => engine.propagate raw
  | (.error _, engine) => engine

/-- The wait that a request for it leads to, with its time; none if it is answered at once. -/
def waitOf (engine : Engine) (index : Option Nat) (wanted timeout : String) :
    Option (AckWait × UInt64) :=
  match waitNumbers wanted timeout, engine.role, index with
  | .ok (wanted, timeout), .master master, some index =>
    match master.waitTarget index wanted with
    | .inr wait => some (wait, timeout)
    | .inl _ => none
  | _, _, _ => none

/-- The ways that a dispatched command can take. -/
inductive Route where
  /-- Nothing is written and nothing is sent. -/
  | quick
  /-- The replicas are asked for acknowledgements. -/
  | asks (wait : AckWait) (timeout : UInt64)
  /-- A write is run at once. -/
  | writes (request : Request)
  /-- The queue of the transaction is run. -/
  | runs (queue : List Command)

/-- The way that a recorded command of a session takes; `index` is its place in the history. -/
def route (engine : Engine) (session : Session) (index : Option Nat) (command : Command) : Route :=
  match Request.ofCommand command, session.transaction with
  | .error _, _ => .quick
  | .ok .runTransaction, .opened queue => .runs queue
  | .ok _, .opened _ => .quick
  | .ok (.waitForReplicas wanted timeout), .closed =>
    match engine.waitOf index wanted timeout with
    | some (wait, timeout) => .asks wait timeout
    | none => .quick
  | .ok request, .closed => if request.isWrite then .writes request else .quick

variable {engine : Engine} {session : Session} {now : UInt64} {index : Option Nat}
  {command : Command}

/-- A command on the way of a write is one, outside of a transaction. -/
theorem route_writes {request : Request}
    (h : engine.route session index command = .writes request) :
    Request.ofCommand command = .ok request ∧ session.transaction = .closed ∧
      request.isWrite = true := by
  unfold route at h
  split at h
  · simp only [reduceCtorEq] at h
  · simp only [reduceCtorEq] at h
  · simp only [reduceCtorEq] at h
  · split at h <;> simp only [reduceCtorEq] at h
  · split at h
    · rename_i hwrite
      rw [← Route.writes.inj h]
      exact ⟨by assumption, by assumption, hwrite⟩
    · simp only [reduceCtorEq] at h

/-- There is no other condition: such a command does take the way of a write. -/
theorem route_of_write {request : Request} (hrequest : Request.ofCommand command = .ok request)
    (hwrite : request.isWrite = true) (hclosed : session.transaction = .closed) :
    engine.route session index command = .writes request := by
  unfold route
  rw [hrequest, hclosed]
  cases request <;> simp_all [Request.isWrite]

-- A request to wait is quick only if there is nothing to wait for.
theorem waitOf_of_quick {wanted timeout : String}
    (hrequest : Request.ofCommand command = .ok (.waitForReplicas wanted timeout))
    (hclosed : session.transaction = .closed)
    (h : engine.route session index command = .quick) :
    engine.waitOf index wanted timeout = none := by
  simp only [route, hrequest, hclosed] at h
  split at h
  · simp only [reduceCtorEq] at h
  · assumption

/-- A command on the way of a queue is the one that runs it, in the transaction that holds it. -/
theorem route_runs {queue : List Command}
    (h : engine.route session index command = .runs queue) :
    Request.ofCommand command = .ok .runTransaction ∧ session.transaction = .opened queue := by
  unfold route at h
  split at h
  · simp only [reduceCtorEq] at h
  · rw [← Route.runs.inj h]
    exact ⟨by assumption, by assumption⟩
  · simp only [reduceCtorEq] at h
  · split at h <;> simp only [reduceCtorEq] at h
  · split at h <;> simp only [reduceCtorEq] at h

/-- A command that asks the replicas is a request to wait that has something to wait for. -/
theorem route_asks {wait : AckWait} {timeout : UInt64}
    (h : engine.route session index command = .asks wait timeout) :
    ∃ wanted text, Request.ofCommand command = .ok (.waitForReplicas wanted text) ∧
      session.transaction = .closed ∧ engine.waitOf index wanted text = some (wait, timeout) := by
  unfold route at h
  split at h
  · simp only [reduceCtorEq] at h
  · simp only [reduceCtorEq] at h
  · simp only [reduceCtorEq] at h
  · split at h
    · rename_i hwait
      rcases Route.asks.inj h with ⟨rfl, rfl⟩
      exact ⟨_, _, by assumption, by assumption, hwait⟩
    · simp only [reduceCtorEq] at h
  · split at h <;> simp only [reduceCtorEq] at h

/-- Without a wait the request for it is answered at once. -/
theorem startWait_of_none (now : UInt64) {wanted timeout : String}
    (h : engine.waitOf index wanted timeout = none) :
    ∃ result, engine.startWait now index wanted timeout = (.answered result, engine) := by
  unfold waitOf at h
  unfold startWait
  cases hnumbers : waitNumbers wanted timeout with
  | error e => exact ⟨_, rfl⟩
  | ok numbers =>
      rcases numbers with ⟨count, ms⟩
      rw [hnumbers] at h
      simp only
      cases hrole : engine.role with
      | replica replica => exact ⟨_, rfl⟩
      | master master =>
          cases index with
          | none => exact ⟨_, rfl⟩
          | some index =>
              rw [hrole] at h
              simp only at h ⊢
              cases htarget : master.waitTarget index count with
              | inl acks => exact ⟨_, rfl⟩
              | inr wait => simp only [htarget, reduceCtorEq] at h

-- A wait takes its place, and then the replicas are asked.
theorem startWait_of_some {wanted timeout : String} {wait : AckWait} {ms : UInt64}
    (h : engine.waitOf index wanted timeout = some (wait, ms)) :
    engine.startWait now index wanted timeout =
      (.waits ⟨.acks wait, deadlineAfter now ms⟩,
        (engine.updateMaster (·.install wait)).propagate Master.ackRequest) := by
  unfold waitOf at h
  unfold startWait
  split at h
  · rename_i hnumbers hrole
    simp only [hnumbers, hrole]
    split at h
    · rename_i htarget
      rcases Prod.mk.inj (Option.some.inj h) with ⟨rfl, rfl⟩
      simp only [htarget]
    · simp only [reduceCtorEq] at h
  · simp only [reduceCtorEq] at h

/-- In a closed transaction a command is performed at once. -/
theorem handle_of_closed {request : Request} (hrequest : Request.ofCommand command = .ok request)
    (hclosed : session.transaction = .closed) :
    engine.handle session now index command =
      engine.perform session now index command request := by
  unfold handle
  rw [hrequest, hclosed]
  rfl

-- A write that is started is run and forwarded.
theorem startRequest_write (index : Option Nat) {request : Request}
    (hkind : command.name.kind = .write) (hwrite : request.isWrite = true) :
    engine.startRequest now index command request =
      (.answered (engine.run now request).1, engine.runAndForward now command.raw request) := by
  unfold runAndForward
  -- Only a result that is no error is forwarded, on both sides.
  rcases hrun : engine.run now request with ⟨e | reply, after⟩
  · cases request with
    | readStreams arguments => simp [Request.isWrite] at hwrite
    | waitForReplicas wanted timeout => simp [Request.isWrite] at hwrite
    | _ => simp only [startRequest, hrun]
  · cases request with
    | readStreams arguments => simp [Request.isWrite] at hwrite
    | waitForReplicas wanted timeout => simp [Request.isWrite] at hwrite
    | _ => simp only [startRequest, hrun, hkind]

/-- What a session does with a request that any session may send. -/
theorem perform_write (index : Option Nat) {request : Request}
    (hkind : command.name.kind = .write) (hwrite : request.isWrite = true) :
    engine.perform session now index command request =
      (.answered (.ofExcept (engine.run now request).1),
        engine.runAndForward now command.raw request, session) := by
  have hstart : engine.startRequest now index command request = _ :=
    startRequest_write index hkind hwrite
  cases request with
  | set key value options => simp only [perform, hstart]
  | increment key => simp only [perform, hstart]
  | addEntry key id fields => simp only [perform, hstart]
  | _ => simp [Request.isWrite] at hwrite

/-- A write that is run at once is answered with its result. -/
theorem handle_of_writes {request : Request}
    (h : engine.route session index command = .writes request) :
    engine.handle session now index command =
      (.answered (.ofExcept (engine.run now request).1),
        engine.runAndForward now command.raw request, session) := by
  rcases route_writes h with ⟨hrequest, hclosed, hwrite⟩
  have hkind := (Request.kind_eq_write_iff hrequest).mpr hwrite
  rw [handle_of_closed hrequest hclosed, perform_write _ hkind hwrite]

/-- A request to wait that asks the replicas is not answered yet. -/
theorem handle_of_asks {wait : AckWait} {timeout : UInt64}
    (h : engine.route session index command = .asks wait timeout) :
    engine.handle session now index command =
      (.waits ⟨.acks wait, deadlineAfter now timeout⟩ index,
        (engine.updateMaster (·.install wait)).propagate Master.ackRequest, session) := by
  rcases route_asks h with ⟨wanted, text, hrequest, hclosed, hwait⟩
  rw [handle_of_closed hrequest hclosed]
  simp only [perform, startRequest, startWait_of_some hwait]

/-- The queue of a transaction is run, and the transaction is closed. -/
theorem handle_of_runs {queue : List Command}
    (h : engine.route session index command = .runs queue) :
    engine.handle session now index command =
      (.answered (.reply (.array (engine.runQueue now queue).1)), (engine.runQueue now queue).2,
        { session with transaction := .closed }) := by
  rcases route_runs h with ⟨hrequest, hopened⟩
  have hcontrol : command.name.isTransactionControl = true :=
    Request.isTransactionControl_of_run hrequest
  unfold handle
  simp only [hrequest, hcontrol, Bool.not_true, Bool.and_false, Bool.false_eq_true, if_false,
    perform, hopened, Transaction.take]

-- A request that is no write is quiet when it is started, unless it waits for replicas.
theorem startRequest_quiet (engine : Engine) (now : UInt64) (index : Option Nat)
    {request : Request} (hkind : command.name.kind ≠ .write) (hread : request.isWrite = false)
    (hwait : ∀ wanted timeout, request ≠ .waitForReplicas wanted timeout) :
    Quiet engine (engine.startRequest now index command request).2 := by
  have hrun := quiet_of_prunes (engine.run_read now hread)
  cases request with
  | readStreams arguments => exact startRead_quiet engine now arguments
  | waitForReplicas wanted timeout => exact absurd rfl (hwait wanted timeout)
  | _ =>
      simp only [startRequest]
      split
      · rename_i hwrite
        exact absurd hwrite hkind
      · exact hrun

-- A request of a session is quiet, unless it writes, runs a queue or waits for replicas.
theorem perform_quiet (engine : Engine) (session : Session) (now : UInt64) (index : Option Nat)
    {request : Request} (hkind : command.name.kind ≠ .write) (hread : request.isWrite = false)
    (hqueue : request = .runTransaction → session.transaction = .closed)
    (hwait : ∀ wanted timeout, request = .waitForReplicas wanted timeout →
      engine.waitOf index wanted timeout = none) :
    Quiet engine (engine.perform session now index command request).2.1 := by
  cases request with
  | beginTransaction => exact .refl engine
  | dropTransaction => exact .refl engine
  | resync => exact .refl engine
  | replication option arguments => exact converse_quiet engine session.replicaId option arguments
  | runTransaction =>
      -- Without a transaction there is no queue to run.
      simp only [perform, hqueue rfl, Transaction.take]
      exact .refl engine
  | waitForReplicas wanted timeout =>
      rcases startWait_of_none now (hwait wanted timeout rfl) with ⟨result, hstart⟩
      simp only [perform, startRequest, hstart]
      exact .refl engine
  | _ =>
      -- The rest is started, and is answered or waits.
      have hstart := startRequest_quiet engine now index hkind hread (by simp)
      simp only [perform]
      split
      · rename_i hstarted
        rw [hstarted] at hstart
        exact hstart
      · rename_i hstarted
        rw [hstarted] at hstart
        exact hstart

/-- A quick command is quiet. -/
theorem handle_of_quick (now : UInt64) (h : engine.route session index command = .quick) :
    Quiet engine (engine.handle session now index command).2.1 := by
  unfold route at h
  unfold handle
  cases hrequest : Request.ofCommand command with
  | error e => exact .refl _
  | ok request =>
      rw [hrequest] at h
      simp only
      split
      · -- The command is queued, or refused as one that cannot be.
        split <;> exact .refl _
      · -- It is performed: the transaction is closed, or the command opens or closes one.
        rename_i hopen
        have hcontrol : ∀ queue, session.transaction = .opened queue →
            request = .beginTransaction ∨ request = .runTransaction ∨
              request = .dropTransaction := by
          intro queue htransaction
          refine Request.eq_of_isTransactionControl hrequest ?_
          simpa [htransaction, Transaction.isOpen] using hopen
        have hread : request.isWrite = false := by
          cases htransaction : session.transaction with
          | opened queue => rcases hcontrol queue htransaction with rfl | rfl | rfl <;> rfl
          | closed =>
              rw [htransaction] at h
              cases request <;> first
                | rfl
                | simp [Request.isWrite] at h
        have hkind : command.name.kind ≠ .write := by
          rw [ne_eq, Request.kind_eq_write_iff hrequest, hread]
          simp
        refine perform_quiet _ session now _ hkind hread ?_ ?_
        · rintro rfl
          cases htransaction : session.transaction with
          | closed => rfl
          | opened queue => simp [htransaction] at h
        · rintro wanted timeout rfl
          cases htransaction : session.transaction with
          | opened queue => simpa using hcontrol queue htransaction
          | closed =>
              rw [htransaction] at h
              simp only at h
              split at h
              · simp only [reduceCtorEq] at h
              · assumption

/-- A command is recorded and handled; what it does afterwards is quiet. -/
theorem dispatch_handle (engine : Engine) (session : Session) (now : UInt64) (command : Command) :
    Quiet
      ((engine.record command).2.handle session now (engine.record command).1 command).2.1
      (engine.dispatch session now command).2.1 := by
  unfold dispatch
  simp only
  split
  · rename_i hhandled
    rw [hhandled]
    exact conclude_quiet _ _ _
  · rename_i hhandled
    rw [hhandled]
    exact .refl _

/-- What a dispatched command does. -/
inductive Does (engine : Engine) (session : Session) (now : UInt64) (command : Command) :
    Engine → Prop where
  | quiet {after : Engine} (h : Quiet engine after) : Does engine session now command after
  /-- The replicas are asked for acknowledgements. -/
  | asks {middle after : Engine} (h : Quiet engine middle)
      (h' : Quiet (middle.propagate Master.ackRequest) after) :
      Does engine session now command after
  /-- A write is run at once. -/
  | writes {request : Request} {middle after : Engine} (h : Quiet engine middle)
      (hclosed : session.transaction.isOpen = false)
      (hrequest : Request.ofCommand command = .ok request) (hwrite : request.isWrite = true)
      (h' : Quiet (middle.runAndForward now command.raw request) after) :
      Does engine session now command after
  /-- The queue of the transaction is run. -/
  | runs {queue : List Command} {middle after : Engine} (h : Quiet engine middle)
      (hopen : session.transaction = .opened queue)
      (hrequest : Request.ofCommand command = .ok .runTransaction)
      (h' : Quiet (middle.runQueue now queue).2 after) :
      Does engine session now command after

/-- Every command does one of these. -/
theorem dispatch_does (engine : Engine) (session : Session) (now : UInt64) (command : Command) :
    Does engine session now command (engine.dispatch session now command).2.1 := by
  have hrecord := record_quiet engine command
  have hlast := dispatch_handle engine session now command
  cases h : (engine.record command).2.route session (engine.record command).1 command with
  | quick => exact .quiet ((hrecord.trans (handle_of_quick now h)).trans hlast)
  | asks wait timeout =>
      rw [handle_of_asks h] at hlast
      refine .asks (hrecord.trans ?_) hlast
      exact quiet_updateMaster (engine.record command).2 (·.install wait) fun _ => rfl
  | writes request =>
      rcases route_writes h with ⟨hrequest, hclosed, hwrite⟩
      rw [handle_of_writes h] at hlast
      exact .writes hrecord (by rw [hclosed]; rfl) hrequest hwrite hlast
  | runs queue =>
      rcases route_runs h with ⟨hrequest, hopened⟩
      rw [handle_of_runs h] at hlast
      exact .runs hrecord hopened hrequest hlast

end Engine

end KeyValue
