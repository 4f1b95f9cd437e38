import KeyValue.Proofs.Engine.Answers
import KeyValue.Proofs.Engine.Indexing
import KeyValue.Proofs.Engine.Queueing

/-!
# Every place that a command names is there

A command comes to its handler in three ways: a session sends it, it is taken from the queue of a
transaction, or the master sends it. The number of its words is checked once: before it is run or
queued, and before it is applied. It is not checked again when the queue runs, so what was queued
has to be remembered as checked (`Session.Accepted`): no other command ever comes into a queue.

Written with operations that may run into a fault, everything that the server does for a command
runs into none. Each command is answered or waits, and whoever waits is answered or goes on waiting.
A command from a queue or from the master does not wait.

## Main definitions

* `Places.execute`, `Places.runCommand`, `Places.runQueue`: Handlers are run.
* `Places.dispatch`, `Places.apply`: A session or the master sends a command.
* `Places.resume`, `Places.giveUp`: A waiting command goes on.
* `Session.Accepted`: What a session has queued was checked.
* `Session.Reachable`: The sessions that a server can have.

## Theorems

* `runCommand_eq`, `dispatch_eq`, `apply_eq`: The three ways run into no fault.
* `resume_eq`, `giveUp_eq`: Nor does a command that waits.
* `Session.Reachable.accepted`: Only checked commands are queued.
* `Session.Reachable.in_bounds`: Nothing that a server does for a command runs into a fault.
-/

namespace KeyValue

/-- Every command that the session has queued was checked. -/
def Session.Accepted (session : Session) : Prop :=
  ∀ queued ∈ session.transaction.queue, queued.checkArity = .ok ()

namespace Places

/-- A write that a session sent is forwarded if it succeeds. -/
def forward (engine : Engine) (command : Command) (context : Context) (progress : Progress) :
    Engine :=
  match context, progress, command.name.kind with
  | .sent _, .answered (.ok _), .write => engine.propagate command.raw
  | _, _, _ => engine

/-- Run the handler of a command, if it has one. -/
def execute (engine : Engine) (now : UInt64) (command : Command) (context : Context) :
    Checked (Progress × Engine) :=
  match handler? command.name with
  | none => .ok (answered (.error (Engine.notAllowedHere command.name), engine))
  | some handler => do
    let (progress, engine) ← handler engine now command.args context
    return (progress, forward engine command context progress)

/-- Run a command from a queue or from the master, whose words are not counted again. -/
def runCommand (engine : Engine) (now : UInt64) (command : Command) :
    Checked (Reply × Engine) := do
  match ← execute engine now command .taken with
  | (.answered result, engine) => return (.ofExcept result, engine)
  | (.waits _, _) => .error .waits

/-- Run queued commands in order. -/
def runQueue (engine : Engine) (now : UInt64) : List Command → Checked (List Reply × Engine)
  | [] => .ok ([], engine)
  | command :: rest => do
    let (reply, engine) ← runCommand engine now command
    let (replies, engine) ← runQueue engine now rest
    return (reply :: replies, engine)

/-- Run a command of a session, outside of the queue of a transaction. -/
def perform (engine : Engine) (session : Session) (now : UInt64) (index : Option Nat)
    (command : Command) : Checked (Dispatch × Engine × Session) :=
  match command.name with
  | .multi =>
    .ok (.answered (.reply .ok), engine, { session with transaction := session.transaction.begin })
  | .exec =>
    match session.transaction.take with
    | (.error e, transaction) =>
      .ok (.answered (.refusal e), engine, { session with transaction })
    | (.ok queue, transaction) => do
      let (replies, engine) ← runQueue engine now queue
      return (.answered (.reply (.array replies)), engine, { session with transaction })
  | .discard =>
    let (result, transaction) := session.transaction.discard
    .ok (.answered (.ofExcept (result.map fun _ => .ok)), engine, { session with transaction })
  | .psync => .ok (.answered engine.resync, engine, session)
  | .replconf =>
    let (response, engine) :=
      engine.converse session.replicaId (command.args[0]?.getD "") (command.args.drop 1)
    .ok (.answered response, engine, session)
  | _ => do
    match ← execute engine now command (.sent index) with
    | (.answered result, engine) => return (.answered (.ofExcept result), engine, session)
    | (.waits pending, engine) => return (.waits pending index, engine, session)

/-- Count the words of a command of a session, and queue or run it. -/
def handle (engine : Engine) (session : Session) (now : UInt64) (index : Option Nat)
    (command : Command) : Checked (Dispatch × Engine × Session) :=
  match command.checkArity with
  | .error e => .ok (.answered (.refusal e), engine, session)
  | .ok () =>
    if session.transaction.isOpen && !command.name.isTransactionControl then
      match session.transaction.enqueue command with
      | .error e => .ok (.answered (.refusal e), engine, session)
      | .ok transaction =>
        .ok (.answered (.reply (.simple "QUEUED")), engine, { session with transaction })
    else perform engine session now index command

/-- Record a command in the history of a master; its place is the last one. -/
def record (engine : Engine) (command : Command) : Checked (Option Nat × Engine) :=
  match engine.role with
  | .master master => do
    let history := (master.history.append command.name command.name.kind command.args).2
    let index ← Checked.difference history.size 1
    return (some index, { engine with role := .master { master with history } })
  | .replica _ => .ok (none, engine)

/-- Run a command of a session. -/
def dispatch (engine : Engine) (session : Session) (now : UInt64) (command : Command) :
    Checked (Dispatch × Engine × Session) := do
  let (index, engine) ← record engine command
  match ← handle engine session now index command with
  | (.answered response, engine, session) =>
    return (.answered response, engine.conclude index response, session)
  | (.waits pending index, engine, session) => return (.waits pending index, engine, session)

/-- Count the words of a command from the master and run it. -/
def runReplicated (engine : Engine) (now : UInt64) (command : Command) :
    Checked (Option Reply × Engine) :=
  match command.checkArity with
  | .error _ => .ok (none, engine)
  | .ok () => do
    let (_, engine) ← runCommand engine now command
    return (none, engine)

/-- Apply a command that came from the master. -/
def apply (engine : Engine) (now : UInt64) (command : Command) :
    Checked (Option Reply × Engine) :=
  match command.name with
  | .replconf =>
    .ok (match command.args[0]? with
      | some option => if Text.sameWord option "getack" then some engine.acknowledgement else none
      | none => none, engine)
  | .multi | .exec | .discard | .psync | .wait => .ok (none, engine)
  | _ => runReplicated engine now command

/-- A waiting request looks for a wake-up and answers if it finds enough. -/
def poll (engine : Engine) (now : UInt64) (waiting : Waiting) :
    Checked (Option (Except Error Reply) × Engine) :=
  match waiting with
  | .entries reader cursors count =>
    if engine.readers.isWoken reader then
      look { engine with readers := engine.readers.consume reader } now reader cursors count
    else .ok (none, engine)
  | .acks wait =>
    match engine.role with
    | .replica _ => .ok (none, engine)
    | .master master =>
      match master.poll wait with
      | .over acks => do
        let reply ← countReply acks
        return (some (.ok reply), engine.updateMaster (·.leave wait))
      | .again master => .ok (none, { engine with role := .master master })
      | .idle => .ok (none, engine)

/-- The time of a waiting request is over. -/
def expire (engine : Engine) (now : UInt64) (waiting : Waiting) :
    Checked (Except Error Reply × Engine) :=
  match waiting with
  | .entries reader cursors count => do
    let (result, engine) ← readAll engine now count cursors
    return (result.map Cursor.readReply, engine.forget reader)
  | .acks wait =>
    match engine.role with
    | .replica _ => .ok (.ok (.integer 0), engine)
    | .master master => do
      let reply ← countReply (master.history.ackCount wait.target)
      return (.ok reply, engine.updateMaster (·.leave wait))

/-- A waiting command looks for a wake-up. -/
def resume (engine : Engine) (now : UInt64) (pending : Pending) (index : Option Nat) :
    Checked (Option Response × Engine) := do
  match ← poll engine now pending.waiting with
  | (none, engine) => return (none, engine)
  | (some result, engine) =>
    return (some (.ofExcept result), engine.conclude index (.ofExcept result))

/-- The time of a waiting command is over. -/
def giveUp (engine : Engine) (now : UInt64) (pending : Pending) (index : Option Nat) :
    Checked (Response × Engine) := do
  let (result, engine) ← expire engine now pending.waiting
  return (.ofExcept result, engine.conclude index (.ofExcept result))

/-- A command that is no write is never forwarded, whatever comes of it. -/
theorem forward_of_read {command : Command} (h : command.name.kind = .read) (engine : Engine)
    (context : Context) (progress : Progress) :
    forward engine command context progress = engine := by
  unfold forward
  rw [h]
  split
  · rename_i hwrite
    exact nomatch hwrite
  · rfl

variable (engine : Engine) (now : UInt64) {command : Command} {request : Request}

/-- The number of words decides whether a command is a request. -/
theorem checkArity_eq_ok_iff :
    command.checkArity = .ok () ↔ ∃ request, Request.ofCommand command = .ok request := by
  have herror := Request.ofCommand_eq_error_iff command
  cases hread : Request.ofCommand command with
  | error e => simp [(herror e).mp hread]
  | ok request =>
      cases hcheck : command.checkArity with
      | error e =>
          rw [(herror e).mpr hcheck] at hread
          exact nomatch hread
      | ok => simp

-- A command without a handler is refused where it is taken from a queue.
theorem run_of_unhandled (h : Request.ofCommand command = .ok request)
    (hnone : handler? command.name = none) :
    engine.run now request = (.error (Engine.notAllowedHere command.name), engine) := by
  rw [Request.name_eq h] at hnone ⊢
  cases request <;> first
    | rfl
    | simp only [Request.name, handler?, reduceCtorEq] at hnone

-- What is taken from a queue, or comes from the master, is answered at once and not forwarded.
theorem execute_taken (h : Request.ofCommand command = .ok request) :
    execute engine now command .taken = .ok (answered (engine.run now request)) := by
  unfold execute
  cases hhandler : handler? command.name with
  | none => rw [run_of_unhandled engine now h hhandler]
  | some handler =>
      simp only [handler_eq h hhandler, Checked.ok_bind]
      cases request <;> rfl

/-- A checked command that is taken from a queue runs into no fault, and does not wait. -/
theorem runCommand_eq (h : command.checkArity = .ok ()) :
    runCommand engine now command = .ok (engine.runCommand now command) := by
  rcases checkArity_eq_ok_iff.mp h with ⟨request, hread⟩
  rw [runCommand, execute_taken engine now hread, Checked.ok_bind, Engine.runCommand, hread]
  rfl

/-- Every command of the queue has as many words as its handler names, so no place is missed. -/
theorem runQueue_eq {queue : List Command}
    (h : ∀ command ∈ queue, command.checkArity = .ok ()) :
    runQueue engine now queue = .ok (engine.runQueue now queue) := by
  induction queue generalizing engine with
  | nil => rfl
  | cons command rest ih =>
      have hrest : ∀ queued ∈ rest, queued.checkArity = .ok () :=
        fun queued hmem => h queued (List.mem_cons_of_mem command hmem)
      simp only [runQueue, runCommand_eq engine now (h command List.mem_cons_self), Checked.ok_bind,
        ih _ hrest]
      rfl

/-- A request that a session sent is started, and a write is forwarded. -/
theorem execute_sent {handler : Handler} (h : Request.ofCommand command = .ok request)
    (hhandler : handler? command.name = some handler) (index : Option Nat) :
    execute engine now command (.sent index) =
      .ok (engine.startRequest now index command request) := by
  simp only [execute, hhandler, handler_eq h hhandler, Checked.ok_bind, Checked.pure_eq_ok]
  have hname := Request.name_eq h
  cases request with
  | readStreams arguments =>
      rw [forward_of_read (by rw [hname]; rfl)]
      rfl
  | waitForReplicas wanted timeout =>
      rw [forward_of_read (by rw [hname]; rfl)]
      rfl
  | _ =>
      simp only [Engine.startRequest, serve, answered, forward]
      split <;> simp_all

/-- Performing a request comes to the same by place, once its words have been counted. -/
theorem perform_eq {session : Session} (hqueue : session.Accepted)
    (h : Request.ofCommand command = .ok request) (index : Option Nat) :
    perform engine session now index command =
      .ok (engine.perform session now index command request) := by
  have hname := Request.name_eq h
  unfold perform
  cases request with
  | beginTransaction =>
      rw [hname]
      rfl
  | runTransaction =>
      rw [hname]
      simp only [Request.name, Engine.perform]
      cases htransaction : session.transaction with
      | closed => rfl
      | opened queue =>
          rw [Session.Accepted, htransaction] at hqueue
          have hran : runQueue engine now queue = .ok (engine.runQueue now queue) :=
            runQueue_eq engine now hqueue
          simp only [Transaction.take, hran, Checked.ok_bind]
          rfl
  | dropTransaction =>
      rw [hname]
      rfl
  | resync =>
      rw [hname]
      rfl
  | replication option arguments =>
      rw [hname, Request.args_eq h (by simp)]
      rfl
  | _ =>
      rw [hname, execute_sent engine now h (by rw [hname]; rfl)]
      simp only [Request.name, Checked.ok_bind, Engine.perform]
      rcases engine.startRequest now index command _ with ⟨result | pending, started⟩ <;> rfl

/-- What a session sends runs into no fault, if what it has queued was checked. -/
theorem handle_eq {session : Session} (hqueue : session.Accepted) (index : Option Nat)
    (command : Command) :
    handle engine session now index command = .ok (engine.handle session now index command) := by
  unfold handle Engine.handle
  cases hread : Request.ofCommand command with
  | error e => rw [(Request.ofCommand_eq_error_iff command e).mp hread]
  | ok request =>
      rw [checkArity_eq_ok_iff.mpr ⟨request, hread⟩]
      simp only
      split
      · cases session.transaction.enqueue command <;> rfl
      · exact perform_eq engine now hqueue hread index

-- The place of a recorded command is the last one.
theorem record_eq (command : Command) : record engine command = .ok (engine.record command) := by
  unfold record Engine.record
  cases engine.role with
  | master master =>
      have hsize : (master.history.append command.name command.name.kind command.args).2.size =
          master.history.size + 1 := by
        simp [History.append, History.size]
      simp only [hsize, Checked.difference_eq_ok (Nat.le_add_left 1 _), Checked.ok_bind]
      rfl
  | replica replica => rfl

/-- If the queue that is open was accepted, a command is dispatched without a fault. -/
theorem dispatch_eq {session : Session} (hqueue : session.Accepted) (command : Command) :
    dispatch engine session now command = .ok (engine.dispatch session now command) := by
  unfold dispatch Engine.dispatch
  rw [record_eq, Checked.ok_bind]
  simp only [handle_eq _ now hqueue, Checked.ok_bind]
  rcases Engine.handle _ session now _ command with
    ⟨response | ⟨pending, index⟩, handled, session⟩ <;> rfl

-- A command from the master is run if its words are as many as they should be.
theorem runReplicated_eq (command : Command) :
    runReplicated engine now command = .ok (none, (engine.runCommand now command).2) := by
  unfold runReplicated
  cases hcheck : command.checkArity with
  | error e =>
      rw [Engine.runCommand, (Request.ofCommand_eq_error_iff command e).mpr hcheck]
  | ok =>
      simp only [runCommand_eq engine now hcheck, Checked.ok_bind]
      rfl

/-- What the master sends runs into no fault. -/
theorem apply_eq (command : Command) :
    apply engine now command = .ok (engine.apply now command) := by
  have hran := runReplicated_eq engine now command
  unfold apply Engine.apply
  cases command.name with
  | replconf => cases command.args <;> rfl
  | multi | exec | discard | psync | wait => rfl
  | _ => exact hran

/-- A command that looks for a wake-up looks at its streams or at the history, without a fault. -/
theorem poll_eq (waiting : Waiting) :
    poll engine now waiting = .ok (engine.poll now waiting) := by
  unfold poll Engine.poll
  cases waiting with
  | entries reader cursors count =>
      simp only [look_eq]
      split <;> rfl
  | acks wait =>
      cases engine.role with
      | replica replica => rfl
      | master master =>
          simp only
          rcases master.poll wait with acks | again | _
          · simp only [countReply_eq, Checked.ok_bind]
            rfl
          · rfl
          · rfl

/-- A command that gives up does so without a fault. -/
theorem expire_eq (waiting : Waiting) :
    expire engine now waiting = .ok (engine.expire now waiting) := by
  unfold expire Engine.expire
  cases waiting with
  | entries reader cursors count =>
      simp only [readAll_eq, Checked.ok_bind]
      rfl
  | acks wait =>
      cases engine.role with
      | replica replica => rfl
      | master master =>
          simp only [countReply_eq, Checked.ok_bind]
          rfl

theorem resume_eq (pending : Pending) (index : Option Nat) :
    resume engine now pending index = .ok (engine.resume now pending index) := by
  unfold resume Engine.resume
  rw [poll_eq, Checked.ok_bind]
  rcases engine.poll now pending.waiting with ⟨_ | result, polled⟩ <;> rfl

theorem giveUp_eq (pending : Pending) (index : Option Nat) :
    giveUp engine now pending index = .ok (engine.giveUp now pending index) := by
  rw [giveUp, expire_eq, Checked.ok_bind]
  rfl

-- A command with a handler is started, and what it is answered with is a reply.
theorem perform_replies {handler : Handler} (hhandler : handler? request.name = some handler)
    (session : Session) (index : Option Nat) {response : Response}
    (h : (engine.perform session now index command request).1 = .answered response) :
    ∃ reply, response = .reply reply := by
  have hperform : engine.perform session now index command request =
      match engine.startRequest now index command request with
      | (.answered result, engine) => (.answered (.ofExcept result), engine, session)
      | (.waits pending, engine) => (.waits pending index, engine, session) := by
    cases request <;> first
      | rfl
      | exact nomatch hhandler
  rw [hperform] at h
  split at h
  · exact ⟨_, (Dispatch.answered.inj h).symm⟩
  · simp only [reduceCtorEq] at h

/-- A handler answers with one reply; nothing that it answers is a resync or silent. -/
theorem handle_replies {handler : Handler} (hhandler : handler? command.name = some handler)
    (session : Session) (index : Option Nat) {response : Response}
    (h : (engine.handle session now index command).1 = .answered response) :
    ∃ reply, response = .reply reply := by
  unfold Engine.handle at h
  cases hread : Request.ofCommand command with
  | error e =>
      rw [hread] at h
      exact ⟨_, (Dispatch.answered.inj h).symm⟩
  | ok request =>
      simp only [hread] at h
      split at h
      · cases hqueued : session.transaction.enqueue command <;>
          (rw [hqueued] at h; exact ⟨_, (Dispatch.answered.inj h).symm⟩)
      rw [Request.name_eq hread] at hhandler
      exact perform_replies engine now hhandler session index h

end Places

namespace Session

/-- The sessions that a server can have. Other sessions use the engine as well, so it may be any
    engine whenever a command comes. -/
inductive Reachable : Session → Prop where
  | start : Reachable {}
  | dispatch {session : Session} (h : Reachable session) (engine : Engine) (now : UInt64)
      (command : Command) : Reachable (engine.dispatch session now command).2.2
  /-- The session becomes the one of a replica. -/
  | enroll {session : Session} (h : Reachable session) (id : Nat) :
      Reachable { session with replicaId := some id }

/-- What is queued has passed the check before. -/
theorem Accepted.dispatch {session : Session} (h : session.Accepted) (engine : Engine)
    (now : UInt64) (command : Command) : (engine.dispatch session now command).2.2.Accepted := by
  intro queued hmem
  rcases engine.dispatch_queue now session command hmem with hbefore | rfl
  · exact h queued hbefore
  cases hcheck : queued.checkArity with
  | ok => rfl
  | error e =>
      have hread := (Request.ofCommand_eq_error_iff queued e).mpr hcheck
      simp only [Engine.dispatch, Engine.handle_refused hread] at hmem
      rw [← hcheck]
      exact h queued hmem

/-- What is queued by dispatching is accepted: its words have been counted before. -/
theorem Reachable.accepted {session : Session} (h : session.Reachable) : session.Accepted := by
  induction h with
  | start => exact fun _ hmem => nomatch hmem
  | dispatch _ engine now command ih => exact ih.dispatch engine now command
  | enroll _ id ih => exact ih

/-- Nothing that a server does for a command names a word that is not there, or a number that does
    not fit: not for a command that a session sends, not when the queue of the session runs, and not
    for a command of the master, whatever words it has. A command with a handler is answered with a
    reply or waits, and a command that waits goes on without a fault. -/
theorem Reachable.in_bounds {session : Session} (h : session.Reachable) (engine : Engine)
    (now : UInt64) :
    (∀ command,
      Places.dispatch engine session now command = .ok (engine.dispatch session now command) ∧
      ∀ handler, Places.handler? command.name = some handler →
        ∀ response, (engine.dispatch session now command).1 = .answered response →
          ∃ reply, response = .reply reply) ∧
    (∀ queued ∈ session.transaction.queue,
      Places.runCommand engine now queued = .ok (engine.runCommand now queued)) ∧
    (∀ command, Places.apply engine now command = .ok (engine.apply now command)) ∧
    ∀ pending index,
      Places.resume engine now pending index = .ok (engine.resume now pending index) ∧
      Places.giveUp engine now pending index = .ok (engine.giveUp now pending index) := by
  refine ⟨fun command => ⟨Places.dispatch_eq engine now h.accepted command, ?_⟩,
    fun queued hmem => Places.runCommand_eq engine now (h.accepted queued hmem),
    Places.apply_eq engine now,
    fun pending index => ⟨Places.resume_eq engine now pending index,
      Places.giveUp_eq engine now pending index⟩⟩
  intro handler hhandler response hanswered
  refine Places.handle_replies (engine.record command).2 now hhandler session
    (engine.record command).1 ?_
  simp only [Engine.dispatch] at hanswered
  split at hanswered
  · rename_i hhandled
    rw [hhandled]
    exact hanswered
  · simp only [reduceCtorEq] at hanswered

/-- A queue of one command, which is run with its one word. -/
theorem Reachable.in_bounds_queued :
    Reachable ⟨.opened [⟨.echo, ["hello"], []⟩], none⟩ ∧
      Places.runCommand default 0 ⟨.echo, ["hello"], []⟩ = .ok (.bulkText "hello", default) := by
  have hqueued : Reachable ⟨.opened [⟨.echo, ["hello"], []⟩], none⟩ :=
    (Reachable.start.dispatch default 0 ⟨.multi, [], []⟩).dispatch default 0
      ⟨.echo, ["hello"], []⟩
  exact ⟨hqueued, (hqueued.in_bounds default 0).2.1 _ List.mem_cons_self⟩

-- Words that were not counted may be missing.
example : Places.runCommand default 0 ⟨.echo, [], []⟩ = .error .place := rfl

end Session

end KeyValue
