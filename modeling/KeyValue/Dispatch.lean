import KeyValue.Snapshot.Format
import KeyValue.Waiting

/-!
# Dispatch

A command that a session sends is recorded on a master, checked, and then either queued in the
open transaction of the session or run. A write that succeeds is forwarded to the replicas in the
bytes it came in; one that runs inside a transaction is not. Whether a command succeeded is
recorded when its response is known, which for a command that waits is later.

## Main definitions

* `Dispatch`: What has come of a command so far.
* `Engine.dispatch`: Runs a command of a session.
* `Engine.resume`, `Engine.giveUp`: A waiting command goes on.
-/

namespace KeyValue

/-- What has come of a command so far. -/
inductive Dispatch where
  | answered (response : Response)
  /-- The command waits; `index` is its place in the history. -/
  | waits (pending : Pending) (index : Option Nat)
  deriving Repr, Inhabited

namespace Engine

/-- Record a command in the history of a master; the result is its place. -/
def record (engine : Engine) (command : Command) : Option Nat × Engine :=
  match engine.role with
  | .master master =>
    let (index, history) := master.history.append command.name command.name.kind command.args
    (some index, { engine with role := .master { master with history } })
  | .replica _ => (none, engine)

/-- Record whether the command at a place of the history succeeded. -/
def conclude (engine : Engine) (index : Option Nat) (response : Response) : Engine :=
  match index with
  | some index =>
    engine.updateMaster fun master =>
      { master with history := master.history.markSuccess index !response.isFailure }
  | none => engine

/-- Start a request that any session may send. A write is forwarded to the replicas if it
    succeeds. -/
def startRequest (engine : Engine) (now : UInt64) (index : Option Nat) (command : Command)
    (request : Request) : Progress × Engine :=
  match request with
  | .readStreams arguments => engine.startRead now arguments
  | .waitForReplicas wanted timeout => engine.startWait now index wanted timeout
  | request =>
    let (result, engine) := engine.run now request
    (.answered result,
      match result, command.name.kind with
      | .ok _, .write => engine.propagate command.raw
      | _, _ => engine)

/-- Answer the request for a resync. The snapshot is always the one without keys. -/
def resync (engine : Engine) : Response :=
  match engine.role with
  | .master master =>
    .fullResync
      (.simple s!"FULLRESYNC {master.replicationId} {Decimal.ofUInt64 master.offset}")
      Snapshot.empty
  | .replica _ => .reply (.failure "PSYNC is only served by a master")

/-- Answer a word between a replica and its master. An acknowledgement has no answer; it counts if
    the session is a replica and the acknowledged offset is a number. -/
def converse (engine : Engine) (replicaId : Option Nat) (option : String)
    (arguments : List String) : Response × Engine :=
  let option := option.toLower
  if option = "ack" then
    match replicaId, arguments.head?.bind Decimal.uint64? with
    | some id, some _ => (.silent, engine.updateMaster (·.recordAck id))
    | _, _ => (.silent, engine)
  else if option = "getack" then (.reply engine.acknowledgement, engine)
  else if option = "listening-port" || option = "capa" then (.reply .ok, engine)
  else (.reply (.failure s!"unsupported REPLCONF option '{option}'"), engine)

/-- Run a request of a session, outside of the queue of a transaction. -/
def perform (engine : Engine) (session : Session) (now : UInt64) (index : Option Nat)
    (command : Command) (request : Request) : Dispatch × Engine × Session :=
  match request with
  | .beginTransaction =>
    (.answered (.reply .ok), engine, { session with transaction := session.transaction.begin })
  | .runTransaction =>
    match session.transaction.take with
    | (.error e, transaction) => (.answered (.refusal e), engine, { session with transaction })
    | (.ok queue, transaction) =>
      let (replies, engine) := engine.runQueue now queue
      (.answered (.reply (.array replies)), engine, { session with transaction })
  | .dropTransaction =>
    let (result, transaction) := session.transaction.discard
    (.answered (.ofExcept (result.map fun _ => .ok)), engine, { session with transaction })
  | .resync => (.answered engine.resync, engine, session)
  | .replication option arguments =>
    let (response, engine) := engine.converse session.replicaId option arguments
    (.answered response, engine, session)
  | request =>
    match engine.startRequest now index command request with
    | (.answered result, engine) => (.answered (.ofExcept result), engine, session)
    | (.waits pending, engine) => (.waits pending index, engine, session)

/-- Check a command of a session and queue or run it. -/
def handle (engine : Engine) (session : Session) (now : UInt64) (index : Option Nat)
    (command : Command) : Dispatch × Engine × Session :=
  match Request.ofCommand command with
  | .error e => (.answered (.refusal e), engine, session)
  | .ok request =>
    if session.transaction.isOpen && !command.name.isTransactionControl then
      match session.transaction.enqueue command with
      | .error e => (.answered (.refusal e), engine, session)
      | .ok transaction =>
        (.answered (.reply (.simple "QUEUED")), engine, { session with transaction })
    else engine.perform session now index command request

/-- Run a command of a session. -/
def dispatch (engine : Engine) (session : Session) (now : UInt64) (command : Command) :
    Dispatch × Engine × Session :=
  let (index, engine) := engine.record command
  match engine.handle session now index command with
  | (.answered response, engine, session) =>
    (.answered response, engine.conclude index response, session)
  | (.waits pending index, engine, session) => (.waits pending index, engine, session)

/-- A waiting command looks for a wake-up and answers if it finds enough. -/
def resume (engine : Engine) (now : UInt64) (pending : Pending) (index : Option Nat) :
    Option Response × Engine :=
  match engine.poll now pending.waiting with
  | (none, engine) => (none, engine)
  | (some result, engine) =>
    let response := Response.ofExcept result
    (some response, engine.conclude index response)

/-- The time of a waiting command is over. -/
def giveUp (engine : Engine) (now : UInt64) (pending : Pending) (index : Option Nat) :
    Response × Engine :=
  let (result, engine) := engine.expire now pending.waiting
  let response := Response.ofExcept result
  (response, engine.conclude index response)

end Engine

end KeyValue
