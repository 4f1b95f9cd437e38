import KeyValue.Execution.Keys
import KeyValue.Execution.Reports
import KeyValue.Execution.Streams
import KeyValue.Readers
import KeyValue.Request

/-!
# The engine

The engine is all that the sessions of a server share. A request that runs to its end without
waiting is a function from the engine to a result and the engine it leaves behind; this is how
requests run inside a transaction and on a replica, where nobody waits.

Inside a transaction a read that would wait answers with what is there, and waiting for replicas
answers zero. Requests that belong to the session that sends them have no meaning there.

## Main definitions

* `Engine`: What the sessions of a server share.
* `Engine.start`: The engine at the start of a server.
* `Engine.load`: Copies the keys of a snapshot.
* `Engine.run`: Runs a request that does not wait.
* `Engine.propagate`: Forwards bytes to the replicas.
-/

namespace KeyValue

/-- What the sessions of a server share. -/
structure Engine where
  config : Config
  keyspace : Keyspace := .empty
  /-- The readers that wait for entries. -/
  readers : Readers := .empty
  /-- What the path of the snapshot file leads to. -/
  file : Snapshot.File := .missing
  role : Role
  /-- The links to clients and replicas. -/
  links : Links := .empty
  deriving DecidableEq, Repr, Inhabited

namespace Engine

/-- The engine at the start of a server; a master gets the given id. -/
def start (config : Config) (file : Snapshot.File) (replicationId : String) : Engine :=
  { config, file, role := .start config replicationId }

/-- Change the state of a master; a replica stays as it is. -/
def updateMaster (engine : Engine) (update : Master → Master) : Engine :=
  match engine.role with
  | .master state => { engine with role := .master (update state) }
  | .replica _ => engine

/-- Change the state of a replica; a master stays as it is. -/
def updateReplica (engine : Engine) (update : Replica → Replica) : Engine :=
  match engine.role with
  | .master _ => engine
  | .replica state => { engine with role := .replica (update state) }

/-- Copy keys of a snapshot into the keyspace, except expired ones; the result is how many were
    copied. -/
def load (engine : Engine) (now : UInt64) (entries : List Snapshot.Entry) : Nat × Engine :=
  let live := entries.filter fun entry => !entry.isExpired now
  (live.length,
    { engine with
      keyspace := live.foldl (fun keyspace entry =>
        keyspace.set entry.key (.ofText entry.value) entry.deadline) engine.keyspace })

/-- Wake the readers of a key. -/
def notify (engine : Engine) (key : String) : Engine :=
  { engine with readers := (engine.readers.notify key).2 }

/-- Forward bytes to the replicas of a master. -/
def propagate (engine : Engine) (bytes : Bytes) : Engine :=
  match engine.role with
  | .master master => { engine with links := (master.propagate engine.links bytes).2 }
  | .replica _ => engine

/-- The outcome of a request that works on the keyspace only. -/
def withKeyspace (engine : Engine) {α : Type} (outcome : α × Keyspace) : α × Engine :=
  (outcome.1, { engine with keyspace := outcome.2 })

/-- The refusal of a request that belongs to the session that sends it. -/
def notAllowedHere (name : CommandName) : Error := .malformed s!"{name.text} is not allowed here"

/-- Add an entry to the stream of a key and wake the readers of the key. -/
def addEntry (engine : Engine) (now : UInt64) (key id : String) (fields : List String) :
    Except Error Reply × Engine :=
  match StreamCommand.addEntry engine.keyspace now key id fields with
  | (.error e, keyspace) => (.error e, { engine with keyspace })
  | (.ok id, keyspace) => (.ok (.bulkText id.text), { engine with keyspace }.notify key)

/-- Read and resolve the arguments of a read. -/
def openRead (engine : Engine) (now : UInt64) (arguments : List String) :
    Except Error (StreamRead × List Cursor) × Engine :=
  match StreamRead.ofArguments {} arguments with
  | .error e => (.error e, engine)
  | .ok read =>
    let (cursors, engine) :=
      engine.withKeyspace (Cursor.resolveAll engine.keyspace now read.starts)
    (cursors.map (read, ·), engine)

/-- Look at the streams of a read. -/
def readAll (engine : Engine) (now : UInt64) (count : Option Nat) (cursors : List Cursor) :
    Except Error (List Reply) × Engine :=
  engine.withKeyspace (Cursor.readAll engine.keyspace now count cursors)

/-- The numbers of a request that waits for replicas: how many, and how long. -/
def waitNumbers (wanted timeout : String) : Except Error (Nat × UInt64) :=
  match Decimal.count? wanted, Decimal.uint64? timeout with
  | some wanted, some timeout => .ok (wanted, timeout)
  | _, _ => .error .notInteger

/-- Run a request without waiting for anything. -/
def run (engine : Engine) (now : UInt64) : Request → Except Error Reply × Engine
  | .ping none => (.ok (.simple "PONG"), engine)
  | .ping (some message) => (.ok (.bulkText message), engine)
  | .echo message => (.ok (.bulkText message), engine)
  | .set key value options =>
    engine.withKeyspace (KeyCommand.set engine.keyspace now key value options)
  | .get key => engine.withKeyspace (KeyCommand.get engine.keyspace engine.file now key)
  | .increment key => engine.withKeyspace (KeyCommand.increment engine.keyspace now key)
  | .type key => engine.withKeyspace (KeyCommand.type engine.keyspace engine.file now key)
  | .keys pattern => engine.withKeyspace (KeyCommand.keys engine.keyspace engine.file now pattern)
  | .info topic => (.ok (Report.info engine.role topic), engine)
  | .config action parameters => (Report.config engine.config action parameters, engine)
  | .beginTransaction => (.error (notAllowedHere .multi), engine)
  | .runTransaction => (.error (notAllowedHere .exec), engine)
  | .dropTransaction => (.error (notAllowedHere .discard), engine)
  | .replication _ _ => (.error (notAllowedHere .replconf), engine)
  | .resync => (.error (notAllowedHere .psync), engine)
  | .waitForReplicas wanted timeout =>
    ((waitNumbers wanted timeout).map fun _ => .integer 0, engine)
  | .addEntry key id fields => engine.addEntry now key id fields
  | .range key start stop options =>
    engine.withKeyspace (StreamCommand.range engine.keyspace now key start stop options)
  | .readStreams arguments =>
    match engine.openRead now arguments with
    | (.error e, engine) => (.error e, engine)
    | (.ok (read, cursors), engine) =>
      let (result, engine) := engine.readAll now read.count cursors
      (result.map Cursor.readReply, engine)

/-- Run a queued command without waiting for anything. -/
def runCommand (engine : Engine) (now : UInt64) (command : Command) : Reply × Engine :=
  match Request.ofCommand command with
  | .error e => (.ofError e, engine)
  | .ok request =>
    let (result, engine) := engine.run now request
    (.ofExcept result, engine)

/-- Run queued commands in order; each has its reply, also if it fails. -/
def runQueue (engine : Engine) (now : UInt64) : List Command → List Reply × Engine
  | [] => ([], engine)
  | command :: rest =>
    let (reply, engine) := engine.runCommand now command
    let (replies, engine) := engine.runQueue now rest
    (reply :: replies, engine)

/-- The words that answer the request for an acknowledgement. A master has no offset of its own to
    acknowledge. -/
def acknowledgement (engine : Engine) : Reply :=
  let offset := match engine.role with
    | .replica state => state.offset
    | .master _ => 0
  .bulkTexts ["REPLCONF", "ACK", Decimal.ofUInt64 offset]

/-- Apply a command that came from the master. Commands that belong to a session are ignored, and
    only the request for an acknowledgement has a reply. -/
def apply (engine : Engine) (now : UInt64) (command : Command) : Option Reply × Engine :=
  match command.name with
  | .replconf =>
    match command.args with
    | option :: _ =>
      (if Text.sameWord option "getack" then some engine.acknowledgement else none, engine)
    | [] => (none, engine)
  | .multi | .exec | .discard | .psync | .wait => (none, engine)
  | _ => (none, (engine.runCommand now command).2)

end Engine

end KeyValue
