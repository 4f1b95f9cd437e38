import KeyValue.Dispatch
import KeyValue.Wire.Framer

/-!
# Connections

A connection turns what a client sends into commands, runs them in the order they came, and
writes what is answered to the link of the client. Bytes that are no command are answered with
one error each. While a command waits, the commands after it wait too.

A resync is answered in two steps: first the header and the snapshot are written, then the link
is registered as that of a replica. From then on the link also carries the writes that are
forwarded to replicas. A later resync registers the link again, and the connection remembers
the last registration only.

## Main definitions

* `Connection`: A connection.
* `Connection.opened`: Opens a connection.
* `Connection.receive`: Bytes come in.
* `Connection.wake`, `Connection.giveUp`: The command that waits goes on.
* `Connection.close`: The client is gone.
-/

namespace KeyValue

/-- A command that waits, with its place in the history. -/
structure Suspended where
  pending : Pending
  index : Option Nat
  deriving DecidableEq, Repr, Inhabited

/-- The connection of a client. -/
structure Connection where
  /-- The number of the link to the client. -/
  link : Nat
  session : Session := {}
  framer : Framer := .empty
  /-- The command that waits. -/
  suspended : Option Suspended := none
  /-- What was framed and not handled yet. -/
  backlog : List Framer.Event := []

namespace Connection

/-- The most bytes that come in at once. -/
def chunkSize : Nat := 4096

/-- Open a connection on a new link. -/
def opened (engine : Engine) : Connection × Engine :=
  let (link, links) := engine.links.connect
  ({ link }, { engine with links })

/-- Write to the client. -/
def write (connection : Connection) (engine : Engine) (bytes : Bytes) : Engine :=
  { engine with links := engine.links.write connection.link bytes }

/-- Write the header and the snapshot of a resync. -/
def announce (connection : Connection) (engine : Engine) (header : Reply) (snapshot : Bytes) :
    Engine :=
  connection.write engine (header.encode ++ (Reply.snapshot snapshot).encode)

/-- Register the link as that of a replica. -/
def enroll (connection : Connection) (engine : Engine) : Connection × Engine :=
  match engine.role with
  | .replica _ => (connection, engine)
  | .master master =>
    let (id, master) := master.register connection.link
    ({ connection with session := { connection.session with replicaId := some id } },
      { engine with role := .master master })

/-- Give the client the response to a command. -/
def answer (connection : Connection) (engine : Engine) : Response → Connection × Engine
  | .reply reply => (connection, connection.write engine reply.encode)
  | .silent => (connection, engine)
  | .fullResync header snapshot =>
    connection.enroll (connection.announce engine header snapshot)

/-- Handle what was framed. -/
def handle (connection : Connection) (engine : Engine) (now : UInt64) :
    Framer.Event → Connection × Engine
  | .error e => (connection, connection.write engine (Reply.ofError e).encode)
  | .ok command =>
    match engine.dispatch connection.session now command with
    | (.answered response, engine, session) =>
      { connection with session }.answer engine response
    | (.waits pending index, engine, session) =>
      ({ connection with session, suspended := some ⟨pending, index⟩ }, engine)

/-- Handle events in order, up to one that waits. -/
def handleAll (connection : Connection) (engine : Engine) (now : UInt64) :
    List Framer.Event → Connection × Engine
  | [] => ({ connection with backlog := [] }, engine)
  | event :: rest =>
    let (connection, engine) := connection.handle engine now event
    if connection.suspended.isSome then ({ connection with backlog := rest }, engine)
    else connection.handleAll engine now rest

/-- Bytes come in, at most `chunkSize` of them. -/
def receive (connection : Connection) (engine : Engine) (now : UInt64) (chunk : Bytes) :
    Connection × Engine :=
  let (events, framer) := connection.framer.absorb chunk
  let connection := { connection with framer }
  if connection.suspended.isSome then
    ({ connection with backlog := connection.backlog ++ events }, engine)
  else connection.handleAll engine now events

/-- The command that waited is answered, and those after it follow. -/
def proceed (connection : Connection) (engine : Engine) (now : UInt64) (response : Response) :
    Connection × Engine :=
  let (connection, engine) := { connection with suspended := none }.answer engine response
  connection.handleAll engine now connection.backlog

/-- The command that waits, if there is one, looks for a wake-up. -/
def wake (connection : Connection) (engine : Engine) (now : UInt64) : Connection × Engine :=
  match connection.suspended with
  | none => (connection, engine)
  | some ⟨pending, index⟩ =>
    match engine.resume now pending index with
    | (none, engine) => (connection, engine)
    | (some response, engine) => connection.proceed engine now response

/-- The time of the command that waits, if there is one, is over. -/
def giveUp (connection : Connection) (engine : Engine) (now : UInt64) : Connection × Engine :=
  match connection.suspended with
  | none => (connection, engine)
  | some ⟨pending, index⟩ =>
    let (response, engine) := engine.giveUp now pending index
    connection.proceed engine now response

/-- The time at which the command that waits gives up, if there is one that does. -/
def deadline? (connection : Connection) : Option Nat :=
  connection.suspended.bind (·.pending.deadline)

/-- The client is gone: its last registration as a replica is removed, and its link is closed. -/
def close (connection : Connection) (engine : Engine) : Engine :=
  let engine := match connection.session.replicaId with
    | some id => engine.updateMaster (·.remove id)
    | none => engine
  { engine with links := engine.links.close connection.link }

end Connection

end KeyValue
