import KeyValue.Connection
import KeyValue.Replication.Following

/-!
# The server

The server admits clients up to a limit. A client beyond it is told so and sent away, and does
not count. Everything that comes in from one client may wake what waits on another connection.

## Main definitions

* `Server`: The engine with its connections.
* `Server.start`: A server that is ready for clients.
* `Server.accept`: A client arrives.
* `Server.receive`, `Server.wakeAll`, `Server.dismiss`: What happens on connections.
-/

namespace KeyValue

/-- The engine with its connections. -/
structure Server where
  engine : Engine
  /-- The connections that are served, each under the number of its link. -/
  connections : List Connection := []

/-- How a client that arrives is treated. -/
inductive Admission where
  /-- It is served, on the link of the given number. -/
  | served (link : Nat)
  /-- It is sent away with these bytes. -/
  | rejected (farewell : Bytes)
  deriving Repr

namespace Server

/-- A server that is ready for clients on the given port. A replica, whose configuration names a
    master, goes through the handshake first, with a master that says `input` on the link between
    them; a handshake that fails ends the start. What the master says after its snapshot is left
    over. -/
def start (config : Config) (file : Snapshot.File) (replicationId : String) (now : UInt64)
    (port : UInt16) (input : Bytes) : Except Error (Server × Bytes) :=
  let engine := Engine.start config file replicationId
  match config.replicaOf with
  | none => .ok ({ engine }, [])
  | some _ =>
    let result := Handshake.run port input
    result.outcome.map fun resync => ({ engine := engine.takeOver now resync }, result.unread)

/-- What a client beyond the limit is told. -/
def farewell : Bytes := (Reply.failure "max number of clients reached").encode

/-- A client arrives. -/
def accept (server : Server) : Admission × Server :=
  if server.engine.config.maxConnections ≤ server.connections.length then
    (.rejected farewell, server)
  else
    let (connection, engine) := Connection.opened server.engine
    (.served connection.link, ⟨engine, server.connections ++ [connection]⟩)

/-- Let one connection act; the others stay as they are. -/
def act (server : Server) (link : Nat) (action : Connection → Engine → Connection × Engine) :
    Server :=
  match server.connections.find? (·.link == link) with
  | none => server
  | some connection =>
    let (connection, engine) := action connection server.engine
    ⟨engine, server.connections.map fun other => if other.link == link then connection else other⟩

/-- Bytes come in from a client. -/
def receive (server : Server) (now : UInt64) (link : Nat) (chunk : Bytes) : Server :=
  server.act link fun connection engine => connection.receive engine now chunk

/-- Every command that waits looks for a wake-up, once. -/
def wakeAll (server : Server) (now : UInt64) : Server :=
  server.connections.foldl (fun server connection =>
    server.act connection.link fun connection engine => connection.wake engine now) server

/-- A client is gone. -/
def dismiss (server : Server) (link : Nat) : Server :=
  match server.connections.find? (·.link == link) with
  | none => server
  | some connection =>
    ⟨connection.close server.engine, server.connections.filter (·.link != link)⟩

end Server

end KeyValue
