import KeyValue.Engine
import KeyValue.Replication.Handshake
import KeyValue.Wire.Framer

/-!
# Following a master

After the handshake a replica takes over the snapshot of its master, and then applies the
commands that the master forwards, one after another. The offset of the replica is the number of
bytes of the commands it applied, whether they succeeded or not. A request for an acknowledgement
is answered with the offset before it.

What cannot be framed is dropped without an answer and does not count.

## Main definitions

* `Following`: The replica's end of the link to its master.
* `Engine.takeOver`: The outcome of a handshake is taken over.
* `Following.receive`: Bytes come in from the master.
-/

namespace KeyValue

namespace Engine

/-- Take over the outcome of a handshake. A snapshot that cannot be read is ignored. -/
def takeOver (engine : Engine) (now : UInt64) (resync : Handshake.Resync) : Engine :=
  let engine := engine.updateReplica fun replica =>
    { replica with replicationId := resync.replicationId }
  match Snapshot.entries resync.snapshot with
  | .ok entries => (engine.load now entries).2
  | .error _ => engine

end Engine

/-- The replica's end of the link to its master. -/
structure Following where
  framer : Framer := .empty
  deriving DecidableEq, Repr, Inhabited

namespace Following

/-- Apply what was framed; the result is what is written back to the master. -/
def applyEvent (engine : Engine) (now : UInt64) : Framer.Event → Bytes × Engine
  | .error _ => ([], engine)
  | .ok command =>
    let (answer, engine) := engine.apply now command
    let written := match answer with
      | some reply => reply.encode
      | none => []
    (written, engine.updateReplica (·.advance (UInt64.ofNat command.raw.length)))

/-- Apply events in order. -/
def applyAll (engine : Engine) (now : UInt64) : List Framer.Event → Bytes × Engine
  | [] => ([], engine)
  | event :: rest =>
    let (written, engine) := applyEvent engine now event
    let (more, engine) := applyAll engine now rest
    (written ++ more, engine)

/-- Bytes come in from the master; the result is what is written back. -/
def receive (following : Following) (engine : Engine) (now : UInt64) (chunk : Bytes) :
    Bytes × Following × Engine :=
  let (events, framer) := following.framer.absorb chunk
  let (written, engine) := applyAll engine now events
  (written, ⟨framer⟩, engine)

end Following

end KeyValue
