import KeyValue.Text.Quoted
import KeyValue.Text.Word
import KeyValue.Wire.ReplyReader

/-!
# The handshake of a replica

Before a replica can follow its master, the two exchange a few commands and replies: the replica
greets, tells its port and what it understands, and asks for a resync. The master answers with
its id and offset, then sends a snapshot. The command stream follows directly after the
snapshot, so the handshake must not read a byte beyond it.

A command is sent only after the reply to the one before it matched.

## Main definitions

* `Handshake.Exchange`: A command with the reply it must get.
* `Handshake.Resync`: What the master announces.
* `Handshake.run`: The handshake on the bytes of a master.
-/

namespace KeyValue

namespace Handshake

open Wire

/-- A command with the text that the reply to it must have, in any letter case. -/
structure Exchange where
  words : List String
  expected : String
  deriving DecidableEq, Repr

/-- The exchanges before the resync. -/
def exchanges (port : UInt16) : List Exchange :=
  [⟨["PING"], "PONG"⟩,
    ⟨["REPLCONF", "listening-port", Nat.repr port.toNat], "OK"⟩,
    ⟨["REPLCONF", "capa", "psync2"], "OK"⟩]

/-- The command that asks for a resync from nothing. -/
def resyncRequest : List String := ["PSYNC", "?", "-1"]

/-- Read the reply to a command and check it. -/
def Exchange.check (exchange : Exchange) : Reader Unit := fun input =>
  match Reply.read input with
  | (.error e, rest) => (.error e, rest)
  | (.ok reply, rest) =>
    let mismatch := Error.handshake (s!"expected +{exchange.expected} in reply to " ++
      String.intercalate " " exchange.words ++ ", got " ++ Quoted.reply reply)
    match reply with
    | .simple text =>
      if Text.sameWord text exchange.expected then (.ok (), rest) else (.error mismatch, rest)
    | _ => (.error mismatch, rest)

/-- What the master announces: its id, its offset and its snapshot. -/
structure Resync where
  replicationId : String
  offset : UInt64
  snapshot : Bytes
  deriving DecidableEq, Repr, Inhabited

/-- The id and the offset in the reply to a resync request. -/
def announcement (reply : Reply) : Except Error (String × UInt64) :=
  match reply with
  | .simple text =>
    let unexpected := Error.handshake s!"expected +FULLRESYNC, got +{text}"
    match Text.words text with
    | tag :: id :: offset :: _ =>
      if Text.sameWord tag "FULLRESYNC" then
        match Decimal.uint64? offset with
        | some n => .ok (id, n)
        | none => .error (.handshake s!"invalid resync offset '{offset}'")
      else .error unexpected
    | _ => .error unexpected
  | reply => .error (.handshake ("expected +FULLRESYNC, got " ++ Quoted.reply reply))

/-- The length in the header of a snapshot. -/
def snapshotLength (header : String) : Except Error Nat :=
  let invalid := Error.handshake s!"invalid snapshot header '{header}'"
  match header.toList with
  | '$' :: digits =>
    match Decimal.bounded? Decimal.maxUInt64 digits with
    | none => .error invalid
    | some length =>
      if length > maxBulkLength then
        .error (.handshake s!"snapshot of {length} bytes exceeds maximum {maxBulkLength}")
      else .ok length
  | _ => .error invalid

/-- Read a snapshot: a header line and as many bytes as it tells, without a line end. -/
def readSnapshot : Reader Bytes := fun input =>
  match readLine input with
  | (.error e, rest) => (.error e, rest)
  | (.ok header, rest) =>
    match snapshotLength header with
    | .error e => (.error e, rest)
    | .ok length =>
      if length ≤ rest.length then (.ok (rest.take length), rest.drop length)
      else
        (.error (.handshake s!"snapshot truncated after {rest.length} of {length} bytes"), [])

/-- Read the reply to a resync request and the snapshot after it. -/
def readResync : Reader Resync := fun input =>
  match Reply.read input with
  | (.error e, rest) => (.error e, rest)
  | (.ok reply, rest) =>
    match announcement reply with
    | .error e => (.error e, rest)
    | .ok (replicationId, offset) =>
      match readSnapshot rest with
      | (.error e, rest) => (.error e, rest)
      | (.ok snapshot, rest) => (.ok ⟨replicationId, offset, snapshot⟩, rest)

/-- How a handshake went. -/
structure Result where
  outcome : Except Error Resync
  /-- What the replica sent. -/
  sent : Bytes
  /-- The bytes of the master that were left unread. -/
  unread : Bytes

/-- The rest of a handshake, from the given exchanges on. -/
def runFrom : List Exchange → Bytes → Result
  | [], input =>
    let (outcome, unread) := readResync input
    ⟨outcome, request resyncRequest, unread⟩
  | exchange :: later, input =>
    match exchange.check input with
    | (.error e, unread) => ⟨.error e, request exchange.words, unread⟩
    | (.ok (), unread) =>
      let result := runFrom later unread
      { result with sent := request exchange.words ++ result.sent }

/-- The handshake of a replica that listens on `port` with a master that says `input`. -/
def run (port : UInt16) (input : Bytes) : Result := runFrom (exchanges port) input

end Handshake

end KeyValue
