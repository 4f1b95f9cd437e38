import KeyValue.Config
import KeyValue.Text.Decimal

/-!
# Replicas

A replica knows its master and counts the bytes of the commands it applied. The count is what it
reports when the master asks for an acknowledgement.

## Main definitions

* `Replica`: The replication state of a replica.
* `Replica.advance`: Counts the bytes of a command.
-/

namespace KeyValue

/-- The replication state of a replica. -/
structure Replica where
  master : MasterAddress
  /-- The id that the master announced, or a question mark before it did. -/
  replicationId : String := "?"
  /-- The bytes of the commands applied so far. -/
  offset : UInt64 := 0
  deriving DecidableEq, Repr, Inhabited

namespace Replica

/-- Count the bytes of a command. -/
def advance (replica : Replica) (bytes : UInt64) : Replica :=
  { replica with offset := replica.offset + bytes }

/-- The facts reported about a replica, in order. -/
def facts (replica : Replica) : List (String × String) :=
  [("role", "slave"),
    ("master_replid", replica.replicationId),
    ("master_repl_offset", Decimal.ofUInt64 replica.offset)]

end Replica

end KeyValue
