import KeyValue.Replication.Master
import KeyValue.Replication.Replica

/-!
# Roles

A server is a master or a replica from its start to its end.

## Main definitions

* `Role`: The role of a server, with its replication state.
-/

namespace KeyValue

/-- The role of a server, with its replication state. -/
inductive Role where
  | master (state : Master)
  | replica (state : Replica)
  deriving DecidableEq, Repr, Inhabited

namespace Role

/-- The role at the start of a server; a master gets the given id. -/
def start (config : Config) (replicationId : String) : Role :=
  match config.replicaOf with
  | some address => .replica { master := address }
  | none => .master { replicationId }

/-- The state of a master. -/
def master? : Role → Option Master
  | master state => some state
  | replica _ => none

/-- The state of a replica. -/
def replica? : Role → Option Replica
  | master _ => none
  | replica state => some state

/-- The facts reported about replication, in order. -/
def facts : Role → List (String × String)
  | master state => state.facts
  | replica state => state.facts

end Role

end KeyValue
