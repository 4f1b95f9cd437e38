import KeyValue.Transaction

/-!
# Sessions

What the server keeps for one client between its commands, and what it answers.

## Main definitions

* `Session`: The state of a session.
* `Response`: What is sent back for a command.
-/

namespace KeyValue

/-- The state of a session. -/
structure Session where
  transaction : Transaction := .closed
  /-- The id under which the session is registered as a replica. -/
  replicaId : Option Nat := none
  deriving DecidableEq, Repr, Inhabited

/-- What is sent back for a command. -/
inductive Response where
  | reply (reply : Reply)
  /-- Nothing is sent. -/
  | silent
  /-- The header and the snapshot of a resync are sent, after which the session is a replica. -/
  | fullResync (header : Reply) (snapshot : Bytes)
  deriving Repr, Inhabited

namespace Response

/-- The response that carries the outcome of a request. -/
def ofExcept (result : Except Error Reply) : Response := reply (.ofExcept result)

/-- The refusal of a request. -/
def refusal (e : Error) : Response := reply (.ofError e)

/-- Whether the response reports a failure. -/
def isFailure : Response → Bool
  | .reply content => content.isError
  | _ => false

end Response

end KeyValue
