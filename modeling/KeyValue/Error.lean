/-!
# Errors

Every failure belongs to one of a few classes. The class decides what happens next: a malformed
stream makes a connection start framing afresh, a failed command is answered with an error reply,
a failed handshake ends a replica's start. The detail is for people.

## Main definitions

* `Error`: A failure, by class.
* `Error.message`: The text shown for a failure.
* `Error.code`: The word in front of the message in an error reply.
-/

namespace KeyValue

/-- A failure, by class; the text is the detail that the class leaves open. -/
inductive Error where
  /-- A file or a connection failed. -/
  | io (detail : String)
  /-- The byte stream breaks the wire protocol. -/
  | protocol (detail : String)
  | unknownCommand (name : String)
  | wrongArity (command : String)
  /-- An argument that no option or keyword allows. -/
  | malformed (detail : String)
  | wrongType
  | notInteger
  | noSuchKey
  | streamId (detail : String)
  | transaction (detail : String)
  | handshake (detail : String)
  | snapshot (detail : String)
  | config (detail : String)
  deriving DecidableEq, Repr, Inhabited

namespace Error

/-- The text shown for a failure. -/
def message : Error → String
  | io detail => s!"IO error: {detail}"
  | protocol detail => s!"Protocol error: {detail}"
  | unknownCommand name => s!"unknown command '{name}'"
  | wrongArity command => s!"wrong number of arguments for '{command}' command"
  | malformed detail => s!"syntax error: {detail}"
  | wrongType => "Operation against a key holding the wrong kind of value"
  | notInteger => "value is not an integer or out of range"
  | noSuchKey => "no such key"
  | streamId detail => detail
  | transaction detail => detail
  | handshake detail => s!"Handshake with master failed: {detail}"
  | snapshot detail => s!"Snapshot error: {detail}"
  | config detail => s!"Configuration error: {detail}"

/-- The word in front of the message in an error reply. -/
def code : Error → String
  | wrongType => "WRONGTYPE"
  | _ => "ERR"

/-- Whether the failure leaves a framer unable to go on. -/
def isProtocol : Error → Bool
  | protocol _ => true
  | _ => false

/-- The input of a connection ended where a reply was expected. -/
def connectionClosed : Error := io "connection closed while reading a reply"

/-- The input ended inside a payload of known length. -/
def payloadCutShort : Error := io "failed to fill whole buffer"

end Error

end KeyValue
