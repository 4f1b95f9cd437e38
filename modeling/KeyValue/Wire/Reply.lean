import KeyValue.Error
import KeyValue.Text.Decimal
import KeyValue.Text.Utf8

/-!
# Replies

A reply is a tree of texts, byte strings, numbers and nulls. Its wire form starts with a byte
that tells the kind; texts end at the line end, while byte strings and arrays announce their
length. A request is the array of bulk strings that holds the words of a command.

`Reply.snapshot` is the one reply without an end mark of its own: the payload that a master sends
to a new replica, directly followed by the command stream.

## Main definitions

* `Reply`: A reply.
* `Reply.encode`: The wire form of a reply.
* `Reply.ofError`: The error reply for a failed command.
* `Wire.request`: The wire form of a command.
-/

namespace KeyValue

/-- A reply to a client. -/
inductive Reply where
  /-- A line of text. -/
  | simple (text : String)
  /-- A byte string of announced length. -/
  | bulk (payload : Bytes)
  | null
  | nullArray
  | integer (value : Int64)
  | array (items : List Reply)
  /-- A line of text that reports a failure; it starts with the error's code. -/
  | error (text : String)
  /-- A byte string of announced length without an end mark. -/
  | snapshot (payload : Bytes)
  deriving Repr, Inhabited

/-- The line end of the wire protocol. -/
def Wire.crlf : Bytes := [13, 10]

namespace Reply

/-- The reply to a command that succeeds without a result. -/
def ok : Reply := simple "OK"

/-- A text as a bulk string. -/
def bulkText (text : String) : Reply := bulk (Text.bytes text)

/-- Texts as an array of bulk strings. -/
def bulkTexts (texts : List String) : Reply := array (texts.map bulkText)

/-- An error reply with the general code. -/
def failure (message : String) : Reply := error s!"ERR {message}"

/-- The error reply for a failed command. -/
def ofError (e : Error) : Reply := error s!"{e.code} {e.message}"

/-- The reply that carries the outcome of a command. -/
def ofExcept : Except Error Reply → Reply
  | .ok reply => reply
  | .error e => ofError e

/-- Whether the reply reports a failure. -/
def isError : Reply → Bool
  | error _ => true
  | _ => false

/-- The text of a reply that carries one. -/
def text? : Reply → Option String
  | simple text => some text
  | error text => some text
  | bulk payload => some (Text.ofBytes payload)
  | _ => none

/-- The line that announces a length. -/
def lengthLine (mark : Char) (length : Nat) : Bytes :=
  Text.bytes (mark.toString ++ Nat.repr length) ++ Wire.crlf

mutual

/-- The wire form of a reply. -/
def encode : Reply → Bytes
  | simple text => Text.bytes ("+" ++ text) ++ Wire.crlf
  | bulk payload => lengthLine '$' payload.length ++ payload ++ Wire.crlf
  | null => Text.bytes "$-1" ++ Wire.crlf
  | nullArray => Text.bytes "*-1" ++ Wire.crlf
  | integer value => Text.bytes (":" ++ Decimal.ofInt64 value) ++ Wire.crlf
  | array items => lengthLine '*' items.length ++ encodeAll items
  | error text => Text.bytes ("-" ++ text) ++ Wire.crlf
  | snapshot payload => lengthLine '$' payload.length ++ payload

/-- The wire forms of replies, one after another. -/
def encodeAll : List Reply → Bytes
  | [] => []
  | reply :: replies => encode reply ++ encodeAll replies

end

end Reply

/-- The wire form of a command: an array of bulk strings, one for each word. -/
def Wire.request (words : List String) : Bytes :=
  (Reply.bulkTexts words).encode

end KeyValue
