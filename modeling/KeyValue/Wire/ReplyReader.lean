import KeyValue.Wire.Limits
import KeyValue.Wire.Reply

/-!
# Reading replies

A client and a starting replica read replies from a byte stream. A reader takes the unread input
and returns what it read, or why it could not, together with what is left unread; the rest is
part of the outcome also after a failure, because a caller may go on reading.

The nesting of arrays is bounded by the length of the input: every array header takes bytes, so
`Reply.read` lends the recursion one level for each byte of input.

## Main definitions

* `Wire.Reader`: A function that reads from the front of a byte stream.
* `Wire.readLine`: Reads a line of text.
* `Wire.readExactly`: Reads a payload of known length.
* `Reply.read`: Reads one reply.
-/

namespace KeyValue

namespace Wire

/-- Reads a value from the front of the unread input; the result comes with the input that is
    left. -/
abbrev Reader (α : Type) := Bytes → Except Error α × Bytes

/-- Read one line of UTF-8 text that ends in carriage return and line feed, without that end. A
    line that is empty, or ends in any other way, is refused. -/
def readLine : Reader String := fun input =>
  match input.span (· != 10) with
  | ([], []) => (.error .connectionClosed, [])
  | (_, []) => (.error (.protocol "reply line not terminated by CRLF"), [])
  | (line, _ :: rest) =>
    if line.getLast? = some 13 then
      match line.dropLast with
      | [] => (.error (.protocol "empty reply line"), rest)
      | content =>
        match Text.ofBytes? content with
        | some text => (.ok text, rest)
        | none => (.error (.protocol "reply line is not UTF-8"), rest)
    else
      (.error (.protocol "reply line not terminated by CRLF"), rest)

/-- Read exactly `count` bytes; if fewer are left, all of them are lost. -/
def readExactly (count : Nat) : Reader Bytes := fun input =>
  if count ≤ input.length then (.ok (input.take count), input.drop count)
  else (.error .payloadCutShort, [])

/-- Read a bulk string of `length` bytes with its line end. -/
def readPayload (length : Nat) : Reader Bytes := fun input =>
  match readExactly (length + crlf.length) input with
  | (.error e, rest) => (.error e, rest)
  | (.ok payload, rest) =>
    if payload.drop length = crlf then (.ok (payload.take length), rest)
    else (.error (.protocol "bulk string not terminated by CRLF"), rest)

/-- Read `count` values in a row, up to the first failure. -/
def readMany {α : Type} (read : Reader α) : Nat → Reader (List α)
  | 0 => fun input => (.ok [], input)
  | count + 1 => fun input =>
    match read input with
    | (.error e, rest) => (.error e, rest)
    | (.ok value, rest) =>
      match readMany read count rest with
      | (.error e, rest) => (.error e, rest)
      | (.ok values, rest) => (.ok (value :: values), rest)

/-- A length in a reply: `-1` announces a null, any other number is unsigned. -/
def replyLength (spelling : String) : Except Error (Option Nat) :=
  if spelling = "-1" then .ok none
  else match Decimal.count? spelling with
    | some length => .ok (some length)
    | none => .error (.protocol s!"invalid length '{spelling}'")

end Wire

namespace Reply

open Wire

/-- Read one reply of at most `depth` nested arrays. -/
def readWithin : Nat → Reader Reply
  | 0 => fun input => (.error .connectionClosed, input)
  | depth + 1 => fun input =>
    match readLine input with
    | (.error e, rest) => (.error e, rest)
    | (.ok line, rest) =>
      match line.toList with
      | [] => (.error (.protocol s!"unexpected reply line '{line}'"), rest)
      | mark :: body =>
        let text := String.ofList body
        if mark.utf8Size ≠ 1 then
          (.error (.protocol s!"unexpected reply line '{line}'"), rest)
        else match mark with
          | '+' => (.ok (simple text), rest)
          | '-' => (.ok (error text), rest)
          | ':' =>
            match Decimal.int64? text with
            | some value => (.ok (integer value), rest)
            | none => (.error (.protocol s!"invalid integer reply '{text}'"), rest)
          | '$' =>
            match replyLength text with
            | .error e => (.error e, rest)
            | .ok none => (.ok null, rest)
            | .ok (some length) =>
              if length > maxBulkLength then
                (.error (.protocol s!"bulk length {length} exceeds maximum {maxBulkLength}"), rest)
              else match readPayload length rest with
                | (.error e, rest) => (.error e, rest)
                | (.ok payload, rest) => (.ok (bulk payload), rest)
          | '*' =>
            match replyLength text with
            | .error e => (.error e, rest)
            | .ok none => (.ok nullArray, rest)
            | .ok (some count) =>
              if count > maxArrayLength then
                (.error (.protocol s!"array length {count} exceeds maximum {maxArrayLength}"), rest)
              else match readMany (readWithin depth) count rest with
                | (.error e, rest) => (.error e, rest)
                | (.ok items, rest) => (.ok (array items), rest)
          | mark => (.error (.protocol s!"unexpected reply type '{mark}'"), rest)

/-- Read one reply. An array header takes at least one byte, so the input is at least as long as
    the nesting is deep. -/
def read : Reader Reply := fun input => readWithin (input.length + 1) input

end Reply

end KeyValue
