import KeyValue.Command
import KeyValue.Wire.Limits

/-!
# Framing

A connection delivers bytes in pieces that have nothing to do with where commands begin and end.
A framer buffers them and hands out one command at a time, in either of two forms: an array of
bulk strings, or an inline line of words.

An array that is buffered whole is read in one go. Otherwise the framer reads it element by
element and remembers how far it came, so that later pieces do not make it start over.

A malformed stream stops a framer until it is reset. An unknown command does not: its bytes are
dropped as a whole and the bytes after it are framed as if it had not been there.

Every step of `Framer.advance` consumes at least one buffered byte, so the number of buffered
bytes bounds the recursion.

## Main definitions

* `Framer`: The buffered bytes and the progress made on them.
* `Framer.feed`: Appends bytes and advances as far as they allow.
* `Framer.take`: Hands out the command that is ready.
* `Framer.drain`: Feeds bytes and hands out every command they complete.
-/

namespace KeyValue

namespace Wire

/-- A line at the front of a buffer. -/
structure BufferedLine where
  /-- The line without its end. -/
  content : Bytes
  /-- The number of bytes the line takes with its end. -/
  size : Nat
  deriving DecidableEq, Repr

/-- Drop one carriage return from the end. -/
def stripReturn (line : Bytes) : Bytes :=
  if line.getLast? = some 13 then line.dropLast else line

/-- The line at the front of the bytes, if its line feed is there. A carriage return in front of
    the line feed belongs to the line end. -/
def findLine (bytes : Bytes) : Option BufferedLine :=
  match bytes.span (· != 10) with
  | (_, []) => none
  | (line, _ :: _) => some ⟨stripReturn line, line.length + 1⟩

/-- The line at the front of the bytes; a line without its line feed must not grow too long. -/
def lineAt (bytes : Bytes) : Except Error (Option BufferedLine) :=
  match findLine bytes with
  | some line => .ok (some line)
  | none =>
    if bytes.length > maxLineLength then .error (.protocol "line exceeds maximum length")
    else .ok none

/-- The number in a header line that starts with `mark`. -/
def headerLength (mark : Char) (line : Bytes) : Except Error Nat :=
  let invalid := Error.protocol s!"expected '{mark}' length line, got '{Text.ofBytes line}'"
  match line with
  | [] => .error invalid
  | first :: digits =>
    if first.toNat = mark.toNat then
      -- A byte beyond ASCII becomes a character that is no digit.
      match Decimal.bounded? Decimal.maxUInt64 (digits.map fun b => Char.ofNat b.toNat) with
      | some length => .ok length
      | none => .error invalid
    else .error invalid

/-- The element count in an array header; a command has at least one element. -/
def arrayHeader (line : Bytes) : Except Error Nat :=
  match headerLength '*' line with
  | .error e => .error e
  | .ok declared =>
    if declared = 0 then .error (.protocol "empty command array")
    else if declared > maxArrayLength then
      .error (.protocol s!"array length {declared} exceeds maximum {maxArrayLength}")
    else .ok declared

/-- The byte count in the header of an element. -/
def bulkHeader (line : Bytes) : Except Error Nat :=
  match headerLength '$' line with
  | .error e => .error e
  | .ok length =>
    if length > maxBulkLength then
      .error (.protocol s!"bulk length {length} exceeds maximum {maxBulkLength}")
    else .ok length

/-- The text of an element of `length` bytes at the front of the bytes, or `none` while it is not
    complete with its line end. -/
def bulkValue (length : Nat) (bytes : Bytes) : Except Error (Option String) :=
  let value := bytes.take length
  match bytes.drop length with
  | first :: second :: _ =>
    if [first, second] = crlf then .ok (some (Text.ofBytes value))
    else .error (.protocol s!"bulk string longer than declared length {length}")
  | _ => .ok none

/-- Read `count` elements that are buffered whole: the elements and the number of bytes they take,
    or `none` if bytes are missing. -/
def wholeElements : Nat → Bytes → Except Error (Option (List String × Nat))
  | 0, _ => .ok (some ([], 0))
  | count + 1, bytes =>
    match findLine bytes with
    | none => .ok none
    | some header =>
      match bulkHeader header.content with
      | .error e => .error e
      | .ok length =>
        let afterHeader := bytes.drop header.size
        match bulkValue length afterHeader with
        | .error e => .error e
        | .ok none => .ok none
        | .ok (some value) =>
          match wholeElements count (afterHeader.drop (length + crlf.length)) with
          | .error e => .error e
          | .ok none => .ok none
          | .ok (some (values, size)) =>
            .ok (some (value :: values, header.size + (length + crlf.length) + size))

/-- Read an array that is buffered whole: its elements and the number of bytes it takes, or `none`
    if bytes are missing. -/
def wholeArray (bytes : Bytes) : Except Error (Option (List String × Nat)) :=
  match findLine bytes with
  | none => .ok none
  | some header =>
    match arrayHeader header.content with
    | .error e => .error e
    | .ok declared =>
      match wholeElements declared (bytes.drop header.size) with
      | .error e => .error e
      | .ok none => .ok none
      | .ok (some (values, size)) => .ok (some (values, header.size + size))

end Wire

/-- How far a framer came with the command at the front of its buffer. The cursor is the number of
    buffered bytes that were read for it. -/
inductive Framer.Progress where
  /-- No command was begun. -/
  | idle
  /-- The header of the next element comes next. -/
  | awaitingLength (cursor declared : Nat) (elements : List String)
  /-- The bytes of the next element come next. -/
  | awaitingValue (cursor declared : Nat) (elements : List String) (length : Nat)
  /-- A command is ready to be handed out. -/
  | complete (command : Command)
  /-- The stream is malformed. -/
  | failed
  deriving DecidableEq, Repr, Inhabited

/-- An incremental reader of commands. -/
structure Framer where
  /-- The bytes received that belong to no finished command. -/
  buffer : Bytes := []
  progress : Framer.Progress := .idle
  deriving DecidableEq, Repr, Inhabited

namespace Framer

open Wire

/-- A framer that has received nothing. -/
def empty : Framer := {}

/-- The number of buffered bytes that were read for the command in progress. -/
def cursor (framer : Framer) : Nat :=
  match framer.progress with
  | .awaitingLength cursor .. => cursor
  | .awaitingValue cursor .. => cursor
  | _ => 0

/-- The buffered bytes that were not read yet. -/
def unread (framer : Framer) : Bytes := framer.buffer.drop framer.cursor

/-- The number of buffered bytes. -/
def buffered (framer : Framer) : Nat := framer.buffer.length

/-- What a step of a framer leads to. -/
inductive Step where
  /-- A step was made; there may be more to do. -/
  | next (framer : Framer)
  /-- Nothing more can be done with the bytes at hand. -/
  | rest (framer : Framer)
  /-- The bytes are no known command; the framer is as it is left behind. -/
  | fail (error : Error) (framer : Framer)

/-- Finish a command of `size` bytes: it becomes ready if its name is known, and is dropped
    otherwise. -/
def finish (framer : Framer) (name : String) (args : List String) (size : Nat) : Step :=
  let rest := framer.buffer.drop size
  match CommandName.ofText? name with
  | some known => .rest ⟨rest, .complete ⟨known, args, framer.buffer.take size⟩⟩
  | none => .fail (.unknownCommand name) ⟨rest, .idle⟩

/-- Finish an array of `size` bytes. -/
def finishArray (framer : Framer) (elements : List String) (size : Nat) : Step :=
  match elements with
  | name :: args => framer.finish name args size
  | [] => .fail (.protocol "array completed without a command name") framer

/-- Finish an inline line. -/
def finishInline (framer : Framer) (line : BufferedLine) : Step :=
  match Text.asciiWords (Text.ofBytes line.content) with
  | name :: args => framer.finish name args line.size
  | [] => framer.finish "" [] line.size

/-- The ASCII blanks, as bytes. -/
def isBlankByte (byte : UInt8) : Bool := Text.isAsciiBlank (Char.ofNat byte.toNat)

/-- Take a step where a command may begin. -/
def stepIdle (framer : Framer) : Step :=
  match framer.buffer with
  | [] => .rest framer
  | first :: _ =>
    if first = 42 then
      match wholeArray framer.buffer with
      | .error e => .fail e framer
      | .ok (some (elements, size)) => framer.finishArray elements size
      | .ok none =>
        match lineAt framer.buffer with
        | .error e => .fail e framer
        | .ok none => .rest framer
        | .ok (some line) =>
          match arrayHeader line.content with
          | .error e => .fail e framer
          | .ok declared => .next { framer with progress := .awaitingLength line.size declared [] }
    else
      match lineAt framer.buffer with
      | .error e => .fail e framer
      | .ok none => .rest framer
      | .ok (some line) =>
        if line.content.all isBlankByte then
          .next { framer with buffer := framer.buffer.drop line.size }
        else framer.finishInline line

/-- Take one step. -/
def step (framer : Framer) : Step :=
  match framer.progress with
  | .idle => framer.stepIdle
  | .awaitingLength cursor declared elements =>
    match lineAt framer.unread with
    | .error e => .fail e framer
    | .ok none => .rest framer
    | .ok (some line) =>
      match bulkHeader line.content with
      | .error e => .fail e framer
      | .ok length =>
        .next { framer with
          progress := .awaitingValue (cursor + line.size) declared elements length }
  | .awaitingValue cursor declared elements length =>
    match bulkValue length framer.unread with
    | .error e => .fail e framer
    | .ok none => .rest framer
    | .ok (some value) =>
      let elements := elements ++ [value]
      let cursor := cursor + length + crlf.length
      if elements.length = declared then framer.finishArray elements cursor
      else .next { framer with progress := .awaitingLength cursor declared elements }
  | .complete _ => .rest framer
  | .failed => .fail (.protocol "framer is in a failed state") framer

/-- Take at most `steps` steps. -/
def run : Nat → Framer → Except Error Unit × Framer
  | 0, framer => (.ok (), framer)
  | steps + 1, framer =>
    match framer.step with
    | .next framer => run steps framer
    | .rest framer => (.ok (), framer)
    | .fail e framer => (.error e, framer)

/-- Go on as far as the buffered bytes allow. Every step but the last reads a byte or more. -/
def advance (framer : Framer) : Except Error Unit × Framer :=
  run (framer.unread.length + 1) framer

/-- Whether a command is ready. -/
def isReady (framer : Framer) : Bool :=
  match framer.progress with
  | .complete _ => true
  | _ => false

/-- Append bytes and go on as far as they allow; the result tells whether a command is ready.
    Feeding no bytes looks again at what an earlier command left over. -/
def feed (framer : Framer) (bytes : Bytes) : Except Error Bool × Framer :=
  match framer.progress with
  | .failed => (.error (.protocol "framer must be reset after a protocol error"), framer)
  | _ =>
    match advance { framer with buffer := framer.buffer ++ bytes } with
    | (.ok (), framer) => (.ok framer.isReady, framer)
    | (.error e, framer) =>
      (.error e, if e.isProtocol then { framer with progress := .failed } else framer)

/-- Hand out the command that is ready. Bytes received after it stay buffered. -/
def take (framer : Framer) : Option Command × Framer :=
  match framer.progress with
  | .complete command => (some command, { framer with progress := .idle })
  | _ => (none, framer)

/-- Forget everything received. -/
def reset (_framer : Framer) : Framer := empty

/-- What framing yields: a command, or the reason why bytes are none. -/
abbrev Event := Except Error Command

/-- Feed bytes and hand out every command that is ready after them, going on after an unknown
    command and stopping at a malformed stream; at most `count` feeds are made. -/
def drainFor : Nat → Framer → Bytes → List Event × Framer
  | 0, framer, _ => ([], framer)
  | count + 1, framer, bytes =>
    match framer.feed bytes with
    | (.ok true, framer) =>
      match framer.take with
      | (some command, framer) =>
        let (events, framer) := drainFor count framer []
        (.ok command :: events, framer)
      | (none, framer) => ([], framer)
    | (.ok false, framer) => ([], framer)
    | (.error e, framer) =>
      if e.isProtocol then ([.error e], framer)
      else
        let (events, framer) := drainFor count framer []
        (.error e :: events, framer)

/-- Feed bytes and hand out every command that is ready after them. Each command and each unknown
    command removes a byte or more from the buffer, so the bytes at hand bound the feeds. A command
    that was ready before takes one feed more. -/
def drain (framer : Framer) (bytes : Bytes) : List Event × Framer :=
  drainFor (framer.buffered + bytes.length + 2) framer bytes

/-- Feed bytes and hand out every command that is ready after them; after a malformed stream,
    reported as the last event, the framer starts afresh. -/
def absorb (framer : Framer) (bytes : Bytes) : List Event × Framer :=
  let (events, framer) := framer.drain bytes
  match framer.progress with
  | .failed => (events, framer.reset)
  | _ => (events, framer)

end Framer

end KeyValue
