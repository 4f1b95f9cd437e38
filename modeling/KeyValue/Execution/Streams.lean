import KeyValue.Keyspace
import KeyValue.Text.Word

/-!
# Commands on streams

A read names streams and, for each of them, the id above which entries are wanted; instead of an
id it may ask for what comes after the read. Ids are resolved once, in the order of the streams,
so a read that waits looks above the same ids each time it looks.

A read looks at one stream after the other. Every stream is looked at by itself, so entries that
arrive meanwhile may be seen in a later stream and missed in an earlier one; they are found the
next time.

## Main definitions

* `StreamCommand.addEntry`, `StreamCommand.range`: Adding and ranges.
* `StreamRead`: A read as it was asked for.
* `StreamRead.ofArguments`: Reads the options and streams of a read.
* `Cursor`: A stream with the id above which entries are wanted.
* `Cursor.resolve`, `Cursor.read`: A cursor is made and looks at its stream.
* `Cursor.resolveAll`, `Cursor.readAll`: All streams of a read.
-/

namespace KeyValue

namespace StreamCommand

/-- Fields with their values, from a flat list; none if a value is missing. -/
def pairs? : List String → Option (List (String × String))
  | [] => some []
  | [_] => none
  | field :: value :: rest => (pairs? rest).map fun pairs => (field, value) :: pairs

/-- Add an entry to the stream of a key. -/
def addEntry (keyspace : Keyspace) (now : UInt64) (key id : String) (fields : List String) :
    Except Error StreamId × Keyspace :=
  match IdRequest.ofText id with
  | .error e => (.error e, keyspace)
  | .ok request =>
    match pairs? fields with
    | none => (.error (.wrongArity "xadd"), keyspace)
    | some fields => keyspace.addEntry now key request fields

/-- A number of entries, from its text. -/
def countOf (text : String) : Except Error Nat :=
  match Decimal.count? text with
  | some count => .ok count
  | none => .error .notInteger

/-- The limit that the options of a range set. -/
def rangeLimit : List String → Except Error (Option Nat)
  | [] => .ok none
  | [option, count] =>
    if Text.sameWord option "COUNT" then (countOf count).map some
    else .error (.malformed "expected COUNT <n>")
  | _ => .error (.malformed "expected COUNT <n>")

/-- Entries as a reply. -/
def entriesReply (entries : List StreamEntry) : Reply := .array (entries.map StreamEntry.reply)

/-- The entries of a stream between two ids. -/
def range (keyspace : Keyspace) (now : UInt64) (key start stop : String) (options : List String) :
    Except Error Reply × Keyspace :=
  let bounds : Except Error (StreamId × StreamId × Option Nat) := do
    return (← StreamId.rangeStart start, ← StreamId.rangeEnd stop, ← rangeLimit options)
  match bounds with
  | .error e => (.error e, keyspace)
  | .ok (start, stop, count) =>
    let (result, keyspace) := keyspace.range now key start stop count
    (result.map entriesReply, keyspace)

end StreamCommand

/-- A read as it was asked for. -/
structure StreamRead where
  /-- The most entries wanted of each stream. -/
  count : Option Nat := none
  /-- How many milliseconds to wait for an entry; zero means forever. -/
  block : Option UInt64 := none
  /-- The keys of the streams, each with the text of an id. -/
  starts : List (String × String) := []
  deriving DecidableEq, Repr, Inhabited

namespace StreamRead

/-- The keys and then the ids of a read, as many of them. -/
def startsOf (words : List String) : Except Error (List (String × String)) :=
  if words.isEmpty || words.length % 2 != 0 then
    .error (.malformed ("unbalanced XREAD list of streams: " ++
      "for each stream key an ID must be specified"))
  else
    let half := words.length / 2
    .ok ((words.take half).zip (words.drop half))

/-- The refusal of arguments that do not lead to streams. -/
def expectedStreams : Error := .malformed "expected STREAMS before keys"

/-- The read that the arguments ask for, beyond what `read` has of it. An option that comes again
    counts the last time. -/
def ofArguments (read : StreamRead) : List String → Except Error StreamRead
  | [] => .error expectedStreams
  | option :: rest =>
    if Text.sameWord option "STREAMS" then
      (startsOf rest).map fun starts => { read with starts }
    else
      match rest with
      | [] => .error expectedStreams
      | value :: rest =>
        if Text.sameWord option "COUNT" then
          match Decimal.count? value with
          | none => .error .notInteger
          | some count => ofArguments { read with count } rest
        else if Text.sameWord option "BLOCK" then
          match Decimal.uint64? value with
          | none => .error .notInteger
          | some block => ofArguments { read with block } rest
        else .error expectedStreams

/-- The keys of the streams. -/
def keys (read : StreamRead) : List String := read.starts.map (·.1)

end StreamRead

/-- A stream with the id above which entries are wanted. -/
structure Cursor where
  key : String
  above : StreamId
  deriving DecidableEq, Repr, Inhabited

namespace Cursor

/-- The cursor that a key and the text of an id stand for; a dollar sign stands for the last id of
    the stream. -/
def resolve (keyspace : Keyspace) (now : UInt64) (key id : String) :
    Except Error Cursor × Keyspace :=
  if id = "$" then
    let (result, keyspace) := keyspace.lastId now key
    (result.map (⟨key, ·⟩), keyspace)
  else ((StreamId.rangeStart id).map (⟨key, ·⟩), keyspace)

/-- The cursors of a read, up to the first one that fails. -/
def resolveAll (keyspace : Keyspace) (now : UInt64) :
    List (String × String) → Except Error (List Cursor) × Keyspace
  | [] => (.ok [], keyspace)
  | (key, id) :: rest =>
    match resolve keyspace now key id with
    | (.error e, keyspace) => (.error e, keyspace)
    | (.ok cursor, keyspace) =>
      let (result, keyspace) := resolveAll keyspace now rest
      (result.map (cursor :: ·), keyspace)

/-- The entries above a cursor. -/
def read (keyspace : Keyspace) (now : UInt64) (count : Option Nat) (cursor : Cursor) :
    Except Error (List StreamEntry) × Keyspace :=
  keyspace.after now cursor.key cursor.above count

/-- The entries of one stream as a reply. -/
def streamReply (key : String) (entries : List StreamEntry) : Reply :=
  .array [.bulkText key, StreamCommand.entriesReply entries]

/-- The replies for the streams that have entries above their cursors, up to the first stream that
    fails. -/
def readAll (keyspace : Keyspace) (now : UInt64) (count : Option Nat) :
    List Cursor → Except Error (List Reply) × Keyspace
  | [] => (.ok [], keyspace)
  | cursor :: rest =>
    match cursor.read keyspace now count with
    | (.error e, keyspace) => (.error e, keyspace)
    | (.ok entries, keyspace) =>
      let (result, keyspace) := readAll keyspace now count rest
      (result.map fun replies =>
        if entries.isEmpty then replies else streamReply cursor.key entries :: replies, keyspace)

/-- The reply of a read that found these streams. -/
def readReply (replies : List Reply) : Reply :=
  if replies.isEmpty then .null else .array replies

end Cursor

end KeyValue
