import KeyValue.Stream.Id
import KeyValue.Wire.Reply

/-!
# Streams

A stream is a log of entries with increasing ids. An entry is added at the end only, so the ids
of a stream are sorted and a range of ids is a contiguous part of the log.

A new entry may leave its id to the stream, which then takes the least one that the request
allows and that lies above the last entry. Time that runs backwards does not matter: the stream
goes on in the milliseconds of its last entry.

## Main definitions

* `StreamEntry`: An id with fields.
* `Stream`: A log of entries.
* `Stream.nextId`: The id that a new entry gets.
* `Stream.append`: Adds an entry.
* `Stream.range`, `Stream.after`: Parts of the log.
-/

namespace KeyValue

/-- An entry of a stream: fields with their values, in the order given. -/
structure StreamEntry where
  id : StreamId
  fields : List (String × String)
  deriving DecidableEq, Repr, Inhabited

/-- An entry as a reply: its id and the flat list of fields and values. -/
def StreamEntry.reply (entry : StreamEntry) : Reply :=
  .array [.bulkText entry.id.text,
    .bulkTexts (entry.fields.flatMap fun (field, value) => [field, value])]

/-- A log of entries with increasing ids, oldest first. -/
structure Stream where
  entries : List StreamEntry := []
  deriving DecidableEq, Repr, Inhabited

namespace Stream

/-- A stream without entries. -/
def empty : Stream := {}

def isEmpty (stream : Stream) : Bool := stream.entries.isEmpty

def size (stream : Stream) : Nat := stream.entries.length

/-- The id of the last entry. -/
def lastId? (stream : Stream) : Option StreamId :=
  stream.entries.getLast?.map (·.id)

/-- The least id of the given milliseconds above `last`, where `0-0` is below every entry. -/
def nextIn (last : Option StreamId) (ms : UInt64) : Except Error StreamId :=
  match last with
  | none => .ok (first ms)
  | some top =>
    if top.ms = ms then
      if top.seq = StreamId.maxPart then .error StreamId.tooSmall else .ok ⟨ms, top.seq + 1⟩
    else if ms < top.ms then .error StreamId.tooSmall
    else .ok (first ms)
where
  /-- The first id of the milliseconds that an entry may have. -/
  first (ms : UInt64) : StreamId := if ms = 0 then ⟨0, 1⟩ else ⟨ms, 0⟩

/-- Refuse an id that is not above `last`. -/
def checkAbove (last : Option StreamId) (id : StreamId) : Except Error Unit :=
  match last with
  | none => .ok ()
  | some top => if id ≤ top then .error StreamId.tooSmall else .ok ()

/-- The id that a new entry gets at the time `now`. -/
def nextId (stream : Stream) (request : IdRequest) (now : UInt64) : Except Error StreamId :=
  let last := stream.lastId?
  match request with
  | .explicit id =>
    if id = StreamId.zero then .error StreamId.notAboveZero
    else (checkAbove last id).map fun _ => id
  | .autoSequence ms => nextIn last ms
  | .auto =>
    match last with
    | none => nextIn last now
    | some top => nextIn last (if now < top.ms then top.ms else now)

/-- Add an entry at the end. -/
def append (stream : Stream) (id : StreamId) (fields : List (String × String)) :
    Except Error Stream :=
  (checkAbove stream.lastId? id).map fun _ => ⟨stream.entries ++ [⟨id, fields⟩]⟩

/-- The first `count` entries, or all of them. -/
def takeCount (count : Option Nat) (entries : List StreamEntry) : List StreamEntry :=
  match count with
  | none => entries
  | some n => entries.take n

/-- The number of entries in front of the first one whose id does not satisfy `below`. -/
def position (stream : Stream) (below : StreamId → Bool) : Nat :=
  (stream.entries.takeWhile fun entry => below entry.id).length

/-- The entries from `start` to `stop`, both included, at most `count` of them. -/
def range (stream : Stream) (start stop : StreamId) (count : Option Nat) : List StreamEntry :=
  if stop < start then []
  else
    let low := stream.position (· < start)
    let high := stream.position (· ≤ stop)
    takeCount count ((stream.entries.drop low).take (high - low))

/-- The entries above `id`, at most `count` of them. -/
def after (stream : Stream) (id : StreamId) (count : Option Nat) : List StreamEntry :=
  takeCount count (stream.entries.drop (stream.position (· ≤ id)))

end Stream

end KeyValue
