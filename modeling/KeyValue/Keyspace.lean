import KeyValue.Value

/-!
# The keyspace

The keyspace maps keys to values that may expire. An expired value is as good as absent, but it
is removed only when its key is touched or all keys are listed, so every operation on a key
returns the keyspace it leaves behind, also when it only reads. Only the number of stored keys
tells whether an expired value was removed yet.

A key occurs at most once in the list of entries: inserting a key erases it first. A keyspace
carries the proof of that.

## Main definitions

* `Keyspace`: Keys with what they hold.
* `Keyspace.filter`: Keeps some of the keys.
* `Keyspace.item?`: What a key holds, expired or not.
* `Keyspace.touch`: Removes a key that is expired.
* `Keyspace.get`, `Keyspace.kind`, `Keyspace.keys`: Reading.
* `Keyspace.set`, `Keyspace.increment`, `Keyspace.addEntry`: Writing.
* `Keyspace.readStream`: Reading from the stream of a key.
-/

namespace KeyValue

/-- Keys with what they hold, the newest insertion first. -/
structure Keyspace where
  entries : List (String × Item)
  /-- No key occurs twice. -/
  nodup : (entries.map (·.1)).Nodup
  deriving DecidableEq, Repr

namespace Keyspace

/-- The keyspace without keys. -/
def empty : Keyspace := ⟨[], List.nodup_nil⟩

instance : Inhabited Keyspace := ⟨empty⟩

/-- Keep the keys with `keep`, with what they hold. -/
def filter (keyspace : Keyspace) (keep : String × Item → Bool) : Keyspace :=
  ⟨keyspace.entries.filter keep, keyspace.nodup.sublist (List.filter_sublist.map _)⟩

/-- What a key holds, expired or not. -/
def item? (keyspace : Keyspace) (key : String) : Option Item :=
  keyspace.entries.lookup key

/-- Remove a key. -/
def erase (keyspace : Keyspace) (key : String) : Keyspace :=
  keyspace.filter fun (k, _) => k != key

theorem not_mem_erase (keyspace : Keyspace) (key : String) :
    key ∉ (keyspace.erase key).entries.map (·.1) := by
  simp [erase, filter]

/-- Let a key hold an item. -/
def insert (keyspace : Keyspace) (key : String) (item : Item) : Keyspace :=
  ⟨(key, item) :: (keyspace.erase key).entries,
    List.nodup_cons.mpr ⟨keyspace.not_mem_erase key, (keyspace.erase key).nodup⟩⟩

/-- The number of stored keys, expired ones included. -/
def size (keyspace : Keyspace) : Nat := keyspace.entries.length

/-- What a key holds at the time `now`. -/
def live? (keyspace : Keyspace) (now : UInt64) (key : String) : Option Item :=
  (keyspace.item? key).filter fun item => !item.isExpired now

/-- Remove a key that is expired. -/
def touch (keyspace : Keyspace) (now : UInt64) (key : String) : Keyspace :=
  match keyspace.item? key with
  | some item => if item.isExpired now then keyspace.erase key else keyspace
  | none => keyspace

/-- Let a key hold a value, whatever it held before. -/
def set (keyspace : Keyspace) (key : String) (value : Value) (deadline : Deadline) : Keyspace :=
  keyspace.insert key ⟨value, deadline⟩

/-- The value of a key. -/
def get (keyspace : Keyspace) (now : UInt64) (key : String) : Option Value × Keyspace :=
  ((keyspace.live? now key).map (·.value), keyspace.touch now key)

/-- The kind of the value of a key. -/
def kind (keyspace : Keyspace) (now : UInt64) (key : String) : Option ValueKind × Keyspace :=
  ((keyspace.live? now key).map (·.value.kind), keyspace.touch now key)

/-- The keys that are not expired; the others are removed. -/
def keys (keyspace : Keyspace) (now : UInt64) : List String × Keyspace :=
  let live := keyspace.filter fun (_, item) => !item.isExpired now
  (live.entries.map (·.1), live)

/-- Add one to the integer of a key, which must exist; its deadline stays. -/
def increment (keyspace : Keyspace) (now : UInt64) (key : String) :
    Except Error Int64 × Keyspace :=
  let touched := keyspace.touch now key
  match keyspace.live? now key with
  | none => (.error .noSuchKey, touched)
  | some item =>
    match item.value with
    | .integer number =>
      if number = Int64.maxValue then (.error .notInteger, touched)
      else (.ok (number + 1), touched.insert key { item with value := .integer (number + 1) })
    | .text _ => (.error .notInteger, touched)
    | .stream _ => (.error .wrongType, touched)

/-- Add an entry to the stream of a key, which is created if the key is absent. A stream without
    entries does not outlive a refused id.

    The clock is read twice here, to find out whether the key is live and then for the id, and the
    one time `now` stands for both readings. They can only be told apart by a stream with a deadline
    that is over in between: any other key is live at both or at neither, or it refuses the entry.
    No stream of a running server has a deadline. -/
def addEntry (keyspace : Keyspace) (now : UInt64) (key : String) (request : IdRequest)
    (fields : List (String × String)) : Except Error StreamId × Keyspace :=
  let touched := keyspace.touch now key
  let item := (keyspace.live? now key).getD ⟨.stream .empty, .never⟩
  let opened := match keyspace.live? now key with
    | some _ => touched
    | none => touched.insert key item
  match item.value with
  | .stream stream =>
    match stream.nextId request now with
    | .error e => (.error e, if stream.isEmpty then opened.erase key else opened)
    | .ok id =>
      match stream.append id fields with
      | .error e => (.error e, opened)
      | .ok stream => (.ok id, opened.insert key { item with value := .stream stream })
  | _ => (.error .wrongType, opened)

/-- Read from the stream of a key; an absent key reads as a stream without entries. -/
def readStream {α : Type} (keyspace : Keyspace) (now : UInt64) (key : String)
    (read : Stream → α) : Except Error α × Keyspace :=
  let result := match (keyspace.live? now key).map (·.value) with
    | none => .ok (read .empty)
    | some (.stream stream) => .ok (read stream)
    | some _ => .error .wrongType
  (result, keyspace.touch now key)

/-- The entries of a stream between two ids. -/
def range (keyspace : Keyspace) (now : UInt64) (key : String) (start stop : StreamId)
    (count : Option Nat) : Except Error (List StreamEntry) × Keyspace :=
  keyspace.readStream now key (·.range start stop count)

/-- The entries of a stream above an id. -/
def after (keyspace : Keyspace) (now : UInt64) (key : String) (id : StreamId)
    (count : Option Nat) : Except Error (List StreamEntry) × Keyspace :=
  keyspace.readStream now key (·.after id count)

/-- The last id of a stream, or the least id if it has no entries. -/
def lastId (keyspace : Keyspace) (now : UInt64) (key : String) :
    Except Error StreamId × Keyspace :=
  keyspace.readStream now key fun stream => stream.lastId?.getD .zero

end Keyspace

end KeyValue
