import KeyValue.Glob
import KeyValue.Keyspace
import KeyValue.Snapshot.Source
import KeyValue.Text.Word

/-!
# Commands on keys

A key that the keyspace does not hold is looked up in the snapshot file, which holds texts only.
The keyspace comes first, so a key that was written since hides the one in the file. Incrementing
does not look into the file.

## Main definitions

* `KeyCommand.set`, `KeyCommand.get`, `KeyCommand.increment`, `KeyCommand.type`,
  `KeyCommand.keys`: The commands.
* `KeyCommand.deadlineOf`: The deadline that options ask for.
* `KeyCommand.ascending`: Keys in order, each once.
-/

namespace KeyValue

namespace KeyCommand

/-- The milliseconds of the unit that an expiry option counts in. -/
def expiryUnit? (option : String) : Option Nat :=
  if Text.sameWord option "PX" then some 1
  else if Text.sameWord option "EX" then some 1000
  else none

/-- The deadline that options ask for, or `deadline` if they ask for none. The last option counts,
    but all of them are checked. -/
def deadlineOf (now : UInt64) (deadline : Deadline) : List String → Except Error Deadline
  | [] => .ok deadline
  | option :: rest =>
    match expiryUnit? option with
    | none => .error (.malformed s!"unsupported SET option '{option}'")
    | some unitMs =>
      match rest with
      | [] => .error (.malformed s!"{option} requires a value")
      | amount :: rest =>
        match Decimal.uint64? amount with
        | none => .error .notInteger
        | some amount =>
          if amount = 0 then .error (.malformed "invalid expire time in 'set' command")
          else deadlineOf now (.afterNow now amount unitMs) rest

/-- Let a key hold a value. -/
def set (keyspace : Keyspace) (now : UInt64) (key value : String) (options : List String) :
    Except Error Reply × Keyspace :=
  match deadlineOf now .never options with
  | .error e => (.error e, keyspace)
  | .ok deadline => (.ok .ok, keyspace.set key (.ofText value) deadline)

/-- The text that a value reads as. -/
def valueReply : Value → Except Error Reply
  | .text text => .ok (.bulkText text)
  | .integer number => .ok (.bulkText (Decimal.ofInt64 number))
  | .stream _ => .error .wrongType

/-- The value of a key. -/
def get (keyspace : Keyspace) (file : Snapshot.File) (now : UInt64) (key : String) :
    Except Error Reply × Keyspace :=
  match keyspace.get now key with
  | (some value, keyspace) => (valueReply value, keyspace)
  | (none, keyspace) =>
    ((file.lookup? now key).map fun
      | some entry => .bulkText entry.value
      | none => .null, keyspace)

/-- Add one to the integer of a key. -/
def increment (keyspace : Keyspace) (now : UInt64) (key : String) :
    Except Error Reply × Keyspace :=
  let (result, keyspace) := keyspace.increment now key
  (result.map .integer, keyspace)

/-- The name of the kind of a key's value. -/
def type (keyspace : Keyspace) (file : Snapshot.File) (now : UInt64) (key : String) :
    Except Error Reply × Keyspace :=
  match keyspace.kind now key with
  | (some kind, keyspace) => (.ok (.simple kind.typeName), keyspace)
  | (none, keyspace) =>
    ((file.lookup? now key).map fun
      | some _ => .simple ValueKind.text.typeName
      | none => .simple "none", keyspace)

/-- Put a key in its place among ascending keys, unless it is there. -/
def insertAscending (key : String) : List String → List String
  | [] => [key]
  | first :: rest =>
    if key < first then key :: first :: rest
    else if key = first then first :: rest
    else first :: insertAscending key rest

/-- Keys in order, each once. -/
def ascending (keys : List String) : List String := keys.foldr insertAscending []

/-- The keys that match a pattern, in order. -/
def keys (keyspace : Keyspace) (file : Snapshot.File) (now : UInt64) (pattern : String) :
    Except Error Reply × Keyspace :=
  let (stored, keyspace) := keyspace.keys now
  ((file.keys now).map fun inFile =>
    .bulkTexts ((ascending (stored ++ inFile)).filter (Glob.isMatch pattern)), keyspace)

end KeyCommand

end KeyValue
