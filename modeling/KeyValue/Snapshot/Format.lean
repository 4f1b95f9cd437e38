import KeyValue.Text.Decimal
import KeyValue.Text.Utf8

/-!
# The snapshot format

A snapshot file is a header, a list of records and an end mark; whatever follows the end mark, a
checksum for instance, is not part of it. Records are told apart by their first byte. Lengths
come in four widths, and a length need not take the shortest one. Texts are stored as bytes of
announced length or, when they spell a small integer, as that integer.

Numbers of fixed width in a length are written with the most significant byte first, all others
with the least significant byte first.

## Main definitions

* `Snapshot.lengthForms`: The ways to write a length.
* `Snapshot.StoredText`: A text as it is stored.
* `Snapshot.Record`: A record.
* `Snapshot.encode`: The shortest file that holds given records.
* `Snapshot.empty`: A file that holds no key.
-/

namespace KeyValue

namespace Snapshot

/-- The lowest `count` bytes of a number, the least significant first. -/
def littleEndian : Nat → Nat → Bytes
  | 0, _ => []
  | count + 1, n => UInt8.ofNat (n % 256) :: littleEndian count (n / 256)

/-- The lowest `count` bytes of a number, the most significant first. -/
def bigEndian (count n : Nat) : Bytes := (littleEndian count n).reverse

/-- The number that bytes stand for, the least significant first. -/
def ofLittleEndian (bytes : Bytes) : Nat :=
  bytes.foldr (fun byte n => byte.toNat + 256 * n) 0

/-- The number that bytes stand for, the most significant first. -/
def ofBigEndian (bytes : Bytes) : Nat := ofLittleEndian bytes.reverse

/-- The ways to write a length, the shortest first. -/
def lengthForms (n : Nat) : List Bytes :=
  (if n < 0x40 then [[UInt8.ofNat n]] else []) ++
  (if n < 0x4000 then [bigEndian 2 (0x4000 + n)] else []) ++
  (if n < UInt32.size then [0x80 :: bigEndian 4 n] else []) ++
  (if n < UInt64.size then [0x81 :: bigEndian 8 n] else [])

/-- The shortest way to write a length; lengths take 64 bits at most. -/
def length (n : Nat) : Bytes := (lengthForms n).headD []

/-- A text as it is stored. -/
inductive StoredText where
  | bytes (content : Bytes)
  | int8 (n : Int8)
  | int16 (n : Int16)
  | int32 (n : Int32)
  deriving DecidableEq, Repr, Inhabited

namespace StoredText

/-- The text that is stored. -/
def text : StoredText → String
  | bytes content => Text.ofBytes content
  | int8 n => Decimal.ofInt n.toInt
  | int16 n => Decimal.ofInt n.toInt
  | int32 n => Decimal.ofInt n.toInt

/-- The ways to write a stored text, the shortest first. -/
def forms : StoredText → List Bytes
  | bytes content => (lengthForms content.length).map (· ++ content)
  | int8 n => [0xC0 :: littleEndian 1 n.toUInt8.toNat]
  | int16 n => [0xC1 :: littleEndian 2 n.toUInt16.toNat]
  | int32 n => [0xC2 :: littleEndian 4 n.toUInt32.toNat]

/-- The shortest way to write a stored text. -/
def encode (stored : StoredText) : Bytes := stored.forms.headD []

end StoredText

/-- A record of a snapshot. -/
inductive Record where
  /-- A fact about the file, by name. -/
  | auxiliary (name value : StoredText)
  /-- The number of the database that the following keys belong to. -/
  | selectDatabase (number : Nat)
  /-- How many keys follow, and how many of them expire. -/
  | resizeDatabase (keys expiring : Nat)
  /-- The deadline of the next key, in seconds. -/
  | expirySeconds (seconds : UInt32)
  /-- The deadline of the next key, in milliseconds. -/
  | expiryMillis (ms : UInt64)
  | entry (key value : StoredText)
  deriving DecidableEq, Repr, Inhabited

/-- The ways to write a record, the shortest first. -/
def Record.forms : Record → List Bytes
  | .auxiliary name value => pairs 0xFA name.forms value.forms
  | .selectDatabase number => (lengthForms number).map (0xFE :: ·)
  | .resizeDatabase keys expiring => pairs 0xFB (lengthForms keys) (lengthForms expiring)
  | .expirySeconds seconds => [0xFD :: littleEndian 4 seconds.toNat]
  | .expiryMillis ms => [0xFC :: littleEndian 8 ms.toNat]
  | .entry key value => pairs 0x00 key.forms value.forms
where
  /-- A mark, one of the first forms and one of the second. -/
  pairs (mark : UInt8) (first second : List Bytes) : List Bytes :=
    first.flatMap fun a => second.map fun b => mark :: (a ++ b)

/-- The shortest way to write a record. -/
def Record.encode (record : Record) : Bytes := record.forms.headD []

/-- The word that every snapshot starts with. -/
def magic : Bytes := Text.bytes "REDIS"

/-- The byte after the last record. -/
def endMark : UInt8 := 0xFF

/-- A snapshot of the version in use that holds the given records. -/
def encode (records : List Record) : Bytes :=
  magic ++ Text.bytes "0011" ++ records.flatMap Record.encode ++ [endMark]

/-- What a snapshot says about the server that wrote it. -/
def serverFacts : List Record :=
  [.auxiliary (name "redis-ver") (.bytes (Text.bytes "7.2.0")),
    .auxiliary (name "redis-bits") (.int8 64),
    .auxiliary (name "ctime") (.int32 (Int32.ofInt 0x65bc086d)),
    .auxiliary (name "used-mem") (.int32 (Int32.ofInt 0x0010c4b0)),
    .auxiliary (name "aof-base") (.int8 0)]
where
  name (text : String) : StoredText := .bytes (Text.bytes text)

/-- The snapshot without keys that a master sends to a new replica, with its checksum. -/
def empty : Bytes := encode serverFacts ++ bigEndian 8 0xf06e3bfec0ff5aa2

end Snapshot

end KeyValue
