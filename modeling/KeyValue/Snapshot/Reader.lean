import KeyValue.Snapshot.Format
import KeyValue.Text.Hex
import KeyValue.Value

/-!
# Reading snapshots

A snapshot is read record by record up to its end mark. The first thing that is not as the format
has it ends the reading, so a snapshot is either read as a whole or not at all.

A deadline record applies to the next key, whatever records stand between them, and the last one
before the key counts.

## Main definitions

* `Snapshot.Entry`: A key of a snapshot.
* `Snapshot.records`: Reads the records of a snapshot.
* `Snapshot.entriesOf`: The keys that records describe.
* `Snapshot.entries`: Reads the keys of a snapshot.
-/

namespace KeyValue

namespace Snapshot

/-- A key of a snapshot. -/
structure Entry where
  key : String
  value : String
  deadline : Deadline
  deriving DecidableEq, Repr, Inhabited

/-- Whether the key is expired at the time `now`. -/
def Entry.isExpired (entry : Entry) (now : UInt64) : Bool := entry.deadline.hasPassed now

/-- Read the next `count` bytes. -/
def readBytes (count : Nat) (bytes : Bytes) : Except Error (Bytes × Bytes) :=
  if count ≤ bytes.length then .ok (bytes.take count, bytes.drop count)
  else .error (.snapshot "snapshot ended unexpectedly")

/-- Read the next byte. -/
def readByte : Bytes → Except Error (UInt8 × Bytes)
  | [] => .error (.snapshot "snapshot ended unexpectedly")
  | byte :: rest => .ok (byte, rest)

/-- What the first bytes of a length or text announce. -/
inductive Announcement where
  | length (n : Nat)
  | int8
  | int16
  | int32
  | compressed
  deriving DecidableEq, Repr

/-- Read the first bytes of a length or text. The two highest bits of the first byte tell the
    width of the length, or that the other bits name a special form. -/
def readAnnouncement (bytes : Bytes) : Except Error (Announcement × Bytes) := do
  let (first, rest) ← readByte bytes
  let low := first.toNat % 64
  match first.toNat / 64 with
  | 0 => return (.length low, rest)
  | 1 =>
    let (second, rest) ← readByte rest
    return (.length (low * 256 + second.toNat), rest)
  | 2 =>
    match low with
    | 0 =>
      let (number, rest) ← readBytes 4 rest
      return (.length (ofBigEndian number), rest)
    | 1 =>
      let (number, rest) ← readBytes 8 rest
      return (.length (ofBigEndian number), rest)
    | _ => throw (.snapshot s!"invalid length prefix 0x{Hex.ofByte first}")
  | _ =>
    match low with
    | 0 => return (.int8, rest)
    | 1 => return (.int16, rest)
    | 2 => return (.int32, rest)
    | 3 => return (.compressed, rest)
    | _ => throw (.snapshot s!"invalid string encoding 0x{Hex.ofByte first}")

/-- Read a length. -/
def readLength (bytes : Bytes) : Except Error (Nat × Bytes) := do
  match ← readAnnouncement bytes with
  | (.length n, rest) => return (n, rest)
  | _ => throw (.snapshot "expected a plain length")

/-- Read a text. -/
def readText (bytes : Bytes) : Except Error (StoredText × Bytes) := do
  match ← readAnnouncement bytes with
  | (.length n, rest) =>
    if n ≤ rest.length then return (.bytes (rest.take n), rest.drop n)
    else throw (.snapshot s!"string of {n} bytes truncated after {rest.length}")
  | (.int8, rest) =>
    let (number, rest) ← readBytes 1 rest
    return (.int8 (UInt8.ofNat (ofLittleEndian number)).toInt8, rest)
  | (.int16, rest) =>
    let (number, rest) ← readBytes 2 rest
    return (.int16 (UInt16.ofNat (ofLittleEndian number)).toInt16, rest)
  | (.int32, rest) =>
    let (number, rest) ← readBytes 4 rest
    return (.int32 (UInt32.ofNat (ofLittleEndian number)).toInt32, rest)
  | (.compressed, _) => throw (.snapshot "compressed strings are not supported")

/-- Read the next record, or `none` for the end mark. -/
def readRecord (bytes : Bytes) : Except Error (Option Record × Bytes) := do
  let (mark, rest) ← readByte bytes
  match mark.toNat with
  | 0xFA =>
    let (name, rest) ← readText rest
    let (value, rest) ← readText rest
    return (some (.auxiliary name value), rest)
  | 0xFE =>
    let (number, rest) ← readLength rest
    return (some (.selectDatabase number), rest)
  | 0xFB =>
    let (keys, rest) ← readLength rest
    let (expiring, rest) ← readLength rest
    return (some (.resizeDatabase keys expiring), rest)
  | 0xFD =>
    let (seconds, rest) ← readBytes 4 rest
    return (some (.expirySeconds (UInt32.ofNat (ofLittleEndian seconds))), rest)
  | 0xFC =>
    let (ms, rest) ← readBytes 8 rest
    return (some (.expiryMillis (UInt64.ofNat (ofLittleEndian ms))), rest)
  | 0x00 =>
    let (key, rest) ← readText rest
    let (value, rest) ← readText rest
    return (some (.entry key value), rest)
  | 0xFF => return (none, rest)
  | _ => throw (.snapshot s!"unsupported value type 0x{Hex.ofByte mark}")

/-- Read records up to the end mark, at most `count` of them. -/
def readRecords : Nat → Bytes → Except Error (List Record)
  | 0, _ => .error (.snapshot "snapshot ended unexpectedly")
  | count + 1, bytes =>
    match readRecord bytes with
    | .error e => .error e
    | .ok (none, _) => .ok []
    | .ok (some record, rest) =>
      match readRecords count rest with
      | .error e => .error e
      | .ok records => .ok (record :: records)

/-- Whether the byte is an ASCII digit. -/
def isDigitByte (byte : UInt8) : Bool := 48 ≤ byte.toNat && byte.toNat ≤ 57

/-- Read the magic word and the version of four digits. -/
def readHeader (bytes : Bytes) : Except Error Bytes := do
  let (header, rest) ← readBytes 9 bytes
  if header.take 5 ≠ magic then throw (.snapshot "missing REDIS magic header")
  if !(header.drop 5).all isDigitByte then throw (.snapshot "invalid snapshot version")
  return rest

/-- Read the records of a snapshot. A record takes a byte or more, so there are fewer records than
    bytes. -/
def records (bytes : Bytes) : Except Error (List Record) := do
  let body ← readHeader bytes
  readRecords (body.length + 1) body

/-- The keys that records describe, in order; `deadline` is the one that waits for its key. -/
def entriesFrom (deadline : Deadline) : List Record → List Entry
  | [] => []
  | .expirySeconds seconds :: records =>
    entriesFrom ⟨UInt64.ofNat (seconds.toNat * 1000)⟩ records
  | .expiryMillis ms :: records => entriesFrom ⟨ms⟩ records
  | .entry key value :: records =>
    ⟨key.text, value.text, deadline⟩ :: entriesFrom .never records
  | _ :: records => entriesFrom deadline records

/-- The keys that records describe, in order. -/
def entriesOf (records : List Record) : List Entry := entriesFrom .never records

/-- Read the keys of a snapshot, in the order of the file. -/
def entries (bytes : Bytes) : Except Error (List Entry) :=
  (records bytes).map entriesOf

end Snapshot

end KeyValue
