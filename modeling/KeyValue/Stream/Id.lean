import KeyValue.Error
import KeyValue.Text.Decimal

/-!
# Stream ids

The entries of a stream are ordered by ids of two numbers: milliseconds and a sequence within
them. Ids are written `ms-seq`. Commands allow shorter forms, each with its own meaning: a bound
of a range may leave the sequence open, and a new entry may leave its id, or the sequence of it,
to the stream.

## Main definitions

* `StreamId`: An id, ordered by milliseconds and then by sequence.
* `StreamId.text`, `StreamId.ofText`: The full form, written and read.
* `StreamId.rangeStart`, `StreamId.rangeEnd`: The bounds of a range.
* `IdRequest`: What a new entry asks its id to be.
-/

namespace KeyValue

/-- The id of a stream entry. -/
structure StreamId where
  ms : UInt64
  seq : UInt64
  deriving DecidableEq, Repr, Inhabited

namespace StreamId

/-- Ids are ordered by milliseconds and, within the same milliseconds, by sequence. -/
instance : LT StreamId := ⟨fun a b => a.ms < b.ms ∨ (a.ms = b.ms ∧ a.seq < b.seq)⟩

instance : LE StreamId := ⟨fun a b => a.ms < b.ms ∨ (a.ms = b.ms ∧ a.seq ≤ b.seq)⟩

instance (a b : StreamId) : Decidable (a < b) :=
  inferInstanceAs (Decidable (a.ms < b.ms ∨ (a.ms = b.ms ∧ a.seq < b.seq)))

instance (a b : StreamId) : Decidable (a ≤ b) :=
  inferInstanceAs (Decidable (a.ms < b.ms ∨ (a.ms = b.ms ∧ a.seq ≤ b.seq)))

/-- The largest number of an id. -/
def maxPart : UInt64 := UInt64.ofNat Decimal.maxUInt64

/-- The least id; no entry has it. -/
def zero : StreamId := ⟨0, 0⟩

/-- The greatest id. -/
def max : StreamId := ⟨maxPart, maxPart⟩

/-- The refusal of a text that is no id. -/
def invalid : Error := .streamId "Invalid stream ID specified as stream command argument"

/-- The refusal of an id that is not above the last entry of its stream. -/
def tooSmall : Error :=
  .streamId "The ID specified in XADD is equal or smaller than the target stream top item"

/-- The refusal of the least id for an entry. -/
def notAboveZero : Error := .streamId "The ID specified in XADD must be greater than 0-0"

/-- The full form of an id. -/
def text (id : StreamId) : String :=
  Decimal.ofUInt64 id.ms ++ "-" ++ Decimal.ofUInt64 id.seq

/-- The parts of a text before and after its first hyphen. -/
def splitHyphen (text : String) : Option (String × String) :=
  match text.toList.span (· != '-') with
  | (_, []) => none
  | (before, _ :: after) => some (String.ofList before, String.ofList after)

/-- One number of an id. -/
def part (text : String) : Except Error UInt64 :=
  match Decimal.uint64? text with
  | some n => .ok n
  | none => .error invalid

/-- An id from the texts of its numbers. -/
def ofParts (ms seq : String) : Except Error StreamId := do
  return ⟨← part ms, ← part seq⟩

/-- The id in its full form. -/
def ofText (text : String) : Except Error StreamId :=
  match splitHyphen text with
  | none => .error invalid
  | some (ms, seq) => ofParts ms seq

/-- An id that may leave out its sequence, which is then `seq`. -/
def ofTextWith (seq : UInt64) (text : String) : Except Error StreamId :=
  match splitHyphen text with
  | none => do return ⟨← part text, seq⟩
  | some (ms, seq) => ofParts ms seq

/-- The lower bound of a range: a hyphen stands for the least id, and a missing sequence for the
    first one. -/
def rangeStart (text : String) : Except Error StreamId :=
  if text = "-" then .ok zero else ofTextWith 0 text

/-- The upper bound of a range: a plus sign stands for the greatest id, and a missing sequence for
    the last one. -/
def rangeEnd (text : String) : Except Error StreamId :=
  if text = "+" then .ok max else ofTextWith maxPart text

end StreamId

/-- What a new entry asks its id to be. -/
inductive IdRequest where
  /-- The present time and the next free sequence. -/
  | auto
  /-- The given milliseconds and the next free sequence. -/
  | autoSequence (ms : UInt64)
  | explicit (id : StreamId)
  deriving DecidableEq, Repr, Inhabited

/-- The id argument of a command that adds an entry; a missing sequence is the first one. -/
def IdRequest.ofText (text : String) : Except Error IdRequest :=
  if text = "*" then .ok .auto
  else match StreamId.splitHyphen text with
    | none => do return .explicit ⟨← StreamId.part text, 0⟩
    | some (ms, "*") => do return .autoSequence (← StreamId.part ms)
    | some (ms, seq) => do return .explicit (← StreamId.ofParts ms seq)

end KeyValue
