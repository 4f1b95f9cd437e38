import KeyValue.Stream.Basic

/-!
# Values

A key holds a text, an integer or a stream. Clients write texts; one that is the canonical
spelling of a 64-bit integer is stored as an integer, and reads back as the same text. Any other
spelling, such as `007` or `+5`, stays a text.

## Main definitions

* `Value`: A value.
* `Value.ofText`: The value that a client's text becomes.
* `Deadline`: When a value expires.
* `Item`: A value with its deadline.
-/

namespace KeyValue

/-- The kinds of values. -/
inductive ValueKind where
  | text
  | integer
  | stream
  deriving DecidableEq, Repr, Inhabited

/-- The name that clients know a kind by; integers look like texts to them. -/
def ValueKind.typeName : ValueKind → String
  | text | integer => "string"
  | stream => "stream"

/-- A value. -/
inductive Value where
  | text (text : String)
  | integer (number : Int64)
  | stream (stream : Stream)
  deriving DecidableEq, Repr, Inhabited

namespace Value

/-- The value that a client's text becomes. -/
def ofText (input : String) : Value :=
  match Decimal.int64? input with
  | some number => if Decimal.ofInt64 number = input then integer number else text input
  | none => text input

def kind : Value → ValueKind
  | text _ => .text
  | integer _ => .integer
  | stream _ => .stream

end Value

/-- The time, in Unix milliseconds, from which a value is expired. Zero stands for never, as it
    does in snapshot files. -/
structure Deadline where
  ms : UInt64
  deriving DecidableEq, Repr, Inhabited

namespace Deadline

/-- No deadline. -/
def never : Deadline := ⟨0⟩

/-- Whether the deadline has come at the time `now`. -/
def hasPassed (deadline : Deadline) (now : UInt64) : Bool :=
  deadline.ms != 0 && deadline.ms ≤ now

/-- The deadline `amount` units of `unitMs` milliseconds after `now`. Sums and products beyond 64
    bits stay at the last representable moment. -/
def afterNow (now amount : UInt64) (unitMs : Nat) : Deadline :=
  ⟨UInt64.ofNat (min Decimal.maxUInt64
    (now.toNat + min Decimal.maxUInt64 (amount.toNat * unitMs)))⟩

end Deadline

/-- What a key holds. -/
structure Item where
  value : Value
  deadline : Deadline := .never
  deriving DecidableEq, Repr, Inhabited

/-- Whether the item is expired at the time `now`. -/
def Item.isExpired (item : Item) (now : UInt64) : Bool := item.deadline.hasPassed now

end KeyValue
