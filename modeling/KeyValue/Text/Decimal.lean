/-!
# Decimal numbers

Numbers appear on the wire, in arguments and in snapshot files as decimal text. Writing one is
canonical. Reading is slightly more generous: one leading plus sign and leading zeros are
accepted, a minus sign only where negative numbers are, and a number outside the range of its
kind is no number at all.

## Main definitions

* `Decimal.natural?`: The number that a run of digits spells.
* `Decimal.bounded?`: An unsigned number up to a bound.
* `Decimal.uint64?`, `Decimal.int64?`: Numbers of 64 bits.
* `Decimal.ofInt`: The canonical spelling of an integer.
-/

namespace KeyValue

namespace Decimal

/-- The number that a non-empty run of decimal digits spells. -/
def natural? (digits : List Char) : Option Nat :=
  if digits ≠ [] ∧ digits.all Char.isDigit then some (Nat.ofDigitChars 10 digits 0) else none

/-- An unsigned number of at most `bound`, after an optional plus sign. -/
def bounded? (bound : Nat) (spelling : List Char) : Option Nat :=
  let digits := match spelling with
    | '+' :: digits => digits
    | digits => digits
  (natural? digits).filter (· ≤ bound)

/-- The largest unsigned number of 64 bits. -/
def maxUInt64 : Nat := UInt64.size - 1

/-- The largest signed number of 64 bits. -/
def maxInt64 : Nat := 0x7FFFFFFFFFFFFFFF

/-- An unsigned number of 64 bits, used for counts. -/
def count? (spelling : String) : Option Nat :=
  bounded? maxUInt64 spelling.toList

/-- An unsigned number of 64 bits. -/
def uint64? (spelling : String) : Option UInt64 :=
  (count? spelling).map UInt64.ofNat

/-- A signed number of 64 bits, after an optional plus or minus sign. -/
def int64? (spelling : String) : Option Int64 :=
  match spelling.toList with
  | '-' :: digits =>
    ((natural? digits).filter (· ≤ maxInt64 + 1)).map fun n => Int64.ofInt (-(n : Int))
  | spelling => (bounded? maxInt64 spelling).map fun n => Int64.ofInt n

/-- The canonical spelling of an integer: no leading zeros, and a minus sign only before a number
    below zero. -/
def ofInt (n : Int) : String :=
  if n < 0 then "-" ++ Nat.repr n.natAbs else Nat.repr n.natAbs

/-- The canonical spelling of a signed number of 64 bits. -/
def ofInt64 (n : Int64) : String :=
  ofInt n.toInt

/-- The canonical spelling of an unsigned number of 64 bits. -/
def ofUInt64 (n : UInt64) : String :=
  Nat.repr n.toNat

end Decimal

end KeyValue
