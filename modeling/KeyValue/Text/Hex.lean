/-!
# Hexadecimal numbers

Error texts show single bytes in two hexadecimal digits, and escaped characters by the digits of
their code point.

## Main definitions

* `Hex.ofByte`: A byte in two digits.
* `Hex.ofNat`: A number in as few digits as it takes.
-/

namespace KeyValue

namespace Hex

/-- A byte in two lower-case digits. -/
def ofByte (byte : UInt8) : String :=
  String.ofList [Nat.digitChar (byte.toNat / 16), Nat.digitChar (byte.toNat % 16)]

/-- A number in lower-case digits, without leading zeros. -/
def ofNat (n : Nat) : String :=
  String.ofList (Nat.toDigits 16 n)

end Hex

end KeyValue
