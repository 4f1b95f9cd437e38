/-!
# UTF-8

Clients speak bytes and commands speak text, so every argument crosses this module twice. Writing
a text is the standard encoding. Reading comes in two forms: `Text.ofBytes?` refuses bytes that
are not UTF-8, and `Text.ofBytes` accepts all bytes, putting one U+FFFD for each longest run of
bytes that begins a character but is not continued by one.

The forgiving reader is a fold over the bytes. Its state holds the characters read so far and, in
the middle of a character, the value gathered and the ranges that the remaining bytes must fall
in. A byte outside its range ends the character early and is looked at afresh.

## Main definitions

* `Bytes`: A sequence of bytes.
* `Text.bytes`: The UTF-8 bytes of a text.
* `Text.ofBytes`: The text of any bytes, with U+FFFD where they are not UTF-8.
* `Text.ofBytes?`: The text of UTF-8 bytes.
-/

namespace KeyValue

/-- A sequence of bytes, as it is read from or written to a connection or a file. -/
abbrev Bytes := List UInt8

namespace Text

/-- The UTF-8 bytes of a text. -/
def bytes (text : String) : Bytes :=
  text.toList.flatMap String.utf8EncodeChar

/-- The text that the bytes spell, or `none` if they are not UTF-8. -/
def ofBytes? (bytes : Bytes) : Option String :=
  String.fromUTF8? bytes.toByteArray

/-- An inclusive range of byte values. -/
structure ByteRange where
  low : Nat
  high : Nat
  deriving DecidableEq, Repr

namespace ByteRange

/-- Whether the byte lies in the range. -/
def contains (range : ByteRange) (byte : UInt8) : Bool :=
  range.low ≤ byte.toNat && byte.toNat ≤ range.high

/-- The bytes that may continue a character anywhere but after a few lead bytes. -/
def continuation : ByteRange := ⟨0x80, 0xBF⟩

end ByteRange

/-- What a lead byte says about its character: the bits it contributes and the ranges of the bytes
    that must follow. The four narrow ranges rule out overlong forms, surrogates and values beyond
    U+10FFFF. -/
def lead (byte : UInt8) : Option (Nat × List ByteRange) :=
  let n := byte.toNat
  let rest := ByteRange.continuation
  if n < 0x80 then some (n, [])
  else if n < 0xC2 then none
  else if n < 0xE0 then some (n - 0xC0, [rest])
  else if n = 0xE0 then some (n - 0xE0, [⟨0xA0, 0xBF⟩, rest])
  else if n = 0xED then some (n - 0xE0, [⟨0x80, 0x9F⟩, rest])
  else if n < 0xF0 then some (n - 0xE0, [rest, rest])
  else if n = 0xF0 then some (n - 0xF0, [⟨0x90, 0xBF⟩, rest, rest])
  else if n < 0xF4 then some (n - 0xF0, [rest, rest, rest])
  else if n = 0xF4 then some (n - 0xF0, [⟨0x80, 0x8F⟩, rest, rest])
  else none

/-- The character that stands for bytes that are not UTF-8. -/
def replacement : Char := '\uFFFD'

/-- A character of which some bytes are still to come. -/
structure Unfinished where
  value : Nat
  next : ByteRange
  later : List ByteRange
  deriving DecidableEq, Repr

/-- The forgiving reader between two bytes. -/
structure Decoder where
  /-- The characters read, newest first. -/
  characters : List Char
  unfinished : Option Unfinished
  deriving DecidableEq, Repr

namespace Decoder

/-- Look at a byte where a character may begin. -/
def start (characters : List Char) (byte : UInt8) : Decoder :=
  match lead byte with
  | none => ⟨replacement :: characters, none⟩
  | some (value, []) => ⟨Char.ofNat value :: characters, none⟩
  | some (value, next :: later) => ⟨characters, some ⟨value, next, later⟩⟩

/-- Read one byte. -/
def step (decoder : Decoder) (byte : UInt8) : Decoder :=
  match decoder.unfinished with
  | none => start decoder.characters byte
  | some ⟨value, next, later⟩ =>
    if next.contains byte then
      let value := value * 64 + (byte.toNat - 0x80)
      match later with
      | [] => ⟨Char.ofNat value :: decoder.characters, none⟩
      | next :: later => ⟨decoder.characters, some ⟨value, next, later⟩⟩
    else
      start (replacement :: decoder.characters) byte

/-- The characters read, in order; a character left unfinished counts as one U+FFFD. -/
def finish (decoder : Decoder) : List Char :=
  match decoder.unfinished with
  | none => decoder.characters.reverse
  | some _ => (replacement :: decoder.characters).reverse

end Decoder

/-- The text of any bytes: each longest run of bytes that begins a character without completing it,
    and each byte that begins none, is read as one U+FFFD. -/
def ofBytes (bytes : Bytes) : String :=
  String.ofList (bytes.foldl Decoder.step ⟨[], none⟩).finish

end Text

end KeyValue
