import KeyValue.Text.Hex
import KeyValue.Text.Printable
import KeyValue.Wire.Reply

/-!
# Quoted replies

When a replica's start fails, the error shows the reply that was not expected. Replies can hold
any text and any bytes, so they are shown quoted: by the name of their kind and a payload in
which everything that is not plainly visible is escaped.

## Main definitions

* `Quoted.text`: A text in quotation marks.
* `Quoted.bytes`: Bytes in quotation marks.
* `Quoted.reply`: A reply.
-/

namespace KeyValue

namespace Quoted

/-- A character inside quotation marks. -/
def escape (c : Char) : String :=
  match c with
  | '\x00' => "\\0"
  | '\t' => "\\t"
  | '\r' => "\\r"
  | '\n' => "\\n"
  | '"' => "\\\""
  | '\\' => "\\\\"
  | c => if Text.isPrintable c then c.toString else "\\u\x7b" ++ Hex.ofNat c.toNat ++ "\x7d"

/-- A text in quotation marks. -/
def text (content : String) : String :=
  "\"" ++ String.join (content.toList.map escape) ++ "\""

/-- A byte inside quotation marks. -/
def escapeByte (byte : UInt8) : String :=
  match byte.toNat with
  | 0 => "\\0"
  | 9 => "\\t"
  | 13 => "\\r"
  | 10 => "\\n"
  | 34 => "\\\""
  | 92 => "\\\\"
  | n => if 0x20 ≤ n ∧ n < 0x7F then (Char.ofNat n).toString else "\\x" ++ Hex.ofByte byte

/-- Bytes in quotation marks. -/
def bytes (content : Bytes) : String :=
  "b\"" ++ String.join (content.map escapeByte) ++ "\""

mutual

/-- A reply: the name of its kind and its payload. -/
def reply : Reply → String
  | .simple content => "Simple(" ++ text content ++ ")"
  | .bulk payload => "Bulk(" ++ bytes payload ++ ")"
  | .null => "Null"
  | .nullArray => "NullArray"
  | .integer value => "Integer(" ++ Decimal.ofInt64 value ++ ")"
  | .array items => "Array([" ++ String.intercalate ", " (replies items) ++ "])"
  | .error content => "Error(" ++ text content ++ ")"
  | .snapshot payload => "Snapshot(" ++ bytes payload ++ ")"

/-- Replies, one by one. -/
def replies : List Reply → List String
  | [] => []
  | item :: items => reply item :: replies items

end

end Quoted

end KeyValue
