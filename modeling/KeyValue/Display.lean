import KeyValue.Wire.Reply

/-!
# Displaying replies

Replies are shown to people line by line. The items of an array are numbered from one, each under
its number and indented by two spaces more than the array.

## Main definitions

* `Display.lines`: The lines that show a reply.
* `Display.text`: The lines as one text.
-/

namespace KeyValue

namespace Display

/-- The blanks in front of a line at a depth. -/
def indent (depth : Nat) : String := String.ofList (List.replicate (2 * depth) ' ')

mutual

/-- The lines that show a reply at a depth. -/
def lines (depth : Nat) : Reply → List String
  | .simple text => [indent depth ++ text]
  | .error text => [indent depth ++ "(error) " ++ text]
  | .integer value => [indent depth ++ "(integer) " ++ Decimal.ofInt64 value]
  | .bulk payload => [indent depth ++ "\"" ++ Text.ofBytes payload ++ "\""]
  | .snapshot payload => [indent depth ++ "\"" ++ Text.ofBytes payload ++ "\""]
  | .null => [indent depth ++ "(nil)"]
  | .nullArray => [indent depth ++ "(nil)"]
  | .array [] => [indent depth ++ "(empty array)"]
  | .array (first :: rest) => numbered depth 1 (first :: rest)

/-- The lines that show items at a depth, numbered from `number`. -/
def numbered (depth number : Nat) : List Reply → List String
  | [] => []
  | item :: rest =>
    (indent depth ++ Nat.repr number ++ ")") ::
      (lines (depth + 1) item ++ numbered depth (number + 1) rest)

end

/-- The lines that show a reply, each with its end. -/
def text (reply : Reply) : String := String.join ((lines 0 reply).map fun line => line ++ "\n")

end Display

end KeyValue
