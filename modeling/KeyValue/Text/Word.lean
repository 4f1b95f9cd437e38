/-!
# Words

Lines are cut into words at blanks. Which characters are blank differs by place: a command line
knows the five ASCII blanks, while the words of a handshake reply and of a master's address are
separated by any Unicode white space.

## Main definitions

* `Text.wordsBy`: The runs of characters between separators.
* `Text.isAsciiBlank`: The blanks of a command line.
* `Text.isBlank`: Unicode white space.
* `Text.words`: The words of a text.
* `Text.sameWord`: Equality up to the case of ASCII letters.
-/

namespace KeyValue

namespace Text

/-- The blanks of a command line: tab, line feed, form feed, carriage return and space. -/
def isAsciiBlank (c : Char) : Bool :=
  c == ' ' || c == '\t' || c == '\n' || c == '\x0C' || c == '\r'

/-- The characters with the Unicode property `White_Space`. -/
def isBlank (c : Char) : Bool :=
  let n := c.toNat
  (0x09 ≤ n && n ≤ 0x0D) || n == 0x20 || n == 0x85 || n == 0xA0 || n == 0x1680 ||
    (0x2000 ≤ n && n ≤ 0x200A) || n == 0x2028 || n == 0x2029 || n == 0x202F || n == 0x205F ||
    n == 0x3000

/-- The words of a line read so far, newest first, and the characters of the word at its end,
    newest first. -/
structure WordSplit where
  words : List (List Char)
  current : List Char

namespace WordSplit

/-- End the current word, if it has any character. -/
def close (split : WordSplit) : WordSplit :=
  match split.current with
  | [] => split
  | current => ⟨current.reverse :: split.words, []⟩

/-- Read one character. -/
def step (isSeparator : Char → Bool) (split : WordSplit) (c : Char) : WordSplit :=
  if isSeparator c then split.close else { split with current := c :: split.current }

end WordSplit

/-- The longest runs of characters that hold no separator, in order. -/
def wordsBy (isSeparator : Char → Bool) (characters : List Char) : List (List Char) :=
  (characters.foldl (WordSplit.step isSeparator) ⟨[], []⟩).close.words.reverse

/-- The words of a text, separated by Unicode white space. -/
def words (text : String) : List String :=
  (wordsBy isBlank text.toList).map String.ofList

/-- The words of a command line, separated by ASCII blanks. -/
def asciiWords (text : String) : List String :=
  (wordsBy isAsciiBlank text.toList).map String.ofList

/-- Whether two texts are equal up to the case of ASCII letters. -/
def sameWord (a b : String) : Bool :=
  a.toLower == b.toLower

end Text

end KeyValue
