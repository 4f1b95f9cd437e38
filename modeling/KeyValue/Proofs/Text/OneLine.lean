import KeyValue.Proofs.Text.Utf8
import KeyValue.Proofs.Text.Decimal
import KeyValue.Error
import KeyValue.Text.Hex

/-!
# Texts of one line

An error is shown to a client on one line, so it matters whether its text has a line feed.

Numbers have none, and fixed words can be looked at. What is left are the details that an error
quotes: the message of an error is of one line exactly if they are. For something that can fail,
`LineFailures` says that whatever error it fails with is of one line; the steps of a computation
can be looked at one by one (`LineFailures.bind`).

## Main definitions

* `Text.OneLine`, `Error.OneLine`: Without a line feed.
* `LineFailures`: Failing with errors of one line only.

## Theorems

* `oneLine_append`, `oneLine_repr`, `oneLine_ofByte`, `oneLine_toLower`: How texts are put together.
* `Error.protocol_oneLine`, `Error.malformed_oneLine`, `Error.snapshot_oneLine`: Errors with a
  detail.
* `LineFailures.bind`, `LineFailures.map`: Computations that can fail.
-/

namespace KeyValue

namespace Text

/-- The text has no line feed. -/
def OneLine (text : String) : Prop := '\n' ∉ text.toList

instance : DecidablePred OneLine := fun text => inferInstanceAs (Decidable ('\n' ∉ text.toList))

/-- Two texts in a row are of one line exactly if both are. -/
theorem oneLine_append {a b : String} : OneLine (a ++ b) ↔ OneLine a ∧ OneLine b := by
  rw [OneLine, String.toList_append, List.mem_append, not_or]
  rfl

/-- A text that is quoted between two others. -/
theorem OneLine.quote {text : String} (h : OneLine text) (before after : String)
    (hbefore : OneLine before) (hafter : OneLine after) : OneLine (before ++ text ++ after) :=
  oneLine_append.mpr ⟨oneLine_append.mpr ⟨hbefore, h⟩, hafter⟩

/-- Digits are no line feeds. -/
theorem oneLine_repr (n : Nat) : OneLine (Nat.repr n) := Decimal.lineFeed_notMem_repr n

/-- The digits that a byte is shown with are no line feeds. -/
theorem oneLine_ofByte (byte : UInt8) : OneLine (Hex.ofByte byte) := by
  have hdigit : ∀ digit < 16, Nat.digitChar digit ≠ '\n' := by decide
  have hbyte := byte.toNat_lt
  rw [OneLine, Hex.ofByte, String.toList_ofList, List.mem_cons, List.mem_singleton, not_or]
  exact ⟨Ne.symm (hdigit _ (by omega)), Ne.symm (hdigit _ (by omega))⟩

/-- Lower case does not make a line feed of another character. -/
theorem oneLine_toLower {text : String} (h : OneLine text) : OneLine text.toLower := by
  -- A line feed has no upper case.
  have hchar : ∀ c : Char, c.toLower = '\n' → c = '\n' := by
    intro c hc
    unfold Char.toLower at hc
    split at hc
    · rename_i hupper
      have hvalue := congrArg (fun c : Char => c.val.toNat) hc
      have hlow := UInt32.le_iff_toNat_le.mp hupper.1
      have hhigh := UInt32.le_iff_toNat_le.mp hupper.2
      simp at hvalue hlow hhigh
      omega
    · exact hc
  have hlower : text.toLower = text.map Char.toLower := rfl
  rw [OneLine, hlower, String.toList_map, List.mem_map]
  rintro ⟨c, hmem, hc⟩
  exact h (hchar c hc ▸ hmem)

end Text

namespace Error

open Text

/-- The message of the error has no line feed. -/
def OneLine (e : Error) : Prop := Text.OneLine e.message

instance : DecidablePred OneLine := fun e => inferInstanceAs (Decidable (Text.OneLine e.message))

variable {detail : String}

/-- An error with a detail is of one line if the detail is, since the words around it are fixed. So
    it is for each kind of error. -/
theorem protocol_oneLine (h : Text.OneLine detail) : (protocol detail).OneLine :=
  (oneLine_append (a := "Protocol error: ")).mpr ⟨by decide, h⟩

theorem malformed_oneLine (h : Text.OneLine detail) : (malformed detail).OneLine :=
  (oneLine_append (a := "syntax error: ")).mpr ⟨by decide, h⟩

theorem snapshot_oneLine (h : Text.OneLine detail) : (snapshot detail).OneLine :=
  (oneLine_append (a := "Snapshot error: ")).mpr ⟨by decide, h⟩

theorem unknownCommand_oneLine (h : Text.OneLine detail) : (unknownCommand detail).OneLine :=
  h.quote "unknown command '" "'" (by decide) (by decide)

theorem wrongArity_oneLine (h : Text.OneLine detail) : (wrongArity detail).OneLine :=
  h.quote "wrong number of arguments for '" "' command" (by decide) (by decide)

end Error

/-- If the computation fails, it fails with an error of one line. -/
def LineFailures {α : Type} (result : Except Error α) : Prop := ∀ e, result = .error e → e.OneLine

namespace LineFailures

variable {α β : Type}

/-- What succeeds has no failures. -/
theorem ok (value : α) : LineFailures (.ok value : Except Error α) := fun _ h => nomatch h

/-- A failure is one of one line if its error is. -/
theorem error {e : Error} (h : e.OneLine) : LineFailures (.error e : Except Error α) := by
  intro e' he
  rwa [← Except.error.inj he]

/-- Failures of steps in a row are those of the steps. This is how the failures of a whole request
    are found. -/
theorem bind {result : Except Error α} {next : α → Except Error β} (h : LineFailures result)
    (h' : ∀ value, LineFailures (next value)) : LineFailures (result >>= next) := by
  cases result with
  | error e => exact error (h e rfl)
  | ok value => exact h' value

/-- What becomes of a value does not change the failures. -/
theorem map {result : Except Error α} (h : LineFailures result) (f : α → β) :
    LineFailures (result.map f) := by
  cases result with
  | error e => exact error (h e rfl)
  | ok value => exact ok _

end LineFailures

end KeyValue
