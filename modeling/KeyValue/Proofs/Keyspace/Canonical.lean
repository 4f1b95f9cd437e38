import KeyValue.Proofs.Keyspace.Writes
import KeyValue.Proofs.Text.Decimal
import Mathlib.Algebra.Group.Int.Defs

/-!
# Values and how they read

A value that is no stream reads as a text, and a text that is written becomes a value. A text and an
integer can read alike: `Value.text "7"` would read as the integer 7 does, and could not be
incremented. It never comes to that. A value is canonical if it is what its own text becomes, and
whatever is written is canonical, so that all values of a keyspace are
(`Canonical.set`, `Canonical.increment`, `Canonical.addEntry`).

Of a canonical value the text tells everything. It can be incremented exactly if it reads as a
number of 64 bits that is not the greatest one, in its canonical spelling
(`Canonical.increments_iff`).

## Main definitions

* `Value.shown?`: The text that a value reads as.
* `Value.Canonical`, `Keyspace.Canonical`: Values that are what their texts become.
* `Value.increment`: What incrementing makes of a value.

## Theorems

* `Value.shown?_ofText`, `Value.ofText_canonical`: Reading what is written.
* `Value.Canonical.increments_iff`: Which values can be incremented.
* `Keyspace.increment_of_live`: Incrementing what is live.
* `Canonical.set`, `Canonical.increment`, `Canonical.addEntry`: Writes keep values canonical.
-/

namespace KeyValue

namespace Decimal

-- The range of a signed number of 64 bits.
theorem ofInt64_ofInt {n : Int} (hlow : -2 ^ 63 ≤ n) (hhigh : n < 2 ^ 63) :
    ofInt64 (Int64.ofInt n) = ofInt n := by
  rw [ofInt64, Int64.toInt_ofInt_of_le hlow hhigh]

end Decimal

namespace Value

/-- The text that a value reads as. -/
def shown? : Value → Option String
  | .text content => some content
  | .integer number => some (Decimal.ofInt64 number)
  | .stream _ => none

/-- The value is what its text becomes when it is written. -/
def Canonical (value : Value) : Prop := ∀ text, value.shown? = some text → ofText text = value

/-- A number reads as its digits, which are stored as the number. -/
theorem integer_canonical (number : Int64) : (integer number).Canonical := by
  intro text hshown
  rw [← Option.some.inj hshown]
  simp only [ofText, Decimal.int64?_ofInt64, if_true]

/-- A stream does not read as a text at all. -/
theorem stream_canonical (stream : Stream) : (Value.stream stream).Canonical :=
  fun _ hshown => nomatch hshown

/-- What is written reads as it was written. -/
theorem shown?_ofText (text : String) : (ofText text).shown? = some text := by
  unfold ofText
  split
  · split
    · rename_i hspelling
      exact congrArg some hspelling
    · rfl
  · rfl

/-- What is written is canonical. -/
theorem ofText_canonical (text : String) : (ofText text).Canonical := by
  intro shown hshown
  rw [shown?_ofText, Option.some.injEq] at hshown
  rw [hshown]

/-- What incrementing makes of a value, if it is an integer below the greatest one. -/
def increment : Value → Except Error Int64
  | .integer number =>
    if number = Int64.maxValue then .error .notInteger else .ok (number + 1)
  | .text _ => .error .notInteger
  | .stream _ => .error .wrongType

/-- A number below the greatest has a next. -/
theorem increment_integer {n : Int} (hlow : -2 ^ 63 ≤ n) (hhigh : n < 2 ^ 63 - 1) :
    (integer (Int64.ofInt n)).increment = .ok (Int64.ofInt (n + 1)) := by
  have hmax : Int64.ofInt n ≠ Int64.maxValue := by
    rw [ne_eq, ← Int64.toInt_inj, Int64.toInt_ofInt_of_le hlow (by omega), Int64.toInt_maxValue]
    omega
  rw [increment, if_neg hmax, Int64.ofInt_add]
  rfl

/-- What cannot be incremented is a stream, or else is no integer that has a next one. -/
theorem increment_error {value : Value} (h : ¬ ∃ next, value.increment = .ok next) :
    value.increment = .error (if value.kind = .stream then .wrongType else .notInteger) := by
  cases value with
  | integer number =>
      by_cases hmax : number = Int64.maxValue
      · simp [increment, hmax, kind]
      · simp [increment, hmax] at h
  | _ => rfl

namespace Canonical

variable {value : Value}

/-- A canonical value that reads as a number is this number. -/
theorem eq_integer (h : value.Canonical) {n : Int} (hlow : -2 ^ 63 ≤ n) (hhigh : n < 2 ^ 63)
    (hshown : value.shown? = some (Decimal.ofInt n)) : value = .integer (Int64.ofInt n) := by
  rw [← Decimal.ofInt64_ofInt hlow hhigh] at hshown
  rw [← h _ hshown, integer_canonical _ _ rfl]

/-- A canonical value can be incremented exactly if it reads as a number of 64 bits that is not the
    greatest one. -/
theorem increments_iff (h : value.Canonical) :
    (∃ next, value.increment = .ok next) ↔
      ∃ n : Int, -2 ^ 63 ≤ n ∧ n < 2 ^ 63 - 1 ∧ value.shown? = some (Decimal.ofInt n) := by
  constructor
  · rintro ⟨next, hnext⟩
    cases value with
    | integer number =>
        have hmax : number ≠ Int64.maxValue := by
          rintro rfl
          simp [increment] at hnext
        have hhigh := number.toInt_le
        rw [ne_eq, ← Int64.toInt_inj] at hmax
        rw [Int64.toInt_maxValue] at hmax hhigh
        exact ⟨number.toInt, number.le_toInt, by omega, rfl⟩
    | _ => simp [increment] at hnext
  · rintro ⟨n, hlow, hhigh, hshown⟩
    rw [h.eq_integer hlow (by omega) hshown]
    exact ⟨_, increment_integer hlow hhigh⟩

end Canonical

end Value

namespace Keyspace

/-- All values are canonical. -/
def Canonical (keyspace : Keyspace) : Prop :=
  ∀ key item, keyspace.item? key = some item → item.value.Canonical

variable {keyspace : Keyspace} {now : UInt64} {key : String} {item : Item}

-- What is live does not change when its key is touched.
theorem touch_of_live (h : keyspace.live? now key = some item) :
    keyspace.touch now key = keyspace := by
  rcases Option.filter_eq_some_iff.mp h with ⟨hitem, hlive⟩
  rw [touch, hitem]
  simp only [Bool.not_eq_true'] at hlive
  simp only [hlive, Bool.false_eq_true, if_false]

/-- Incrementing what is live: the value alone decides, and the deadline stays. -/
theorem increment_of_live (h : keyspace.live? now key = some item) :
    keyspace.increment now key =
      (item.value.increment,
        match item.value.increment with
        | .ok next => keyspace.insert key { item with value := .integer next }
        | .error _ => keyspace) := by
  simp only [increment, h, touch_of_live h]
  rcases item with ⟨value, deadline⟩
  cases value with
  | integer number =>
      by_cases hmax : number = Int64.maxValue
      · simp [Value.increment, hmax]
      · simp [Value.increment, hmax]
  | _ => rfl

theorem empty_canonical : empty.Canonical := by
  intro key item hitem
  simp [empty, item?] at hitem

namespace Canonical

theorem live? (h : keyspace.Canonical) (hlive : keyspace.live? now key = some item) :
    item.value.Canonical :=
  h key item (Option.filter_eq_some_iff.mp hlive).1

/-- What is left after pruning was there before, so it is canonical. -/
theorem prunes {after : Keyspace} (h : keyspace.Canonical) (hprunes : keyspace.Prunes after) :
    after.Canonical :=
  fun key item hitem => h key item (hprunes.item? hitem)

/-- A value that is inserted has to be canonical. -/
theorem insert (h : keyspace.Canonical) (key : String) {item : Item}
    (hitem : item.value.Canonical) : (keyspace.insert key item).Canonical :=
  insert_of_forall (p := fun item => item.value.Canonical) h hitem key

/-- A text is stored as a number only if it is spelled like one, so what is set is canonical. -/
theorem set (h : keyspace.Canonical) (key text : String) (deadline : Deadline) :
    (keyspace.set key (.ofText text) deadline).Canonical :=
  h.insert key (Value.ofText_canonical text)

/-- The next number is a number, so it is canonical. -/
theorem increment (h : keyspace.Canonical) (now : UInt64) (key : String) :
    (keyspace.increment now key).2.Canonical := by
  cases hlive : keyspace.live? now key with
  | none =>
      simp only [Keyspace.increment, hlive]
      exact h.prunes (keyspace.touch_prunes now key)
  | some item =>
      rw [increment_of_live hlive]
      cases item.value.increment with
      | ok next => exact h.insert key (Value.integer_canonical next)
      | error e => exact h

/-- A stream is canonical, whatever entries it has. -/
theorem addEntry (h : keyspace.Canonical) (now : UInt64) (key : String) (request : IdRequest)
    (fields : List (String × String)) : (keyspace.addEntry now key request fields).2.Canonical := by
  have htouch := h.prunes (keyspace.touch_prunes now key)
  rw [addEntry_eq]
  rcases (keyspace.live? now key).getD ⟨.stream .empty, .never⟩ with ⟨value, deadline⟩
  cases value with
  | text text => exact htouch
  | integer number => exact htouch
  | stream stream =>
      simp only
      cases stream.nextId request now with
      | error e =>
          simp only
          split
          · exact erase_of_forall (p := fun item => item.value.Canonical) htouch key
          · exact htouch
      | ok id => exact htouch.insert key (Value.stream_canonical _)

end Canonical

end Keyspace

end KeyValue
