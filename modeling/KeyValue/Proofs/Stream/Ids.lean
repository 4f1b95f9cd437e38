import KeyValue.Proofs.Text.Decimal
import KeyValue.Stream.Id
import Mathlib.Data.List.TakeDrop

/-!
# Reading ids back

An id is written in its full form, and every place that takes an id takes this form: the two bounds
of a range, and a new entry. The spelling of a number has no hyphen, so the first hyphen of the text
is the one between the numbers, and the text is none of the words that stand for another id.

## Theorems

* `StreamId.splitHyphen_text`: The numbers of an id are found again.
* `StreamId.rangeStart_text`, `StreamId.rangeEnd_text`: An id as a bound of a range.
* `IdRequest.ofText_text`: An id for a new entry.
-/

namespace KeyValue

namespace StreamId

theorem hyphen_notMem_ofUInt64 (n : UInt64) : '-' ∉ (Decimal.ofUInt64 n).toList := by
  intro h
  simpa using Decimal.repr_isDigit h

-- What stands in front of the first hyphen has none.
theorem splitHyphen_append {before : String} (after : String) (h : '-' ∉ before.toList) :
    splitHyphen (before ++ "-" ++ after) = some (before, after) := by
  have hchars : (before ++ "-" ++ after).toList = before.toList ++ '-' :: after.toList := by
    rw [String.toList_append, String.toList_append, List.append_assoc]
    rfl
  have hbefore : ∀ c ∈ before.toList, (c != '-') = true := by
    intro c hc
    rw [bne_iff_ne]
    rintro rfl
    exact h hc
  unfold splitHyphen
  rw [hchars, List.span_eq_takeWhile_dropWhile, List.takeWhile_append_of_pos hbefore,
    List.dropWhile_append_of_pos hbefore]
  simp

theorem splitHyphen_text (id : StreamId) :
    splitHyphen id.text = some (Decimal.ofUInt64 id.ms, Decimal.ofUInt64 id.seq) :=
  splitHyphen_append _ (hyphen_notMem_ofUInt64 id.ms)

theorem ofParts_ofUInt64 (id : StreamId) :
    ofParts (Decimal.ofUInt64 id.ms) (Decimal.ofUInt64 id.seq) = .ok id := by
  simp only [ofParts, part, Decimal.uint64?_ofUInt64]
  rfl

-- A word that is split in another way, or not at all, is no id.
theorem text_ne {id : StreamId} {word : String} (h : splitHyphen word ≠ splitHyphen id.text) :
    id.text ≠ word := by
  rintro rfl
  exact h rfl

theorem ofTextWith_text (seq : UInt64) (id : StreamId) : ofTextWith seq id.text = .ok id := by
  unfold ofTextWith
  rw [splitHyphen_text]
  exact ofParts_ofUInt64 id

/-- The lower bound of a range is the id that it names. -/
theorem rangeStart_text (id : StreamId) : rangeStart id.text = .ok id := by
  have hword : id.text ≠ "-" := by
    apply text_ne
    rw [splitHyphen_text]
    -- A hyphen alone has nothing on its left, where an id has digits.
    have hsplit : splitHyphen "-" = some ("", "") := rfl
    rcases Decimal.repr_eq_cons id.ms.toNat with ⟨c, digits, hcons, _⟩
    rw [hsplit, ne_eq, Option.some.injEq, Prod.mk.injEq, not_and]
    intro hempty
    have hnil : (Decimal.ofUInt64 id.ms).toList = [] := by rw [← hempty]; rfl
    rw [Decimal.ofUInt64, hcons] at hnil
    cases hnil
  rw [rangeStart, if_neg hword, ofTextWith_text]

/-- The upper bound of a range is the id that it names. -/
theorem rangeEnd_text (id : StreamId) : rangeEnd id.text = .ok id := by
  have hword : id.text ≠ "+" := by
    apply text_ne
    rw [splitHyphen_text]
    exact fun h => nomatch h
  rw [rangeEnd, if_neg hword, ofTextWith_text]

end StreamId

/-- A new entry asks for the id that it names. -/
theorem IdRequest.ofText_text (id : StreamId) : ofText id.text = .ok (.explicit id) := by
  have hword : id.text ≠ "*" := by
    apply StreamId.text_ne
    rw [StreamId.splitHyphen_text]
    exact fun h => nomatch h
  -- The sequence is a number, and not the word that leaves it open.
  have hseq : Decimal.ofUInt64 id.seq ≠ "*" := by
    intro h
    have hread := Decimal.uint64?_ofUInt64 id.seq
    rw [h] at hread
    exact nomatch hread
  unfold ofText
  rw [if_neg hword, StreamId.splitHyphen_text]
  split
  · rename_i hsplit
    cases hsplit
  · rename_i hsplit
    rw [Option.some.injEq, Prod.mk.injEq] at hsplit
    exact absurd hsplit.2 hseq
  · rename_i hsplit
    rw [Option.some.injEq, Prod.mk.injEq] at hsplit
    rw [← hsplit.1, ← hsplit.2, StreamId.ofParts_ofUInt64]
    rfl

end KeyValue
