import KeyValue.Text.Word

/-!
# Words and letter case

Words that are written with one separator between them are read as these words. Two texts are the
same word if their characters are the same in lower case.

## Main definitions

* `Text.IsWord`: A text is a word by itself.

## Theorems

* `wordsBy_word`, `wordsBy_cons`: Words are read one after another.
* `toLower_eq_iff`, `sameWord_iff`: Comparing characters one by one.
-/

namespace KeyValue

namespace Text

namespace WordSplit

variable {isSeparator : Char → Bool}

-- Characters of a word are put in front of those before them.
theorem foldl_word {word : List Char} (h : ∀ c ∈ word, isSeparator c = false) :
    ∀ split : WordSplit, word.foldl (step isSeparator) split =
      { split with current := word.reverse ++ split.current } := by
  induction word with
  | nil => exact fun _ => rfl
  | cons c rest ih =>
      intro split
      rw [List.forall_mem_cons] at h
      rw [List.foldl_cons, ih h.2, step, if_neg (by simp [h.1])]
      simp

-- The words that were read before stay behind those that are read.
theorem foldl_words (characters : List Char) :
    ∀ (words : List (List Char)) (current : List Char),
      (characters.foldl (step isSeparator) ⟨words, current⟩).close.words =
        (characters.foldl (step isSeparator) ⟨[], current⟩).close.words ++ words := by
  induction characters with
  | nil =>
      intro words current
      cases current <;> simp [close]
  | cons c rest ih =>
      intro words current
      simp only [List.foldl_cons, step]
      split
      · cases current with
        | nil => exact ih words []
        | cons first more =>
            have hlong := ih ((first :: more).reverse :: words) []
            rw [← List.singleton_append, ← List.append_assoc, ← ih [_]] at hlong
            exact hlong
      · exact ih words (c :: current)

end WordSplit

section Words

variable {isSeparator : Char → Bool} {word : List Char} (hword : word ≠ [])
  (h : ∀ c ∈ word, isSeparator c = false)
include hword h

/-- A word by itself is one word. -/
theorem wordsBy_word : wordsBy isSeparator word = [word] := by
  rw [wordsBy, WordSplit.foldl_word h, List.append_nil, WordSplit.close]
  split
  · rename_i hnil
    exact absurd (List.reverse_eq_nil_iff.mp hnil) hword
  · simp

/-- A word in front of a separator is the first word. -/
theorem wordsBy_cons {separator : Char} (hseparator : isSeparator separator = true)
    (rest : List Char) :
    wordsBy isSeparator (word ++ separator :: rest) = word :: wordsBy isSeparator rest := by
  have hclose : WordSplit.close ⟨[], word.reverse⟩ = ⟨[word], []⟩ := by
    unfold WordSplit.close
    split
    · rename_i hnil
      exact absurd (List.reverse_eq_nil_iff.mp hnil) hword
    · simp
  rw [wordsBy, List.foldl_append, WordSplit.foldl_word h, List.foldl_cons, WordSplit.step,
    if_pos hseparator, List.append_nil, hclose, WordSplit.foldl_words, List.reverse_append]
  rfl

end Words

/-- A text that is a word by itself: it has characters, and none of them is blank. -/
def IsWord (text : String) : Prop := text.toList ≠ [] ∧ ∀ c ∈ text.toList, isBlank c = false

theorem toLower_eq_iff {a b : String} :
    a.toLower = b ↔ a.toList.map Char.toLower = b.toList := by
  have hlower : a.toLower = a.map Char.toLower := rfl
  rw [hlower, ← String.toList_inj, String.toList_map]

theorem sameWord_iff {a b : String} :
    sameWord a b = true ↔ a.toList.map Char.toLower = b.toList.map Char.toLower := by
  have hlower : b.toLower = b.map Char.toLower := rfl
  rw [sameWord, beq_iff_eq, toLower_eq_iff, hlower, String.toList_map]

end Text

end KeyValue
