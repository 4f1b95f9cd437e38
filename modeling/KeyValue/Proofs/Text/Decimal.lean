import KeyValue.Text.Decimal

/-!
# Reading decimal numbers back

Every number is read back from its canonical spelling, as long as the reader's range has it. The
spelling of a natural number is a run of digits, so it has no sign, and no line feed either.

## Theorems

* `natural?_repr`, `bounded?_repr`, `count?_repr`: Natural numbers are read back.
* `uint64?_ofUInt64`, `int64?_ofInt64`: Numbers of 64 bits are read back.
* `isDigit_of_bounded?`: What is read as an unsigned number.
* `lineFeed_notMem_repr`, `lineFeed_notMem_ofInt64`: Spellings have no line feed.
-/

namespace KeyValue

namespace Decimal

/-- A spelling of a natural number starts with a digit and goes on with digits. -/
theorem repr_isDigit {n : Nat} {c : Char} (h : c ∈ (Nat.repr n).toList) : c.isDigit = true := by
  rw [Nat.toList_repr] at h
  exact Nat.isDigit_of_mem_toDigits (by omega) (by omega) h

theorem repr_eq_cons (n : Nat) :
    ∃ c digits, (Nat.repr n).toList = c :: digits ∧ c.isDigit = true := by
  rcases hdigits : (Nat.repr n).toList with _ | ⟨c, digits⟩
  · rw [Nat.toList_repr] at hdigits
    exact absurd hdigits Nat.toDigits_ne_nil
  · exact ⟨c, digits, rfl, repr_isDigit (hdigits ▸ List.mem_cons_self)⟩

theorem natural?_repr (n : Nat) : natural? (Nat.repr n).toList = some n := by
  have hdigits : (Nat.repr n).toList ≠ [] ∧ (Nat.repr n).toList.all Char.isDigit := by
    constructor
    · rw [Nat.toList_repr]
      exact Nat.toDigits_ne_nil
    · rw [List.all_eq_true]
      exact fun c h => repr_isDigit h
  rw [natural?, if_pos hdigits, Nat.toList_repr, Nat.ofDigitChars_ten_toDigits]

/-- A natural number is read back up to the reader's bound. -/
theorem bounded?_repr {bound n : Nat} (h : n ≤ bound) :
    bounded? bound (Nat.repr n).toList = some n := by
  have hnatural := natural?_repr n
  rcases repr_eq_cons n with ⟨c, digits, hcons, hdigit⟩
  -- The first character is no plus sign.
  have hsign : c ≠ '+' := by
    rintro rfl
    simp at hdigit
  rw [hcons] at hnatural ⊢
  unfold bounded?
  split
  · rename_i heq
    exact absurd (List.cons.inj heq).1 hsign
  · simp only [hnatural, Option.filter_some, h, decide_true, if_true]

theorem count?_repr {n : Nat} (h : n ≤ maxUInt64) : count? (Nat.repr n) = some n :=
  bounded?_repr h

/-- An unsigned number of 64 bits is read back. -/
theorem uint64?_ofUInt64 (value : UInt64) : uint64? (ofUInt64 value) = some value := by
  have hbound : value.toNat ≤ maxUInt64 := Nat.le_sub_one_of_lt value.toNat_lt
  rw [uint64?, ofUInt64, count?_repr hbound, Option.map_some, UInt64.ofNat_toNat]

/-- A signed number of 64 bits is read back. -/
theorem int64?_ofInt64 (value : Int64) : int64? (ofInt64 value) = some value := by
  have hlow : -(maxInt64 + 1 : Int) ≤ value.toInt := value.le_toInt
  have hhigh : value.toInt ≤ (maxInt64 : Int) := value.toInt_le
  unfold ofInt64 ofInt
  split
  · -- Below zero there is a minus sign in front, and one number more in the range.
    rename_i hneg
    have hchars : ("-" ++ Nat.repr value.toInt.natAbs).toList =
        '-' :: (Nat.repr value.toInt.natAbs).toList := by
      rw [String.toList_append]
      rfl
    have hbound : value.toInt.natAbs ≤ maxInt64 + 1 := by omega
    have hback : -(value.toInt.natAbs : Int) = value.toInt := by omega
    simp only [int64?, hchars, natural?_repr, Option.filter_some, hbound, decide_true, if_true,
      Option.pure_def, Option.bind_eq_bind, Option.bind_some, Option.map_some, hback,
      Int64.ofInt_toInt]
  · rename_i hpos
    rcases repr_eq_cons value.toInt.natAbs with ⟨c, digits, hcons, hdigit⟩
    have hbounded : bounded? maxInt64 (Nat.repr value.toInt.natAbs).toList =
        some value.toInt.natAbs := bounded?_repr (by omega)
    have hback : (value.toInt.natAbs : Int) = value.toInt := by omega
    have hsign : c ≠ '-' := by
      rintro rfl
      simp at hdigit
    rw [hcons] at hbounded
    unfold int64?
    rw [hcons]
    split
    · rename_i heq
      exact absurd (List.cons.inj heq).1 hsign
    · simp only [hbounded, Option.pure_def, Option.bind_eq_bind, Option.bind_some, Option.map_some,
        hback, Int64.ofInt_toInt]

-- A run of digits that spells a number holds nothing else.
theorem isDigit_of_natural? {digits : List Char} {n : Nat} (h : natural? digits = some n) {c : Char}
    (hmem : c ∈ digits) : c.isDigit = true := by
  unfold natural? at h
  split at h
  · rename_i hdigits
    exact List.all_eq_true.mp hdigits.2 c hmem
  · simp at h

/-- What is read as an unsigned number holds digits, and a plus sign at most. -/
theorem isDigit_of_bounded? {bound n : Nat} {spelling : List Char}
    (h : bounded? bound spelling = some n) {c : Char} (hmem : c ∈ spelling) :
    c = '+' ∨ c.isDigit = true := by
  simp only [bounded?, Option.filter_eq_some_iff] at h
  split at h
  · rcases List.mem_cons.mp hmem with hplus | hmem
    · exact Or.inl hplus
    · exact Or.inr (isDigit_of_natural? h.1 hmem)
  · exact Or.inr (isDigit_of_natural? h.1 hmem)

theorem lineFeed_notMem_repr (n : Nat) : '\n' ∉ (Nat.repr n).toList := by
  intro h
  simpa using repr_isDigit h

theorem lineFeed_notMem_ofInt64 (value : Int64) : '\n' ∉ (ofInt64 value).toList := by
  have hrepr := lineFeed_notMem_repr value.toInt.natAbs
  unfold ofInt64 ofInt
  split
  · rw [String.toList_append, List.mem_append, not_or]
    exact ⟨by decide, hrepr⟩
  · exact hrepr

end Decimal

end KeyValue
