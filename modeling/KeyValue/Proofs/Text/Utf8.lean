import KeyValue.Text.Utf8
import Mathlib.Tactic.SplitIfs

/-!
# Reading UTF-8

Both readers of UTF-8 undo the writing of a text, and only the forgiving one reads more than that.

The forgiving reader is a machine that owes bytes. After the lead byte of a character it owes the
bytes that follow in the encoding of the character, and with the last of them it has the character
(`Decoder.step_char`); so it reads the bytes of a text as that text. What it makes of other bytes
matters in one way only: a line feed is read from a line feed and from nothing else, because what
begins with a lead byte beyond ASCII never ends as an ASCII character (`Unfinished.High`).

## Main definitions

* `Unfinished.High`: What an unfinished character can become is no ASCII character.
* `Decoder.Lined`: The forgiving reader has read no line feed.

## Theorems

* `ofBytes?_eq_some_iff`: The strict reader accepts exactly the bytes of texts.
* `Decoder.step_char`: The forgiving reader reads one character.
* `ofBytes_bytes`: The forgiving reader reads the bytes of a text as the text.
* `bytes_ofBytes_iff`: Bytes survive the forgiving reader exactly if they are those of a text.
* `lineFeed_mem_bytes`, `lineFeed_mem_of_ofBytes`: Line feeds in texts and in bytes.
-/

namespace KeyValue

namespace Text

-- The bytes of a text are those that the text is kept in.
theorem toByteArray_bytes (text : String) : (bytes text).toByteArray = text.toByteArray := by
  rw [bytes, ← String.utf8Encode_toList, List.utf8Encode]

-- No character has more than four bytes.
theorem length_bytes_le (text : String) : (bytes text).length ≤ 4 * text.length := by
  rw [bytes, ← String.length_toList]
  induction text.toList with
  | nil => exact Nat.zero_le _
  | cons c rest ih =>
      have hchar := c.utf8Size_le_four
      rw [List.flatMap_cons, List.length_append, String.length_utf8EncodeChar, List.length_cons]
      omega

/-- The strict reader accepts exactly the bytes of texts. -/
theorem ofBytes?_eq_some_iff {content : Bytes} {text : String} :
    ofBytes? content = some text ↔ bytes text = content := by
  rw [ofBytes?, String.fromUTF8?]
  constructor
  · intro h
    split at h
    · rw [← List.toByteArray_inj, toByteArray_bytes, ← Option.some.inj h]
      rfl
    · simp only [reduceCtorEq] at h
  · rintro rfl
    have hvalid : (bytes text).toByteArray.IsValidUTF8 := by
      rw [toByteArray_bytes]
      exact text.isValidUTF8
    rw [dif_pos hvalid, Option.some.injEq, ← String.toByteArray_inj]
    exact toByteArray_bytes text

theorem toNat_ofNat_byte {n : Nat} (h : n < 256) : (UInt8.ofNat n).toNat = n := by
  rw [UInt8.toNat_ofNat', Nat.mod_eq_of_lt h]

/-- A byte that carries the lowest six bits of a number may continue any character. -/
theorem continuation_contains (v : Nat) :
    ByteRange.continuation.contains (UInt8.ofNat (v % 64 + 128)) = true := by
  have hbyte : (UInt8.ofNat (v % 64 + 128)).toNat = v % 64 + 128 := toNat_ofNat_byte (by omega)
  simp only [ByteRange.contains, ByteRange.continuation, hbyte, Bool.and_eq_true, decide_eq_true_eq]
  omega

-- The lead byte of an encoding of two bytes, and then of three and of four.
theorem lead_two {v : Nat} (h : 0x80 ≤ v) (h' : v < 0x800) :
    lead (UInt8.ofNat (v / 64 % 32 + 192)) = some (v / 64, [.continuation]) := by
  have hbyte : (UInt8.ofNat (v / 64 % 32 + 192)).toNat = v / 64 + 192 := by
    rw [toNat_ofNat_byte (by omega), Nat.mod_eq_of_lt (by omega)]
  simp only [lead, hbyte]
  rw [if_neg (by omega), if_neg (by omega), if_pos (by omega), Nat.add_sub_cancel]

theorem lead_three {v : Nat} (h : 0x800 ≤ v) (h' : v < 0x10000)
    (hscalar : v < 0xD800 ∨ 0xDFFF < v) :
    ∃ next, lead (UInt8.ofNat (v / 4096 % 16 + 224)) = some (v / 4096, [next, .continuation]) ∧
      next.contains (UInt8.ofNat (v / 64 % 64 + 128)) = true := by
  have hbyte : (UInt8.ofNat (v / 4096 % 16 + 224)).toNat = v / 4096 + 224 := by
    rw [toNat_ofNat_byte (by omega), Nat.mod_eq_of_lt (by omega)]
  have hsecond : (UInt8.ofNat (v / 64 % 64 + 128)).toNat = v / 64 % 64 + 128 :=
    toNat_ofNat_byte (by omega)
  simp only [lead, hbyte, Nat.add_sub_cancel]
  rw [if_neg (by omega), if_neg (by omega), if_neg (by omega)]
  -- Two of the lead bytes narrow the range of the byte after them.
  by_cases hfirst : v / 4096 = 0
  · refine ⟨⟨0xA0, 0xBF⟩, by rw [if_pos (by omega)], ?_⟩
    simp only [ByteRange.contains, hsecond, Bool.and_eq_true, decide_eq_true_eq]
    omega
  rw [if_neg (by omega)]
  by_cases hsurrogates : v / 4096 = 13
  · refine ⟨⟨0x80, 0x9F⟩, by rw [if_pos (by omega)], ?_⟩
    simp only [ByteRange.contains, hsecond, Bool.and_eq_true, decide_eq_true_eq]
    omega
  rw [if_neg (by omega)]
  exact ⟨.continuation, by rw [if_pos (by omega)], continuation_contains (v / 64)⟩

theorem lead_four {v : Nat} (h : 0x10000 ≤ v) (h' : v < 0x110000) :
    ∃ next, lead (UInt8.ofNat (v / 262144 % 8 + 240)) =
        some (v / 262144, [next, .continuation, .continuation]) ∧
      next.contains (UInt8.ofNat (v / 4096 % 64 + 128)) = true := by
  have hbyte : (UInt8.ofNat (v / 262144 % 8 + 240)).toNat = v / 262144 + 240 := by
    rw [toNat_ofNat_byte (by omega), Nat.mod_eq_of_lt (by omega)]
  have hsecond : (UInt8.ofNat (v / 4096 % 64 + 128)).toNat = v / 4096 % 64 + 128 :=
    toNat_ofNat_byte (by omega)
  simp only [lead, hbyte, Nat.add_sub_cancel]
  rw [if_neg (by omega), if_neg (by omega), if_neg (by omega), if_neg (by omega),
    if_neg (by omega), if_neg (by omega)]
  by_cases hfirst : v / 262144 = 0
  · refine ⟨⟨0x90, 0xBF⟩, by rw [if_pos (by omega)], ?_⟩
    simp only [ByteRange.contains, hsecond, Bool.and_eq_true, decide_eq_true_eq]
    omega
  rw [if_neg (by omega)]
  by_cases hlast : v / 262144 = 4
  · refine ⟨⟨0x80, 0x8F⟩, by rw [if_neg (by omega), if_pos (by omega)], ?_⟩
    simp only [ByteRange.contains, hsecond, Bool.and_eq_true, decide_eq_true_eq]
    omega
  exact ⟨.continuation, by rw [if_pos (by omega)], continuation_contains (v / 4096)⟩

namespace Decoder

variable {characters : List Char} {value v : Nat} {next following : ByteRange}
  {later : List ByteRange}

-- A lead byte opens a character, and each byte that it owes but the last gathers six bits.
theorem step_opens {byte : UInt8} (h : lead byte = some (value, next :: later)) :
    step ⟨characters, none⟩ byte = ⟨characters, some ⟨value, next, later⟩⟩ := by
  simp only [step, start, h]

/-- A byte inside of a character gathers six bits, and the next one is owed. -/
theorem step_inner (h : next.contains (UInt8.ofNat (v % 64 + 128)) = true) :
    step ⟨characters, some ⟨value, next, following :: later⟩⟩ (UInt8.ofNat (v % 64 + 128)) =
      ⟨characters, some ⟨value * 64 + v % 64, following, later⟩⟩ := by
  have hbyte : (UInt8.ofNat (v % 64 + 128)).toNat = v % 64 + 128 := toNat_ofNat_byte (by omega)
  simp only [step, h, if_true, hbyte, Nat.add_sub_cancel]

/-- The last byte that is owed closes the character. -/
theorem step_last (h : next.contains (UInt8.ofNat (v % 64 + 128)) = true) :
    step ⟨characters, some ⟨value, next, []⟩⟩ (UInt8.ofNat (v % 64 + 128)) =
      ⟨Char.ofNat (value * 64 + v % 64) :: characters, none⟩ := by
  have hbyte : (UInt8.ofNat (v % 64 + 128)).toNat = v % 64 + 128 := toNat_ofNat_byte (by omega)
  simp only [step, h, if_true, hbyte, Nat.add_sub_cancel]

/-- With the bytes of a character the reader has that character. -/
theorem step_char (characters : List Char) (c : Char) :
    (String.utf8EncodeChar c).foldl step ⟨characters, none⟩ = ⟨c :: characters, none⟩ := by
  have hvalid : c.val.toNat < 0xD800 ∨ 0xDFFF < c.val.toNat ∧ c.val.toNat < 0x110000 := c.valid
  have hc : ∀ n, n = c.val.toNat → Char.ofNat n = c := fun n h => h ▸ Char.ofNat_toNat c
  unfold String.utf8EncodeChar
  simp only
  generalize c.val.toNat = v at hvalid hc
  -- Encodings of one, two, three and four bytes.
  split
  · have hlead : lead (UInt8.ofNat v) = some (v, []) := by
      have hbyte : (UInt8.ofNat v).toNat = v := toNat_ofNat_byte (by omega)
      simp only [lead, hbyte]
      rw [if_pos (by omega)]
    simp only [List.foldl_cons, List.foldl_nil, step, start, hlead, hc]
  split
  · simp only [List.foldl_cons, List.foldl_nil]
    rw [step_opens (lead_two (by omega) (by omega)), step_last (continuation_contains v),
      hc _ (by omega)]
  split
  · rcases lead_three (v := v) (by omega) (by omega) (by omega) with ⟨next, hlead, hnext⟩
    simp only [List.foldl_cons, List.foldl_nil]
    rw [step_opens hlead, step_inner hnext, step_last (continuation_contains v), hc _ (by omega)]
  · rcases lead_four (v := v) (by omega) (by omega) with ⟨next, hlead, hnext⟩
    simp only [List.foldl_cons, List.foldl_nil]
    rw [step_opens hlead, step_inner hnext, step_inner (continuation_contains (v / 64)),
      step_last (continuation_contains v), hc _ (by omega)]

end Decoder

/-- The forgiving reader reads the bytes of a text as the text. -/
theorem ofBytes_bytes (text : String) : ofBytes (bytes text) = text := by
  have hall : ∀ (more characters : List Char),
      (more.flatMap String.utf8EncodeChar).foldl Decoder.step ⟨characters, none⟩ =
        ⟨more.reverse ++ characters, none⟩ := by
    intro more
    induction more with
    | nil => exact fun _ => rfl
    | cons c rest ih =>
        intro characters
        rw [List.flatMap_cons, List.foldl_append, Decoder.step_char, ih, List.reverse_cons,
          List.append_assoc]
        rfl
  rw [ofBytes, bytes, hall, Decoder.finish, List.append_nil, List.reverse_reverse,
    String.ofList_toList]

/-- No two texts have the same bytes. -/
theorem bytes_injective {a b : String} (h : bytes a = bytes b) : a = b := by
  rw [← ofBytes_bytes a, h, ofBytes_bytes]

/-- Bytes survive the forgiving reader exactly if they are those of a text. -/
theorem bytes_ofBytes_iff {content : Bytes} :
    bytes (ofBytes content) = content ↔ ∃ text, bytes text = content := by
  constructor
  · exact fun h => ⟨_, h⟩
  · rintro ⟨text, rfl⟩
    rw [ofBytes_bytes]

-- Only the number of a line feed stands for one.
theorem eq_of_ofNat_eq_lineFeed {n : Nat} (h : Char.ofNat n = '\n') : n = 10 := by
  by_cases hvalid : n.isValidChar
  · rw [Char.ofNat, dif_pos hvalid] at h
    exact congrArg Char.toNat h
  · rw [Char.ofNat, dif_neg hvalid] at h
    exact absurd h (by decide)

-- The line feed is the only character that has its byte.
theorem lineFeed_mem_utf8EncodeChar {c : Char} :
    (10 : UInt8) ∈ String.utf8EncodeChar c ↔ c = '\n' := by
  have hc : c = '\n' ↔ c.val.toNat = 10 := by
    constructor
    · rintro rfl
      rfl
    · intro h
      rw [← Char.ofNat_toNat c, Char.toNat, h]
  have hbyte : ∀ n, n < 256 → ((10 : UInt8) = UInt8.ofNat n ↔ n = 10) := by
    intro n hn
    rw [← UInt8.toNat_inj, toNat_ofNat_byte hn]
    exact eq_comm
  have hvalid : c.val.toNat < 0xD800 ∨ 0xDFFF < c.val.toNat ∧ c.val.toNat < 0x110000 := c.valid
  rw [hc]
  unfold String.utf8EncodeChar
  simp only
  generalize c.val.toNat = v at hvalid
  -- The bytes of a longer encoding are all beyond ASCII.
  split_ifs <;>
    simp (disch := omega) only [List.mem_cons, List.not_mem_nil, or_false, hbyte] <;> omega

/-- A text has a line feed exactly if its bytes have one. -/
theorem lineFeed_mem_bytes {text : String} : (10 : UInt8) ∈ bytes text ↔ '\n' ∈ text.toList := by
  rw [bytes, List.mem_flatMap]
  constructor
  · rintro ⟨c, hmem, hbyte⟩
    rwa [← lineFeed_mem_utf8EncodeChar.mp hbyte]
  · exact fun h => ⟨_, h, lineFeed_mem_utf8EncodeChar.mpr rfl⟩

/-- What an unfinished character can become is no ASCII character. -/
def Unfinished.High (unfinished : Unfinished) : Prop :=
  match unfinished.later with
  | [] => 2 ≤ unfinished.value
  | _ :: _ => 2 ≤ unfinished.value * 64 + (unfinished.next.low - 0x80)

-- A lead byte is an ASCII character, or begins one that is none.
theorem lead_ascii {byte : UInt8} {value : Nat} (h : lead byte = some (value, [])) :
    value = byte.toNat := by
  unfold lead at h
  simp only at h
  split_ifs at h <;> simp only [Option.some.injEq, Prod.mk.injEq, reduceCtorEq, and_false] at h
  exact h.1.symm

theorem lead_high {byte : UInt8} {value : Nat} {next : ByteRange} {later : List ByteRange}
    (h : lead byte = some (value, next :: later)) : Unfinished.High ⟨value, next, later⟩ := by
  unfold lead at h
  simp only at h
  split_ifs at h <;>
    simp only [Option.some.injEq, Prod.mk.injEq, List.cons.injEq, reduceCtorEq, and_false] at h
  all_goals
    obtain ⟨rfl, rfl, rfl⟩ := h
    simp only [Unfinished.High, ByteRange.continuation]
    omega

namespace Decoder

/-- No line feed was read, and none is being read. -/
structure Lined (decoder : Decoder) : Prop where
  characters : '\n' ∉ decoder.characters
  unfinished : ∀ unfinished, decoder.unfinished = some unfinished → unfinished.High

/-- A character that is opened or read alone is a line feed only if its byte is. -/
theorem start_lined {characters : List Char} {byte : UInt8} (h : '\n' ∉ characters)
    (hbyte : byte ≠ 10) : (start characters byte).Lined := by
  unfold start
  split
  · exact ⟨by simp [h, replacement], by simp⟩
  · rename_i value hlead
    refine ⟨?_, by simp⟩
    rw [List.mem_cons, not_or]
    refine ⟨fun hchar => hbyte ?_, h⟩
    have hvalue := eq_of_ofNat_eq_lineFeed hchar.symm
    rw [lead_ascii hlead] at hvalue
    exact UInt8.toNat_inj.mp hvalue
  · rename_i value next later hlead
    refine ⟨h, ?_⟩
    intro unfinished hunfinished
    rw [← Option.some.inj hunfinished]
    exact lead_high hlead

/-- Bytes other than line feeds make none, whatever they are read as. -/
theorem Lined.step {decoder : Decoder} {byte : UInt8} (h : decoder.Lined) (hbyte : byte ≠ 10) :
    (decoder.step byte).Lined := by
  rcases decoder with ⟨characters, _ | ⟨value, next, later⟩⟩
  · exact start_lined h.characters hbyte
  have hhigh := h.unfinished _ rfl
  simp only [Decoder.step]
  split
  · rename_i hcontains
    simp only [ByteRange.contains, Bool.and_eq_true, decide_eq_true_eq] at hcontains
    simp only [Unfinished.High] at hhigh
    cases later with
    | nil =>
        refine ⟨?_, by simp⟩
        rw [List.mem_cons, not_or]
        refine ⟨fun hchar => ?_, h.characters⟩
        have hvalue := eq_of_ofNat_eq_lineFeed hchar.symm
        omega
    | cons following later =>
        refine ⟨h.characters, ?_⟩
        intro unfinished hunfinished
        rw [← Option.some.inj hunfinished]
        cases later <;> simp only [Unfinished.High] <;> omega
  · -- The character ends early, and the byte is looked at afresh.
    exact start_lined (by simp [h.characters, replacement]) hbyte

theorem Lined.foldl {content : Bytes} (hcontent : (10 : UInt8) ∉ content) :
    ∀ {decoder : Decoder}, decoder.Lined → (content.foldl Decoder.step decoder).Lined := by
  induction content with
  | nil => exact fun h => h
  | cons byte rest ih =>
      intro decoder h
      rw [List.mem_cons, not_or] at hcontent
      exact ih hcontent.2 (h.step (Ne.symm hcontent.1))

theorem Lined.finish {decoder : Decoder} (h : decoder.Lined) : '\n' ∉ decoder.finish := by
  unfold Decoder.finish
  split
  · rw [List.mem_reverse]
    exact h.characters
  · simp [h.characters, replacement]

end Decoder

/-- A line feed is read from a line feed only. -/
theorem lineFeed_mem_of_ofBytes {content : Bytes} (h : '\n' ∈ (ofBytes content).toList) :
    (10 : UInt8) ∈ content := by
  refine Decidable.byContradiction fun hcontent => ?_
  rw [ofBytes, String.toList_ofList] at h
  exact (Decoder.Lined.foldl hcontent ⟨by simp, by simp⟩).finish h

end Text

end KeyValue
