import KeyValue.Snapshot.Reader
import Mathlib.Algebra.Group.Nat.Defs

/-!
# What a reader of snapshots accepts

Everything in a snapshot has forms: the byte sequences that it can be written as. A reader decodes
these forms (`Snapshot.Decodes`) if it accepts exactly the inputs that begin with one of them, takes
this form and no more, and refuses everything else as a damaged snapshot.

Every reader of a part of a snapshot decodes the forms of this part. Since a reader gives one answer
to an input, an input begins with a form of one thing only (`Decodes.unique`), although one thing
may have several forms.

## Main definitions

* `Snapshot.Decodes`: A reader accepts exactly the given forms.
* `Snapshot.Announcement.forms`: The ways to announce a length or a text.
* `Snapshot.Record.formsOrEnd`: The ways to write a record or the end mark.

## Theorems

* `ofLittleEndian_littleEndian`, `littleEndian_ofLittleEndian`: Numbers of fixed width.
* `number_eq_ok_iff`: Numbers of a type of fixed width.
* `Decodes.unique`: An input begins with a form of one thing only.
* `readLength_decodes`, `readText_decodes`, `readRecord_decodes`: The readers.
-/

namespace KeyValue

namespace Snapshot

section Numbers

/-- A number is written in as many bytes as are given for it. -/
theorem length_littleEndian (count n : Nat) : (littleEndian count n).length = count := by
  induction count generalizing n with
  | zero => rfl
  | succ count ih => rw [littleEndian, List.length_cons, ih]

/-- A number is told by its bytes if it fits in them. -/
theorem ofLittleEndian_littleEndian {count n : Nat} (h : n < 256 ^ count) :
    ofLittleEndian (littleEndian count n) = n := by
  induction count generalizing n with
  | zero =>
      rw [Nat.pow_zero, Nat.lt_one_iff] at h
      rw [h]
      rfl
  | succ count ih =>
      rw [Nat.pow_succ] at h
      have hrest := ih (n := n / 256) (by omega)
      simp only [littleEndian, ofLittleEndian, List.foldr_cons] at hrest ⊢
      rw [hrest, UInt8.toNat_ofNat']
      omega

/-- A number that is read from bytes is small enough to be written in as many. -/
theorem ofLittleEndian_lt (bytes : Bytes) : ofLittleEndian bytes < 256 ^ bytes.length := by
  induction bytes with
  | nil => exact Nat.one_pos
  | cons byte rest ih =>
      have hbyte := byte.toNat_lt
      rw [List.length_cons, Nat.pow_succ]
      simp only [ofLittleEndian, List.foldr_cons] at ih ⊢
      omega

/-- Bytes are told by their number if it is known how many they are. -/
theorem littleEndian_ofLittleEndian (bytes : Bytes) :
    littleEndian bytes.length (ofLittleEndian bytes) = bytes := by
  induction bytes with
  | nil => rfl
  | cons byte rest ih =>
      have hbyte := byte.toNat_lt
      have hsplit : ofLittleEndian (byte :: rest) = byte.toNat + 256 * ofLittleEndian rest := rfl
      have hlow : (byte.toNat + 256 * ofLittleEndian rest) % 256 = byte.toNat := by omega
      have hhigh : (byte.toNat + 256 * ofLittleEndian rest) / 256 = ofLittleEndian rest := by omega
      rw [List.length_cons, littleEndian, hsplit, hlow, hhigh, ih, UInt8.ofNat_toNat]

theorem length_bigEndian (count n : Nat) : (bigEndian count n).length = count := by
  rw [bigEndian, List.length_reverse, length_littleEndian]

/-- A number is read back from its bytes, the highest first, if there are enough of them. -/
theorem ofBigEndian_bigEndian {count n : Nat} (h : n < 256 ^ count) :
    ofBigEndian (bigEndian count n) = n := by
  rw [ofBigEndian, bigEndian, List.reverse_reverse, ofLittleEndian_littleEndian h]

/-- Bytes are the form of the number that is read from them. -/
theorem bigEndian_ofBigEndian (bytes : Bytes) :
    bigEndian bytes.length (ofBigEndian bytes) = bytes := by
  rw [bigEndian, ofBigEndian, ← List.length_reverse, littleEndian_ofLittleEndian,
    List.reverse_reverse]

theorem ofBigEndian_lt (bytes : Bytes) : ofBigEndian bytes < 256 ^ bytes.length := by
  rw [ofBigEndian, ← List.length_reverse]
  exact ofLittleEndian_lt _

end Numbers

/-- If the computation fails, it reports a damaged snapshot. -/
def DamageOnly {α : Type} (result : Except Error α) : Prop :=
  ∀ e, result = .error e → ∃ detail, e = .snapshot detail

namespace DamageOnly

variable {α β : Type}

theorem ok (value : α) : DamageOnly (.ok value : Except Error α) := fun _ h => nomatch h

/-- Damage is all that a damaged part reports. -/
theorem damaged (detail : String) : DamageOnly (.error (.snapshot detail) : Except Error α) :=
  fun _ h => ⟨detail, (Except.error.inj h).symm⟩

/-- A reader that goes on reports damage only if both of its steps do. -/
theorem bind {result : Except Error α} {next : α → Except Error β} (h : DamageOnly result)
    (h' : ∀ value, DamageOnly (next value)) : DamageOnly (result >>= next) := by
  cases result with
  | error e =>
      rintro _ ⟨⟩
      exact h e rfl
  | ok value => exact h' value

end DamageOnly

/-- A computation in steps succeeds if each step does. -/
theorem bind_eq_ok_iff {α β : Type} {result : Except Error α} {next : α → Except Error β}
    {value : β} : result >>= next = .ok value ↔ ∃ a, result = .ok a ∧ next a = .ok value := by
  cases result with
  | error e => simp [bind, Except.bind]
  | ok a => simp [bind, Except.bind]

/-- A reader accepts exactly the inputs that begin with a form of some value. It takes this form and
    reports anything else as a damaged snapshot. -/
structure Decodes {α : Type} (read : Bytes → Except Error (α × Bytes)) (forms : α → List Bytes) :
    Prop where
  accepts : ∀ {input rest : Bytes} {value : α},
    read input = .ok (value, rest) ↔ ∃ form ∈ forms value, input = form ++ rest
  refuses : ∀ input, DamageOnly (read input)

/-- An input begins with a form of one value only, and with one of its forms. -/
theorem Decodes.unique {α : Type} {read : Bytes → Except Error (α × Bytes)}
    {forms : α → List Bytes} (h : Decodes read forms) {value value' : α} {form form' : Bytes}
    (hform : form ∈ forms value) (hform' : form' ∈ forms value') {rest rest' : Bytes}
    (hsame : form ++ rest = form' ++ rest') : value = value' ∧ form = form' ∧ rest = rest' := by
  have hread : read (form ++ rest) = .ok (value, rest) := h.accepts.mpr ⟨form, hform, rfl⟩
  have hread' : read (form' ++ rest') = .ok (value', rest') := h.accepts.mpr ⟨form', hform', rfl⟩
  rw [hsame, hread'] at hread
  obtain ⟨rfl, rfl⟩ := Prod.mk.inj (Except.ok.inj hread)
  exact ⟨rfl, List.append_cancel_right hsame, rfl⟩

/-- Bytes are read if there are enough of them, and they are those in front. -/
theorem readBytes_eq_ok_iff {count : Nat} {input taken rest : Bytes} :
    readBytes count input = .ok (taken, rest) ↔
      taken.length = count ∧ input = taken ++ rest := by
  unfold readBytes
  constructor
  · intro h
    by_cases hcount : count ≤ input.length
    · simp only [if_pos hcount, Except.ok.injEq, Prod.mk.injEq] at h
      rcases h with ⟨rfl, rfl⟩
      exact ⟨List.length_take_of_le hcount, (List.take_append_drop _ _).symm⟩
    · simp [if_neg hcount] at h
  · rintro ⟨rfl, rfl⟩
    rw [if_pos (by simp), List.take_left, List.drop_left]

/-- If there are too few bytes, the snapshot is damaged. -/
theorem readBytes_damage (count : Nat) (input : Bytes) : DamageOnly (readBytes count input) := by
  unfold readBytes
  split
  · exact .ok _
  · exact .damaged _

/-- A byte is read if there is one. -/
theorem readByte_eq_ok_iff {byte : UInt8} {input rest : Bytes} :
    readByte input = .ok (byte, rest) ↔ input = byte :: rest := by
  cases input with
  | nil => simp [readByte]
  | cons first later => simp [readByte, eq_comm]

theorem readByte_damage (input : Bytes) : DamageOnly (readByte input) := by
  cases input with
  | nil => exact .damaged _
  | cons first later => exact .ok _

section FixedWidth

variable {α : Type} {f : Nat → α} {count : Nat} {input rest : Bytes} {value : α}

/-- A number of fixed width, the least significant byte first, is read and used. -/
theorem littleEndian_eq_ok_iff :
    (readBytes count input >>= fun (taken, rest) => .ok (f (ofLittleEndian taken), rest)) =
        .ok (value, rest) ↔
      ∃ n < 256 ^ count, value = f n ∧ input = littleEndian count n ++ rest := by
  rw [bind_eq_ok_iff]
  constructor
  · rintro ⟨⟨taken, later⟩, htaken, hvalue⟩
    obtain ⟨rfl, rfl⟩ := readBytes_eq_ok_iff.mp htaken
    obtain ⟨rfl, rfl⟩ := Prod.mk.inj (Except.ok.inj hvalue)
    exact ⟨_, ofLittleEndian_lt taken, rfl, by rw [littleEndian_ofLittleEndian]⟩
  · rintro ⟨n, hn, rfl, rfl⟩
    refine ⟨(littleEndian count n, rest), ?_, ?_⟩
    · exact readBytes_eq_ok_iff.mpr ⟨length_littleEndian count n, rfl⟩
    · simp only [ofLittleEndian_littleEndian hn]

/-- The same with the most significant byte first. -/
theorem bigEndian_eq_ok_iff :
    (readBytes count input >>= fun (taken, rest) => .ok (f (ofBigEndian taken), rest)) =
        .ok (value, rest) ↔
      ∃ n < 256 ^ count, value = f n ∧ input = bigEndian count n ++ rest := by
  rw [bind_eq_ok_iff]
  constructor
  · rintro ⟨⟨taken, later⟩, htaken, hvalue⟩
    obtain ⟨rfl, rfl⟩ := readBytes_eq_ok_iff.mp htaken
    obtain ⟨rfl, rfl⟩ := Prod.mk.inj (Except.ok.inj hvalue)
    exact ⟨_, ofBigEndian_lt taken, rfl, by rw [bigEndian_ofBigEndian]⟩
  · rintro ⟨n, hn, rfl, rfl⟩
    refine ⟨(bigEndian count n, rest), ?_, ?_⟩
    · exact readBytes_eq_ok_iff.mpr ⟨length_bigEndian count n, rfl⟩
    · simp only [ofBigEndian_bigEndian hn]

variable {β : Type} {used : β}

/-- A number of a type of fixed width is read and used. -/
theorem number_eq_ok_iff (make : Nat → α) (number : α → Nat) (f : α → β)
    (hnumber : ∀ n < 256 ^ count, number (make n) = n) (hmake : ∀ a, make (number a) = a)
    (hfits : ∀ a, number a < 256 ^ count) :
    (readBytes count input >>= fun (taken, rest) => .ok (f (make (ofLittleEndian taken)), rest)) =
        .ok (used, rest) ↔
      ∃ a, used = f a ∧ input = littleEndian count (number a) ++ rest := by
  refine (littleEndian_eq_ok_iff (f := fun n => f (make n))).trans ?_
  constructor
  · rintro ⟨n, hn, rfl, rfl⟩
    exact ⟨make n, rfl, by rw [hnumber n hn]⟩
  · rintro ⟨a, rfl, rfl⟩
    exact ⟨number a, hfits a, by rw [hmake a], rfl⟩

/-- A small number is kept in one byte, with its sign. -/
theorem int8_eq_ok_iff {f : Int8 → β} :
    (readBytes 1 input >>= fun (taken, rest) =>
        .ok (f (UInt8.ofNat (ofLittleEndian taken)).toInt8, rest)) = .ok (used, rest) ↔
      ∃ n, used = f n ∧ input = littleEndian 1 n.toUInt8.toNat ++ rest :=
  number_eq_ok_iff (fun n => (UInt8.ofNat n).toInt8) (fun n => n.toUInt8.toNat) f
    (fun n hn => by rw [UInt8.toUInt8_toInt8, UInt8.toNat_ofNat_of_lt' hn])
    (fun n => by rw [UInt8.ofNat_toNat, Int8.toInt8_toUInt8]) fun n => n.toUInt8.toNat_lt

/-- Numbers of 16 bits are kept in two bytes, the lowest first. -/
theorem int16_eq_ok_iff {f : Int16 → β} :
    (readBytes 2 input >>= fun (taken, rest) =>
        .ok (f (UInt16.ofNat (ofLittleEndian taken)).toInt16, rest)) = .ok (used, rest) ↔
      ∃ n, used = f n ∧ input = littleEndian 2 n.toUInt16.toNat ++ rest :=
  number_eq_ok_iff (fun n => (UInt16.ofNat n).toInt16) (fun n => n.toUInt16.toNat) f
    (fun n hn => by rw [UInt16.toUInt16_toInt16, UInt16.toNat_ofNat_of_lt' hn])
    (fun n => by rw [UInt16.ofNat_toNat, Int16.toInt16_toUInt16]) fun n => n.toUInt16.toNat_lt

/-- Numbers of 32 bits are kept in four bytes. -/
theorem int32_eq_ok_iff {f : Int32 → β} :
    (readBytes 4 input >>= fun (taken, rest) =>
        .ok (f (UInt32.ofNat (ofLittleEndian taken)).toInt32, rest)) = .ok (used, rest) ↔
      ∃ n, used = f n ∧ input = littleEndian 4 n.toUInt32.toNat ++ rest :=
  number_eq_ok_iff (fun n => (UInt32.ofNat n).toInt32) (fun n => n.toUInt32.toNat) f
    (fun n hn => by rw [UInt32.toUInt32_toInt32, UInt32.toNat_ofNat_of_lt' hn])
    (fun n => by rw [UInt32.ofNat_toNat, Int32.toInt32_toUInt32]) fun n => n.toUInt32.toNat_lt

/-- Deadlines in seconds are kept in four bytes. -/
theorem uint32_eq_ok_iff {f : UInt32 → β} :
    (readBytes 4 input >>= fun (taken, rest) =>
        .ok (f (UInt32.ofNat (ofLittleEndian taken)), rest)) = .ok (used, rest) ↔
      ∃ n, used = f n ∧ input = littleEndian 4 n.toNat ++ rest :=
  number_eq_ok_iff UInt32.ofNat UInt32.toNat f (fun _ hn => UInt32.toNat_ofNat_of_lt' hn)
    (fun _ => UInt32.ofNat_toNat) UInt32.toNat_lt

/-- Deadlines in milliseconds are kept in eight bytes. -/
theorem uint64_eq_ok_iff {f : UInt64 → β} :
    (readBytes 8 input >>= fun (taken, rest) =>
        .ok (f (UInt64.ofNat (ofLittleEndian taken)), rest)) = .ok (used, rest) ↔
      ∃ n, used = f n ∧ input = littleEndian 8 n.toNat ++ rest :=
  number_eq_ok_iff UInt64.ofNat UInt64.toNat f (fun _ hn => UInt64.toNat_ofNat_of_lt' hn)
    (fun _ => UInt64.ofNat_toNat) UInt64.toNat_lt

end FixedWidth

/-- There are up to four ways to announce a length, by how many bits it needs. -/
theorem mem_lengthForms {n : Nat} {form : Bytes} :
    form ∈ lengthForms n ↔
      n < 0x40 ∧ form = [UInt8.ofNat n] ∨
      n < 0x4000 ∧ form = bigEndian 2 (0x4000 + n) ∨
      n < UInt32.size ∧ form = 0x80 :: bigEndian 4 n ∨
      n < UInt64.size ∧ form = 0x81 :: bigEndian 8 n := by
  -- Each width is there or not.
  have hpart : ∀ (p : Prop) [Decidable p] (bytes : Bytes),
      form ∈ (if p then [bytes] else []) ↔ p ∧ form = bytes := by
    intro p _ bytes
    by_cases h : p
    · simp [h]
    · simp [h]
  simp only [lengthForms, List.mem_append, hpart, or_assoc]

/-- The ways to announce a length or a text. -/
def Announcement.forms : Announcement → List Bytes
  | .length n => lengthForms n
  | .int8 => [[0xC0]]
  | .int16 => [[0xC1]]
  | .int32 => [[0xC2]]
  | .compressed => [[0xC3]]

/-- A byte is told by its two highest bits and the others. -/
theorem eq_ofNat_of_bits {byte : UInt8} {high low : Nat} (hhigh : byte.toNat / 64 = high)
    (hlow : byte.toNat % 64 = low) : byte = UInt8.ofNat (64 * high + low) := by
  have hbyte : byte.toNat = 64 * high + low := by omega
  rw [← hbyte, UInt8.ofNat_toNat]

/-- Whatever is accepted as an announcement is in one of the forms of what it announces. -/
theorem form_of_readAnnouncement {input rest : Bytes} {announced : Announcement}
    (h : readAnnouncement input = .ok (announced, rest)) :
    ∃ form ∈ announced.forms, input = form ++ rest := by
  obtain ⟨⟨first, after⟩, hfirst, hnext⟩ := bind_eq_ok_iff.mp h
  obtain rfl := readByte_eq_ok_iff.mp hfirst
  simp only at hnext
  split at hnext
  · -- Six bits.
    rename_i hhigh
    obtain ⟨rfl, rfl⟩ := Prod.mk.inj (Except.ok.inj hnext)
    refine ⟨[first], mem_lengthForms.mpr (.inl ⟨by omega, ?_⟩), rfl⟩
    rw [eq_ofNat_of_bits hhigh rfl]
    simp
  · -- Fourteen bits.
    rename_i hhigh
    obtain ⟨⟨second, later⟩, hsecond, hlast⟩ := bind_eq_ok_iff.mp hnext
    obtain rfl := readByte_eq_ok_iff.mp hsecond
    obtain ⟨rfl, rfl⟩ := Prod.mk.inj (Except.ok.inj hlast)
    have hsmall := second.toNat_lt
    have hnumber : ofBigEndian [first, second] =
        0x4000 + (first.toNat % 64 * 256 + second.toNat) := by
      simp only [ofBigEndian, ofLittleEndian, List.reverse_cons, List.reverse_nil, List.nil_append,
        List.cons_append, List.foldr_cons, List.foldr_nil]
      omega
    have hfits : first.toNat % 64 * 256 + second.toNat < 0x4000 := by omega
    refine ⟨[first, second], mem_lengthForms.mpr (.inr (.inl ⟨hfits, ?_⟩)), rfl⟩
    rw [← hnumber]
    exact (bigEndian_ofBigEndian [first, second]).symm
  · -- Four or eight bytes.
    rename_i hhigh
    split at hnext
    · rename_i hlow
      obtain ⟨n, hn, rfl, rfl⟩ := bigEndian_eq_ok_iff.mp hnext
      refine ⟨first :: bigEndian 4 n, mem_lengthForms.mpr (.inr (.inr (.inl ⟨hn, ?_⟩))), rfl⟩
      rw [eq_ofNat_of_bits hhigh hlow]
      rfl
    · rename_i hlow
      obtain ⟨n, hn, rfl, rfl⟩ := bigEndian_eq_ok_iff.mp hnext
      refine ⟨first :: bigEndian 8 n, mem_lengthForms.mpr (.inr (.inr (.inr ⟨hn, ?_⟩))), rfl⟩
      rw [eq_ofNat_of_bits hhigh hlow]
      rfl
    · simp at hnext
  · -- The two highest bits are set: the others name a special form.
    rename_i hzero hone htwo
    have hhigh : first.toNat / 64 = 3 := by
      have hsize := first.toNat_lt
      have hne : first.toNat / 64 ≠ 0 ∧ first.toNat / 64 ≠ 1 ∧ first.toNat / 64 ≠ 2 :=
        ⟨hzero, hone, htwo⟩
      omega
    have hform : ∀ low, first.toNat % 64 = low → first = UInt8.ofNat (192 + low) :=
      fun low hlow => eq_ofNat_of_bits hhigh hlow
    split at hnext
    · rename_i hlow
      obtain ⟨rfl, rfl⟩ := Prod.mk.inj (Except.ok.inj hnext)
      exact ⟨[first], by rw [hform 0 hlow]; decide, rfl⟩
    · rename_i hlow
      obtain ⟨rfl, rfl⟩ := Prod.mk.inj (Except.ok.inj hnext)
      exact ⟨[first], by rw [hform 1 hlow]; decide, rfl⟩
    · rename_i hlow
      obtain ⟨rfl, rfl⟩ := Prod.mk.inj (Except.ok.inj hnext)
      exact ⟨[first], by rw [hform 2 hlow]; decide, rfl⟩
    · rename_i hlow
      obtain ⟨rfl, rfl⟩ := Prod.mk.inj (Except.ok.inj hnext)
      exact ⟨[first], by rw [hform 3 hlow]; decide, rfl⟩
    · simp at hnext

-- A length of six bits stands in the first byte, one of fourteen bits in the first two.
theorem readAnnouncement_of_zero {first : UInt8} (h : first.toNat / 64 = 0) (rest : Bytes) :
    readAnnouncement (first :: rest) = .ok (.length (first.toNat % 64), rest) := by
  simp only [readAnnouncement, readByte, bind, Except.bind, h]
  rfl

/-- A first byte that says so is followed by the rest of a length of fourteen bits. -/
theorem readAnnouncement_of_one {first : UInt8} (h : first.toNat / 64 = 1) (second : UInt8)
    (rest : Bytes) : readAnnouncement (first :: second :: rest) =
      .ok (.length (first.toNat % 64 * 256 + second.toNat), rest) := by
  simp only [readAnnouncement, readByte, bind, Except.bind, h]
  rfl

/-- Anything that is announced in one of its forms is read. -/
theorem readAnnouncement_of_form {announced : Announcement} {form : Bytes}
    (hform : form ∈ announced.forms) (rest : Bytes) :
    readAnnouncement (form ++ rest) = .ok (announced, rest) := by
  cases announced with
  | length n =>
      rcases mem_lengthForms.mp hform with ⟨hn, rfl⟩ | ⟨hn, rfl⟩ | ⟨hn, rfl⟩ | ⟨hn, rfl⟩
      · have hbyte : (UInt8.ofNat n).toNat = n := by
          rw [UInt8.toNat_ofNat']
          omega
        have hlow : n % 64 = n := by omega
        rw [List.singleton_append, readAnnouncement_of_zero (by omega), hbyte, hlow]
      · -- The two bytes stand for the length and the mark in front of it.
        obtain ⟨first, second, hbytes⟩ : ∃ first second,
            bigEndian 2 (0x4000 + n) = [first, second] := ⟨_, _, rfl⟩
        have hnumber : ofBigEndian [first, second] = 0x4000 + n := by
          rw [← hbytes, ofBigEndian_bigEndian (by omega)]
        simp only [ofBigEndian, ofLittleEndian, List.reverse_cons, List.reverse_nil,
          List.nil_append, List.cons_append, List.foldr_cons, List.foldr_nil] at hnumber
        have hsecond := second.toNat_lt
        have hlength : first.toNat % 64 * 256 + second.toNat = n := by omega
        rw [hbytes, List.cons_append, List.singleton_append,
          readAnnouncement_of_one (by omega), hlength]
      · have hfits : n < 256 ^ 4 := hn
        exact (bigEndian_eq_ok_iff (f := Announcement.length)).mpr ⟨n, hfits, rfl, rfl⟩
      · have hfits : n < 256 ^ 8 := hn
        exact (bigEndian_eq_ok_iff (f := Announcement.length)).mpr ⟨n, hfits, rfl, rfl⟩
  | int8 =>
      obtain rfl := List.mem_singleton.mp hform
      rfl
  | int16 =>
      obtain rfl := List.mem_singleton.mp hform
      rfl
  | int32 =>
      obtain rfl := List.mem_singleton.mp hform
      rfl
  | compressed =>
      obtain rfl := List.mem_singleton.mp hform
      rfl

/-- An announcement that is cut short or unknown is damage. -/
theorem readAnnouncement_damage (input : Bytes) : DamageOnly (readAnnouncement input) := by
  refine .bind (readByte_damage input) fun ⟨first, after⟩ => ?_
  simp only
  split
  · exact .ok _
  · exact .bind (readByte_damage after) fun _ => .ok _
  · split
    · exact .bind (readBytes_damage 4 after) fun _ => .ok _
    · exact .bind (readBytes_damage 8 after) fun _ => .ok _
    · exact .damaged _
  · split
    · exact .ok _
    · exact .ok _
    · exact .ok _
    · exact .ok _
    · exact .damaged _

/-- What stands in front of a length or a text is read in any of its forms. -/
theorem readAnnouncement_decodes : Decodes readAnnouncement Announcement.forms where
  accepts := by
    refine ⟨form_of_readAnnouncement, ?_⟩
    rintro ⟨form, hform, rfl⟩
    exact readAnnouncement_of_form hform _
  refuses := readAnnouncement_damage

/-- A length is read in any of its forms. -/
theorem readLength_decodes : Decodes readLength lengthForms where
  accepts := by
    intro input rest n
    constructor
    · intro h
      obtain ⟨⟨announced, after⟩, hannounced, hlength⟩ := bind_eq_ok_iff.mp h
      cases announced with
      | length n =>
          obtain ⟨rfl, rfl⟩ := Prod.mk.inj (Except.ok.inj hlength)
          exact readAnnouncement_decodes.accepts.mp hannounced
      | _ => simp at hlength
    · rintro ⟨form, hform, rfl⟩
      have hannounced : readAnnouncement (form ++ rest) = .ok (.length n, rest) :=
        readAnnouncement_of_form hform rest
      exact bind_eq_ok_iff.mpr ⟨_, hannounced, rfl⟩
  refuses := by
    intro input
    refine .bind (readAnnouncement_damage input) fun ⟨announced, after⟩ => ?_
    cases announced with
    | length n => exact .ok _
    | _ => exact .damaged _

/-- Whatever is accepted as a text is in one of the forms of the text. -/
theorem form_of_readText {input rest : Bytes} {stored : StoredText}
    (h : readText input = .ok (stored, rest)) : ∃ form ∈ stored.forms, input = form ++ rest := by
  obtain ⟨⟨announced, after⟩, hannounced, htext⟩ := bind_eq_ok_iff.mp h
  obtain ⟨mark, hmark, rfl⟩ := form_of_readAnnouncement hannounced
  cases announced with
  | length n =>
      simp only at htext
      split at htext
      · rename_i hfits
        obtain ⟨rfl, rfl⟩ := Prod.mk.inj (Except.ok.inj htext)
        refine ⟨mark ++ after.take n, List.mem_map.mpr ⟨mark, ?_, rfl⟩, ?_⟩
        · rw [List.length_take_of_le hfits]
          exact hmark
        · rw [List.append_assoc, List.take_append_drop]
      · simp at htext
  | int8 =>
      obtain rfl := List.mem_singleton.mp hmark
      obtain ⟨n, rfl, rfl⟩ := int8_eq_ok_iff.mp htext
      exact ⟨_, List.mem_singleton.mpr rfl, rfl⟩
  | int16 =>
      obtain rfl := List.mem_singleton.mp hmark
      obtain ⟨n, rfl, rfl⟩ := int16_eq_ok_iff.mp htext
      exact ⟨_, List.mem_singleton.mpr rfl, rfl⟩
  | int32 =>
      obtain rfl := List.mem_singleton.mp hmark
      obtain ⟨n, rfl, rfl⟩ := int32_eq_ok_iff.mp htext
      exact ⟨_, List.mem_singleton.mpr rfl, rfl⟩
  | compressed => simp at htext

/-- Each form of a text is read as the text, whatever is behind it. -/
theorem readText_of_form {stored : StoredText} {form : Bytes} (hform : form ∈ stored.forms)
    (rest : Bytes) : readText (form ++ rest) = .ok (stored, rest) := by
  cases stored with
  | bytes content =>
      obtain ⟨mark, hmark, rfl⟩ := List.mem_map.mp hform
      have hannounced : readAnnouncement (mark ++ content ++ rest) =
          .ok (.length content.length, content ++ rest) := by
        rw [List.append_assoc]
        exact readAnnouncement_of_form hmark _
      refine bind_eq_ok_iff.mpr ⟨_, hannounced, ?_⟩
      simp only
      rw [if_pos (by simp), List.take_left, List.drop_left]
      rfl
  | int8 number =>
      obtain rfl := List.mem_singleton.mp hform
      exact int8_eq_ok_iff.mpr ⟨number, rfl, rfl⟩
  | int16 number =>
      obtain rfl := List.mem_singleton.mp hform
      exact int16_eq_ok_iff.mpr ⟨number, rfl, rfl⟩
  | int32 number =>
      obtain rfl := List.mem_singleton.mp hform
      exact int32_eq_ok_iff.mpr ⟨number, rfl, rfl⟩

/-- A text that is cut short, or compressed, is damage. -/
theorem readText_damage (input : Bytes) : DamageOnly (readText input) := by
  refine .bind (readAnnouncement_damage input) fun ⟨announced, after⟩ => ?_
  cases announced with
  | length n =>
      simp only
      split
      · exact .ok _
      · exact .damaged _
  | int8 => exact .bind (readBytes_damage 1 after) fun _ => .ok _
  | int16 => exact .bind (readBytes_damage 2 after) fun _ => .ok _
  | int32 => exact .bind (readBytes_damage 4 after) fun _ => .ok _
  | compressed => exact .damaged _

/-- A text is read in any of its forms. -/
theorem readText_decodes : Decodes readText StoredText.forms where
  accepts := by
    refine ⟨form_of_readText, ?_⟩
    rintro ⟨form, hform, rfl⟩
    exact readText_of_form hform _
  refuses := readText_damage

section Parts

variable {α β γ : Type} {read : Bytes → Except Error (α × Bytes)} {forms : α → List Bytes}
  {read' : Bytes → Except Error (β × Bytes)} {forms' : β → List Bytes} {input rest : Bytes}
  {value : γ}

/-- What has one part is read as this part is. -/
theorem Decodes.part (h : Decodes read forms) {f : α → γ} :
    (read input >>= fun (a, rest) => .ok (f a, rest)) = .ok (value, rest) ↔
      ∃ a, value = f a ∧ ∃ form ∈ forms a, input = form ++ rest := by
  rw [bind_eq_ok_iff]
  constructor
  · rintro ⟨⟨a, after⟩, hread, hvalue⟩
    obtain ⟨rfl, rfl⟩ := Prod.mk.inj (Except.ok.inj hvalue)
    exact ⟨a, rfl, h.accepts.mp hread⟩
  · rintro ⟨a, rfl, hform⟩
    exact ⟨(a, rest), h.accepts.mpr hform, rfl⟩

/-- What has two parts is read as one part and then the other one. -/
theorem Decodes.parts (h : Decodes read forms) (h' : Decodes read' forms') {f : α → β → γ} :
    (read input >>= fun (a, rest) => read' rest >>= fun (b, rest) => .ok (f a b, rest)) =
        .ok (value, rest) ↔
      ∃ a b, value = f a b ∧
        ∃ form ∈ forms a, ∃ form' ∈ forms' b, input = form ++ form' ++ rest := by
  rw [bind_eq_ok_iff]
  constructor
  · rintro ⟨⟨a, after⟩, hread, hnext⟩
    obtain ⟨form, hform, rfl⟩ := h.accepts.mp hread
    obtain ⟨b, rfl, form', hform', rfl⟩ := (h'.part (f := f a)).mp hnext
    exact ⟨a, b, rfl, form, hform, form', hform', (List.append_assoc _ _ _).symm⟩
  · rintro ⟨a, b, rfl, form, hform, form', hform', rfl⟩
    refine ⟨(a, form' ++ rest), h.accepts.mpr ⟨form, hform, List.append_assoc _ _ _⟩, ?_⟩
    exact (h'.part (f := f a)).mpr ⟨b, rfl, form', hform', rfl⟩

/-- A record of two parts is its mark with a form of each. -/
theorem Record.mem_pairs {mark : UInt8} {first second : List Bytes} {form : Bytes} :
    form ∈ Record.forms.pairs mark first second ↔
      ∃ a ∈ first, ∃ b ∈ second, form = mark :: (a ++ b) := by
  simp only [Record.forms.pairs, List.mem_flatMap, List.mem_map, eq_comm]

end Parts

/-- The ways to write a record, or the end mark. -/
def Record.formsOrEnd : Option Record → List Bytes
  | some record => record.forms
  | none => [[endMark]]

/-- Whatever is accepted as a record is in one of the forms of the record, or it is the end mark. -/
theorem form_of_readRecord {input rest : Bytes} {record : Option Record}
    (h : readRecord input = .ok (record, rest)) :
    ∃ form ∈ Record.formsOrEnd record, input = form ++ rest := by
  obtain ⟨⟨mark, after⟩, hfirst, hnext⟩ := bind_eq_ok_iff.mp h
  obtain rfl := readByte_eq_ok_iff.mp hfirst
  simp only at hnext
  split at hnext
  · rename_i hmark
    obtain rfl : mark = 0xFA := UInt8.toNat_inj.mp hmark
    obtain ⟨name, value, rfl, form, hform, form', hform', rfl⟩ :=
      (readText_decodes.parts readText_decodes
        (f := fun name value => some (Record.auxiliary name value))).mp hnext
    exact ⟨_, Record.mem_pairs.mpr ⟨form, hform, form', hform', rfl⟩, rfl⟩
  · rename_i hmark
    obtain rfl : mark = 0xFE := UInt8.toNat_inj.mp hmark
    obtain ⟨number, rfl, form, hform, rfl⟩ :=
      (readLength_decodes.part (f := fun number => some (Record.selectDatabase number))).mp hnext
    exact ⟨_, List.mem_map.mpr ⟨form, hform, rfl⟩, rfl⟩
  · rename_i hmark
    obtain rfl : mark = 0xFB := UInt8.toNat_inj.mp hmark
    obtain ⟨keys, expiring, rfl, form, hform, form', hform', rfl⟩ :=
      (readLength_decodes.parts readLength_decodes
        (f := fun keys expiring => some (Record.resizeDatabase keys expiring))).mp hnext
    exact ⟨_, Record.mem_pairs.mpr ⟨form, hform, form', hform', rfl⟩, rfl⟩
  · rename_i hmark
    obtain rfl : mark = 0xFD := UInt8.toNat_inj.mp hmark
    obtain ⟨seconds, rfl, rfl⟩ :=
      (uint32_eq_ok_iff (f := fun seconds => some (Record.expirySeconds seconds))).mp hnext
    exact ⟨_, List.mem_singleton.mpr rfl, rfl⟩
  · rename_i hmark
    obtain rfl : mark = 0xFC := UInt8.toNat_inj.mp hmark
    obtain ⟨ms, rfl, rfl⟩ :=
      (uint64_eq_ok_iff (f := fun ms => some (Record.expiryMillis ms))).mp hnext
    exact ⟨_, List.mem_singleton.mpr rfl, rfl⟩
  · rename_i hmark
    obtain rfl : mark = 0x00 := UInt8.toNat_inj.mp hmark
    obtain ⟨key, value, rfl, form, hform, form', hform', rfl⟩ :=
      (readText_decodes.parts readText_decodes
        (f := fun key value => some (Record.entry key value))).mp hnext
    exact ⟨_, Record.mem_pairs.mpr ⟨form, hform, form', hform', rfl⟩, rfl⟩
  · rename_i hmark
    obtain rfl : mark = 0xFF := UInt8.toNat_inj.mp hmark
    obtain ⟨rfl, rfl⟩ := Prod.mk.inj (Except.ok.inj hnext)
    exact ⟨[endMark], List.mem_singleton.mpr rfl, rfl⟩
  · simp at hnext

/-- Every record is read in any of its forms, and so is the end mark. -/
theorem readRecord_of_form {record : Option Record} {form : Bytes}
    (hform : form ∈ Record.formsOrEnd record) (rest : Bytes) :
    readRecord (form ++ rest) = .ok (record, rest) := by
  rcases record with _ | record
  · obtain rfl := List.mem_singleton.mp hform
    rfl
  · cases record with
    | auxiliary name value =>
        obtain ⟨first, hfirst, second, hsecond, rfl⟩ := Record.mem_pairs.mp hform
        exact (readText_decodes.parts readText_decodes
          (f := fun name value => some (Record.auxiliary name value))).mpr
            ⟨name, value, rfl, first, hfirst, second, hsecond, rfl⟩
    | selectDatabase number =>
        obtain ⟨length, hlength, rfl⟩ := List.mem_map.mp hform
        exact (readLength_decodes.part
          (f := fun number => some (Record.selectDatabase number))).mpr
            ⟨number, rfl, length, hlength, rfl⟩
    | resizeDatabase keys expiring =>
        obtain ⟨first, hfirst, second, hsecond, rfl⟩ := Record.mem_pairs.mp hform
        exact (readLength_decodes.parts readLength_decodes
          (f := fun keys expiring => some (Record.resizeDatabase keys expiring))).mpr
            ⟨keys, expiring, rfl, first, hfirst, second, hsecond, rfl⟩
    | expirySeconds seconds =>
        obtain rfl := List.mem_singleton.mp hform
        exact (uint32_eq_ok_iff (f := fun seconds => some (Record.expirySeconds seconds))).mpr
          ⟨seconds, rfl, rfl⟩
    | expiryMillis ms =>
        obtain rfl := List.mem_singleton.mp hform
        exact (uint64_eq_ok_iff (f := fun ms => some (Record.expiryMillis ms))).mpr ⟨ms, rfl, rfl⟩
    | entry key value =>
        obtain ⟨first, hfirst, second, hsecond, rfl⟩ := Record.mem_pairs.mp hform
        exact (readText_decodes.parts readText_decodes
          (f := fun key value => some (Record.entry key value))).mpr
            ⟨key, value, rfl, first, hfirst, second, hsecond, rfl⟩

/-- A record with an unknown mark is damage, and so is one with a damaged part. -/
theorem readRecord_damage (input : Bytes) : DamageOnly (readRecord input) := by
  refine .bind (readByte_damage input) fun ⟨mark, after⟩ => ?_
  simp only
  split
  · exact .bind (readText_decodes.refuses _) fun _ => .bind (readText_decodes.refuses _)
      fun _ => .ok _
  · exact .bind (readLength_decodes.refuses _) fun _ => .ok _
  · exact .bind (readLength_decodes.refuses _) fun _ => .bind (readLength_decodes.refuses _)
      fun _ => .ok _
  · exact .bind (readBytes_damage 4 _) fun _ => .ok _
  · exact .bind (readBytes_damage 8 _) fun _ => .ok _
  · exact .bind (readText_decodes.refuses _) fun _ => .bind (readText_decodes.refuses _)
      fun _ => .ok _
  · exact .ok _
  · exact .damaged _

/-- A record or the end mark is read in any of its forms. -/
theorem readRecord_decodes : Decodes readRecord Record.formsOrEnd where
  accepts := by
    refine ⟨form_of_readRecord, ?_⟩
    rintro ⟨form, hform, rfl⟩
    exact readRecord_of_form hform _
  refuses := readRecord_damage

end Snapshot

end KeyValue
