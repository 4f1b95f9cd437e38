import KeyValue.Proofs.Snapshot.Accepting

/-!
# Snapshots are decoded exactly

A snapshot file is a header, forms of records and the end mark (`Snapshot.Written`). Reading accepts
exactly the inputs that begin with such a file, whatever stands behind it, and its answer is what
the records describe (`Snapshot.Describes`): the keys in the order of the file, each with the
deadline of the last deadline record in front of it, unless another key stands between them.

The induction is on the records. What makes it go through is that a record or the end mark is read
in each of its forms and leaves what stands behind, so there is one way only to take an input apart
(`Spells.unique`). For the same reason a file that is cut off before its end is refused: if it were
accepted, its end mark would be found twice.

## Main definitions

* `Snapshot.Spells`: Bytes are forms of records, one after the other.
* `Snapshot.Written`: Bytes are a snapshot file, up to its end mark.
* `Snapshot.lastExpiry`: The milliseconds of the last deadline among records.
* `Snapshot.Describes`: The keys that records describe.

## Theorems

* `entriesOf_eq_iff`: The keys that are read are those that the records describe.
* `records_eq_ok_iff`: The records that are read are those that the file is written from.
* `Spells.unique`: There is one way to take an input apart.
* `decodes_grammar`: Reading accepts snapshots only, and reads what they describe.
-/

namespace KeyValue

namespace Snapshot

/-- The bytes are forms of the records, one after the other. -/
inductive Spells : List Record → Bytes → Prop where
  | nil : Spells [] []
  | cons {record : Record} {form : Bytes} (hform : form ∈ record.forms) {records : List Record}
      {body : Bytes} (hrest : Spells records body) : Spells (record :: records) (form ++ body)

/-- The bytes are a snapshot file of the records, up to its end mark: the magic word, a version of
    four digits, and the records. -/
def Written (records : List Record) (file : Bytes) : Prop :=
  ∃ digits body, digits.length = 4 ∧ digits.all isDigitByte = true ∧ Spells records body ∧
    file = magic ++ digits ++ body ++ [endMark]

/-- Whether the record is a key. -/
def Record.isKey : Record → Bool
  | .entry _ _ => true
  | _ => false

/-- The milliseconds of a deadline record. -/
def Record.expiry? : Record → Option Nat
  | .expirySeconds seconds => some (seconds.toNat * 1000)
  | .expiryMillis ms => some ms.toNat
  | _ => none

/-- The milliseconds of the last deadline among the records; zero if there is none. -/
def lastExpiry (records : List Record) : Nat := (records.filterMap Record.expiry?).getLast?.getD 0

/-- The keys that records describe, in order: each has the last deadline since the key before it. -/
inductive Describes : List Record → List Entry → Prop where
  | rest {gap : List Record} (hgap : ∀ record ∈ gap, record.isKey = false) : Describes gap []
  | key {gap : List Record} (hgap : ∀ record ∈ gap, record.isKey = false) {key value : StoredText}
      {deadline : Deadline} (hdeadline : deadline.ms.toNat = lastExpiry gap)
      {records : List Record} {entries : List Entry} (hrest : Describes records entries) :
      Describes (gap ++ .entry key value :: records)
        (⟨key.text, value.text, deadline⟩ :: entries)

section Keys

-- A deadline in seconds fits in 64 bits of milliseconds.
theorem toNat_ofSeconds (seconds : UInt32) :
    (UInt64.ofNat (seconds.toNat * 1000)).toNat = seconds.toNat * 1000 := by
  have hsize : seconds.toNat < 2 ^ 32 := seconds.toNat_lt
  have hfits : seconds.toNat * 1000 < 2 ^ 64 := by omega
  exact UInt64.toNat_ofNat_of_lt' hfits

theorem lastExpiry_concat (gap : List Record) (record : Record) :
    lastExpiry (gap ++ [record]) = record.expiry?.getD (lastExpiry gap) := by
  unfold lastExpiry
  rw [List.filterMap_append]
  cases hexpiry : record.expiry? with
  | none => simp [hexpiry]
  | some ms => simp [hexpiry]

/-- Reading describes the records, when some of them without a key have gone by already. -/
theorem describes_entriesFrom {gap : List Record} (hgap : ∀ record ∈ gap, record.isKey = false)
    {deadline : Deadline} (hdeadline : deadline.ms.toNat = lastExpiry gap)
    (records : List Record) : Describes (gap ++ records) (entriesFrom deadline records) := by
  induction records generalizing gap deadline with
  | nil =>
      rw [List.append_nil]
      exact .rest hgap
  | cons record records ih =>
      -- A record that is no key joins those that have gone by.
      have hjoin : record.isKey = false → ∀ other ∈ gap ++ [record], other.isKey = false := by
        intro hrecord other hother
        rcases List.mem_append.mp hother with hbefore | hlast
        · exact hgap other hbefore
        · rw [List.mem_singleton.mp hlast]
          exact hrecord
      have hlast := lastExpiry_concat gap record
      rw [← List.singleton_append, ← List.append_assoc]
      cases record with
      | entry key value =>
          rw [List.append_assoc, List.singleton_append]
          exact .key hgap hdeadline (ih (List.forall_mem_nil _) rfl)
      | expirySeconds seconds =>
          refine ih (hjoin rfl) ?_
          rw [hlast, toNat_ofSeconds]
          rfl
      | expiryMillis ms =>
          refine ih (hjoin rfl) ?_
          rw [hlast]
          rfl
      | auxiliary name value => exact ih (hjoin rfl) (hdeadline.trans hlast.symm)
      | selectDatabase number => exact ih (hjoin rfl) (hdeadline.trans hlast.symm)
      | resizeDatabase keys expiring => exact ih (hjoin rfl) (hdeadline.trans hlast.symm)

/-- Records without a key leave a deadline for the next one. -/
theorem entriesFrom_gap {gap : List Record} (hgap : ∀ record ∈ gap, record.isKey = false)
    (deadline : Deadline) : ∃ last : Deadline,
      last.ms.toNat = (gap.filterMap Record.expiry?).getLast?.getD deadline.ms.toNat ∧
        ∀ records, entriesFrom deadline (gap ++ records) = entriesFrom last records := by
  induction gap generalizing deadline with
  | nil => exact ⟨deadline, rfl, fun _ => rfl⟩
  | cons record gap ih =>
      rw [List.forall_mem_cons] at hgap
      cases record with
      | entry key value => simp [Record.isKey] at hgap
      | expirySeconds seconds =>
          rcases ih hgap.2 ⟨UInt64.ofNat (seconds.toNat * 1000)⟩ with ⟨last, hlast, hrest⟩
          have hexpiry : (Record.expirySeconds seconds).expiry? = some (seconds.toNat * 1000) := rfl
          refine ⟨last, ?_, hrest⟩
          rw [hlast, toNat_ofSeconds, List.filterMap_cons_some hexpiry, List.getLast?_cons]
          rfl
      | expiryMillis ms =>
          rcases ih hgap.2 ⟨ms⟩ with ⟨last, hlast, hrest⟩
          have hexpiry : (Record.expiryMillis ms).expiry? = some ms.toNat := rfl
          refine ⟨last, ?_, hrest⟩
          rw [hlast, List.filterMap_cons_some hexpiry, List.getLast?_cons]
          rfl
      | auxiliary name value => exact ih hgap.2 deadline
      | selectDatabase number => exact ih hgap.2 deadline
      | resizeDatabase keys expiring => exact ih hgap.2 deadline

/-- The keys that are read are those that the records describe. -/
theorem entriesOf_eq_iff {records : List Record} {entries : List Entry} :
    entriesOf records = entries ↔ Describes records entries := by
  constructor
  · rintro rfl
    exact describes_entriesFrom (List.forall_mem_nil _) rfl records
  · intro h
    induction h with
    | rest hgap =>
        rcases entriesFrom_gap hgap .never with ⟨last, -, hrest⟩
        have hnil := hrest []
        rw [List.append_nil] at hnil
        exact hnil
    | @key gap hgap key value deadline hdeadline records entries hrest ih =>
        rcases entriesFrom_gap hgap .never with ⟨last, hlast, hkey⟩
        obtain rfl : last = deadline := by
          rcases last with ⟨last⟩
          rcases deadline with ⟨deadline⟩
          have hsame : last.toNat = deadline.toNat := hlast.trans hdeadline.symm
          rw [UInt64.toNat_inj.mp hsame]
        rw [← ih]
        exact hkey _

end Keys

section Records

theorem form_ne_nil {record : Record} {form : Bytes} (h : form ∈ record.forms) : form ≠ [] := by
  rintro rfl
  -- Without a byte nothing is read.
  have hread : readRecord ([] ++ []) = .ok (some record, []) := readRecord_of_form h []
  simp [readRecord, readByte, bind, Except.bind] at hread

/-- There is one way only to take an input apart. -/
theorem Spells.unique {records records' : List Record} {body body' : Bytes}
    (h : Spells records body) (h' : Spells records' body') {rest rest' : Bytes}
    (hsame : body ++ endMark :: rest = body' ++ endMark :: rest') :
    records = records' ∧ body = body' ∧ rest = rest' := by
  have hend : [endMark] ∈ Record.formsOrEnd none := List.mem_singleton.mpr rfl
  induction h generalizing records' body' with
  | nil =>
      cases h' with
      | nil => exact ⟨rfl, rfl, (List.cons.inj hsame).2⟩
      | @cons record form hform records body hrest =>
          have hfirst : form ∈ Record.formsOrEnd (some record) := hform
          rw [List.append_assoc] at hsame
          exact nomatch (readRecord_decodes.unique hend hfirst hsame).1
  | @cons record form hform records body hrest ih =>
      have hfirst : form ∈ Record.formsOrEnd (some record) := hform
      cases h' with
      | nil =>
          rw [List.append_assoc] at hsame
          exact nomatch (readRecord_decodes.unique hfirst hend hsame).1
      | @cons record' form' hform' records' body' hrest' =>
          have hfirst' : form' ∈ Record.formsOrEnd (some record') := hform'
          rw [List.append_assoc, List.append_assoc] at hsame
          obtain ⟨hrecord, rfl, hbehind⟩ := readRecord_decodes.unique hfirst hfirst' hsame
          obtain ⟨rfl, rfl, rfl⟩ := ih hrest' hbehind
          exact ⟨by rw [Option.some.inj hrecord], rfl, rfl⟩

/-- Records are read up to the end mark, in any of their forms. -/
theorem readRecords_eq_ok_iff {count : Nat} {input : Bytes} (hcount : input.length < count)
    {records : List Record} :
    readRecords count input = .ok records ↔
      ∃ body rest, Spells records body ∧ input = body ++ endMark :: rest := by
  induction count generalizing input records with
  | zero => omega
  | succ count ih =>
      simp only [readRecords]
      constructor
      · intro h
        split at h
        · simp at h
        · rename_i rest hread
          obtain ⟨form, hform, rfl⟩ := readRecord_decodes.accepts.mp hread
          obtain rfl := List.mem_singleton.mp hform
          obtain rfl := Except.ok.inj h
          exact ⟨[], rest, .nil, rfl⟩
        · rename_i record rest hread
          obtain ⟨form, hform, rfl⟩ := readRecord_decodes.accepts.mp hread
          have hlength := List.length_pos_iff.mpr (form_ne_nil hform)
          rw [List.length_append] at hcount
          split at h
          · simp at h
          · rename_i later hlater
            obtain ⟨body, behind, hspells, rfl⟩ := (ih (by omega)).mp hlater
            obtain rfl := Except.ok.inj h
            exact ⟨form ++ body, behind, .cons hform hspells, (List.append_assoc _ _ _).symm⟩
      · rintro ⟨body, rest, hspells, rfl⟩
        cases hspells with
        | nil =>
            have hread : readRecord ([endMark] ++ rest) = .ok (none, rest) :=
              readRecord_of_form (List.mem_singleton.mpr rfl) rest
            rw [List.nil_append, ← List.singleton_append, hread]
        | @cons record form hform records body hrest =>
            have hread : readRecord (form ++ (body ++ endMark :: rest)) =
                .ok (some record, body ++ endMark :: rest) := readRecord_of_form hform _
            have hlength := List.length_pos_iff.mpr (form_ne_nil hform)
            rw [List.append_assoc, List.length_append] at hcount
            rw [List.append_assoc, hread]
            simp only [(ih (by omega)).mpr ⟨body, rest, hrest, rfl⟩]

theorem readRecords_damage (count : Nat) : ∀ input, DamageOnly (readRecords count input) := by
  induction count with
  | zero => exact fun _ => .damaged _
  | succ count ih =>
      intro input
      have hrecord := readRecord_damage input
      unfold readRecords
      rcases hread : readRecord input with e | ⟨_ | record, rest⟩
      · rw [hread] at hrecord
        obtain ⟨detail, rfl⟩ := hrecord e rfl
        exact .damaged _
      · exact .ok _
      · have hrest := ih rest
        simp only
        split
        · rename_i hlater
          obtain ⟨detail, rfl⟩ := hrest _ hlater
          exact .damaged _
        · exact .ok _

theorem readHeader_eq_ok_iff {input body : Bytes} :
    readHeader input = .ok body ↔
      ∃ digits, digits.length = 4 ∧ digits.all isDigitByte = true ∧
        input = magic ++ digits ++ body := by
  have hmagic : magic.length = 5 := by decide
  unfold readHeader
  rw [bind_eq_ok_iff]
  constructor
  · rintro ⟨⟨header, rest⟩, hheader, hbody⟩
    obtain ⟨hlength, rfl⟩ := readBytes_eq_ok_iff.mp hheader
    simp only at hbody
    by_cases hword : header.take 5 = magic
    · rw [if_neg (not_not_intro hword)] at hbody
      by_cases hdigits : (header.drop 5).all isDigitByte = true
      · rw [hdigits] at hbody
        obtain rfl : rest = body := Except.ok.inj hbody
        refine ⟨header.drop 5, by rw [List.length_drop, hlength], hdigits, ?_⟩
        rw [← hword, List.take_append_drop]
      · rw [Bool.not_eq_true] at hdigits
        rw [hdigits] at hbody
        exact nomatch hbody
    · rw [if_pos hword] at hbody
      exact nomatch hbody
  · rintro ⟨digits, hlength, hdigits, rfl⟩
    have hheader : readBytes 9 (magic ++ digits ++ body) = .ok (magic ++ digits, body) :=
      readBytes_eq_ok_iff.mpr ⟨by rw [List.length_append, hmagic, hlength], rfl⟩
    refine ⟨_, hheader, ?_⟩
    simp only
    rw [List.take_left' hmagic, List.drop_left' hmagic, hdigits]
    rfl

theorem readHeader_damage (input : Bytes) : DamageOnly (readHeader input) := by
  refine .bind (readBytes_damage 9 input) fun ⟨header, rest⟩ => ?_
  simp only
  split
  · exact .damaged _
  · split
    · exact .damaged _
    · exact .ok _

/-- The records of a file are read, whatever stands behind it. -/
theorem records_eq_ok_iff {bytes : Bytes} {records : List Record} :
    Snapshot.records bytes = .ok records ↔
      ∃ file rest, Written records file ∧ bytes = file ++ rest := by
  unfold Snapshot.records
  rw [bind_eq_ok_iff]
  constructor
  · rintro ⟨input, hheader, hrecords⟩
    obtain ⟨digits, hlength, hdigits, rfl⟩ := readHeader_eq_ok_iff.mp hheader
    obtain ⟨body, rest, hspells, rfl⟩ := (readRecords_eq_ok_iff (Nat.lt_succ_self _)).mp hrecords
    refine ⟨_, rest, ⟨digits, body, hlength, hdigits, hspells, rfl⟩, ?_⟩
    simp only [List.append_assoc, List.singleton_append]
  · rintro ⟨file, rest, ⟨digits, body, hlength, hdigits, hspells, rfl⟩, rfl⟩
    refine ⟨body ++ endMark :: rest, readHeader_eq_ok_iff.mpr ⟨digits, hlength, hdigits, ?_⟩,
      (readRecords_eq_ok_iff (Nat.lt_succ_self _)).mpr ⟨body, rest, hspells, rfl⟩⟩
    simp only [List.append_assoc, List.singleton_append]

theorem records_damage (bytes : Bytes) : DamageOnly (Snapshot.records bytes) :=
  .bind (readHeader_damage bytes) fun body => readRecords_damage _ body

/-- No file begins with another one. -/
theorem Written.unique {records records' : List Record} {file file' : Bytes}
    (h : Written records file) (h' : Written records' file') {rest rest' : Bytes}
    (hsame : file ++ rest = file' ++ rest') :
    records = records' ∧ file = file' ∧ rest = rest' := by
  rcases h with ⟨digits, body, hlength, -, hspells, rfl⟩
  rcases h' with ⟨digits', body', hlength', -, hspells', rfl⟩
  simp only [List.append_assoc, List.singleton_append] at hsame
  -- The headers have one length.
  obtain ⟨rfl, hbodies⟩ := List.append_inj (List.append_cancel_left hsame)
    (hlength.trans hlength'.symm)
  obtain ⟨rfl, rfl, rfl⟩ := hspells.unique hspells' hbodies
  exact ⟨rfl, rfl, rfl⟩

end Records

theorem entries_eq_ok_iff {bytes : Bytes} {entries : List Entry} :
    Snapshot.entries bytes = .ok entries ↔
      ∃ records, Snapshot.records bytes = .ok records ∧ entriesOf records = entries := by
  unfold Snapshot.entries
  cases Snapshot.records bytes with
  | error e => simp [Except.map]
  | ok records => simp [Except.map]

-- What does not begin with a file is reported as damaged.
theorem entries_of_not_written {bytes : Bytes}
    (h : ¬∃ records file rest, Written records file ∧ bytes = file ++ rest) :
    ∃ detail, Snapshot.entries bytes = .error (.snapshot detail) := by
  unfold Snapshot.entries
  cases hrecords : Snapshot.records bytes with
  | error e =>
      obtain ⟨detail, rfl⟩ := records_damage bytes e hrecords
      exact ⟨detail, rfl⟩
  | ok records => exact absurd ⟨records, records_eq_ok_iff.mp hrecords⟩ h

/-- Reading accepts exactly the inputs that begin with a snapshot file, whatever stands behind it,
    and answers the keys that its records describe. Anything else is reported as a damaged snapshot,
    in particular a file that is cut off anywhere before its end. -/
theorem decodes_grammar (bytes : Bytes) :
    (∀ entries, Snapshot.entries bytes = .ok entries ↔
      ∃ records file rest, Written records file ∧ bytes = file ++ rest ∧
        Describes records entries) ∧
    ((¬∃ records file rest, Written records file ∧ bytes = file ++ rest) →
      ∃ detail, Snapshot.entries bytes = .error (.snapshot detail)) ∧
    ∀ records file, Written records file → ∀ count < file.length,
      ∃ detail, Snapshot.entries (file.take count) = .error (.snapshot detail) := by
  have haccepts : ∀ entries, Snapshot.entries bytes = .ok entries ↔
      ∃ records file rest, Written records file ∧ bytes = file ++ rest ∧
        Describes records entries := by
    intro entries
    rw [entries_eq_ok_iff]
    constructor
    · rintro ⟨records, hrecords, hentries⟩
      obtain ⟨file, rest, hwritten, hbytes⟩ := records_eq_ok_iff.mp hrecords
      exact ⟨records, file, rest, hwritten, hbytes, entriesOf_eq_iff.mp hentries⟩
    · rintro ⟨records, file, rest, hwritten, hbytes, hdescribes⟩
      exact ⟨records, records_eq_ok_iff.mpr ⟨file, rest, hwritten, hbytes⟩,
        entriesOf_eq_iff.mpr hdescribes⟩
  refine ⟨haccepts, entries_of_not_written, fun records file hwritten count hcount => ?_⟩
  apply entries_of_not_written
  rintro ⟨records', file', rest, hwritten', hcut⟩
  -- What is cut off would stand behind the other file, which is all of this one.
  have hsame : file ++ [] = file' ++ (rest ++ file.drop count) := by
    rw [List.append_nil, ← List.append_assoc, ← hcut, List.take_append_drop]
  obtain ⟨-, rfl, -⟩ := hwritten.unique hwritten' hsame
  have hlength := congrArg List.length hcut
  rw [List.length_take, List.length_append] at hlength
  omega

/-- A key with a deadline in seconds, whose length takes a byte more than it needs, and with a small
    integer for its value. -/
theorem decodes_grammar_dated :
    let file := magic ++ [48, 48, 49, 49] ++ [253, 1, 0, 0, 0, 0, 64, 1, 107, 192, 5] ++ [endMark]
    Snapshot.entries (file ++ [7]) = .ok [⟨"k", "5", ⟨1000⟩⟩] ∧
      ∃ detail, Snapshot.entries (file.take 19) = .error (.snapshot detail) := by
  intro file
  have hspells : Spells [.expirySeconds 1, .entry (.bytes [107]) (.int8 5)]
      ([253, 1, 0, 0, 0] ++ ([0, 64, 1, 107, 192, 5] ++ [])) :=
    .cons (by decide) (.cons (by decide) .nil)
  have hwritten : Written _ file := ⟨[48, 48, 49, 49], _, rfl, by decide, hspells, rfl⟩
  have hdescribes : Describes ([.expirySeconds 1] ++ .entry (.bytes [107]) (.int8 5) :: [])
      [⟨"k", "5", ⟨1000⟩⟩] :=
    .key (by decide) rfl (.rest (List.forall_mem_nil _))
  obtain ⟨haccepts, -, hcut⟩ := decodes_grammar (file ++ [7])
  exact ⟨(haccepts _).mpr ⟨_, file, [7], hwritten, rfl, hdescribes⟩,
    hcut _ file hwritten 19 (by decide)⟩

end Snapshot

end KeyValue
