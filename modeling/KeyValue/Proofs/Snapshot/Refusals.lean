import KeyValue.Proofs.Text.OneLine
import KeyValue.Snapshot.Source

/-!
# Damaged snapshots

A snapshot that cannot be read is reported on one line, whatever its bytes are.

The reader of snapshots shows bytes in digits and lengths as numbers, and quotes no text of the
file. Each of its steps fails in this way only, and so does the whole.

## Theorems

* `Snapshot.readRecord_lines`, `Snapshot.entries_lines`: Reading a snapshot.
* `Snapshot.File.entries_lines`: Reading the snapshot file.
-/

namespace KeyValue

open Text

namespace Snapshot

/-- Reading a snapshot fails with fixed words and numbers. -/
theorem readBytes_lines (count : Nat) (bytes : Bytes) : LineFailures (readBytes count bytes) := by
  unfold readBytes
  split
  · exact .ok _
  · exact .error (by decide)

theorem readByte_lines (bytes : Bytes) : LineFailures (readByte bytes) := by
  cases bytes with
  | nil => exact .error (by decide)
  | cons byte rest => exact .ok _

-- A byte that is none of those expected is shown in digits.
theorem unexpected_oneLine (before : String) (h : OneLine before) (byte : UInt8) :
    (Error.snapshot (before ++ Hex.ofByte byte)).OneLine :=
  Error.snapshot_oneLine (oneLine_append.mpr ⟨h, oneLine_ofByte byte⟩)

/-- An announcement is refused for a byte that is none, which is shown in digits. -/
theorem readAnnouncement_lines (bytes : Bytes) : LineFailures (readAnnouncement bytes) := by
  refine .bind (readByte_lines bytes) fun ⟨first, rest⟩ => ?_
  simp only
  split
  · exact .ok _
  · exact .bind (readByte_lines rest) fun _ => .ok _
  · split
    · exact .bind (readBytes_lines 4 rest) fun _ => .ok _
    · exact .bind (readBytes_lines 8 rest) fun _ => .ok _
    · exact .error (unexpected_oneLine "invalid length prefix 0x" (by decide) first)
  · split
    · exact .ok _
    · exact .ok _
    · exact .ok _
    · exact .ok _
    · exact .error (unexpected_oneLine "invalid string encoding 0x" (by decide) first)

theorem readLength_lines (bytes : Bytes) : LineFailures (readLength bytes) := by
  refine .bind (readAnnouncement_lines bytes) fun announced => ?_
  split
  · exact .ok _
  · exact .error (by decide)

/-- A compressed text is refused with fixed words. -/
theorem readText_lines (bytes : Bytes) : LineFailures (readText bytes) := by
  refine .bind (readAnnouncement_lines bytes) fun announced => ?_
  split
  · split
    · exact .ok _
    · refine .error (Error.snapshot_oneLine (oneLine_append.mpr ⟨?_, oneLine_repr _⟩))
      exact (oneLine_repr _).quote "string of " " bytes truncated after " (by decide) (by decide)
  · exact .bind (readBytes_lines 1 _) fun _ => .ok _
  · exact .bind (readBytes_lines 2 _) fun _ => .ok _
  · exact .bind (readBytes_lines 4 _) fun _ => .ok _
  · exact .error (by decide)

/-- A record is refused for its mark or for one of its parts. -/
theorem readRecord_lines (bytes : Bytes) : LineFailures (readRecord bytes) := by
  refine .bind (readByte_lines bytes) fun ⟨mark, rest⟩ => ?_
  simp only
  split
  · exact .bind (readText_lines rest) fun _ => .bind (readText_lines _) fun _ => .ok _
  · exact .bind (readLength_lines rest) fun _ => .ok _
  · exact .bind (readLength_lines rest) fun _ => .bind (readLength_lines _) fun _ => .ok _
  · exact .bind (readBytes_lines 4 rest) fun _ => .ok _
  · exact .bind (readBytes_lines 8 rest) fun _ => .ok _
  · exact .bind (readText_lines rest) fun _ => .bind (readText_lines _) fun _ => .ok _
  · exact .ok _
  · exact .error (unexpected_oneLine "unsupported value type 0x" (by decide) mark)

/-- The records of a file are refused for the first one that is damaged. -/
theorem readRecords_lines (count : Nat) : ∀ bytes, LineFailures (readRecords count bytes) := by
  induction count with
  | zero => exact fun _ => .error (by decide)
  | succ count ih =>
      intro bytes
      have hrecord := readRecord_lines bytes
      unfold readRecords
      rcases hread : readRecord bytes with e | ⟨_ | record, rest⟩
      · exact .error (hrecord e hread)
      · exact .ok _
      · have hrest := ih rest
        simp only
        split
        · exact .error (hrest _ (by assumption))
        · exact .ok _

theorem readHeader_lines (bytes : Bytes) : LineFailures (readHeader bytes) := by
  refine .bind (readBytes_lines 9 bytes) fun ⟨header, rest⟩ => ?_
  simp only
  split
  · exact .error (by decide)
  · split
    · exact .error (by decide)
    · exact .ok _

/-- A damaged snapshot is reported on one line. -/
theorem entries_lines (bytes : Bytes) : LineFailures (entries bytes) :=
  .map (.bind (readHeader_lines bytes) fun body => readRecords_lines _ body) _

/-- A file that is missing has no entries. A directory and a damaged file are refused in one
    line. -/
theorem File.entries_lines (file : File) : LineFailures file.entries := by
  cases file with
  | missing => exact .ok _
  | directory => exact .error (by decide)
  | regular content => exact Snapshot.entries_lines content

end Snapshot

end KeyValue
