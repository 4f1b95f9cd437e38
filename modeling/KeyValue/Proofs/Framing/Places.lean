import KeyValue.Proofs.Bounds.Checked
import KeyValue.Proofs.Framing.Buffering

/-!
# Parsing by place

Lines, values and arrays, read in a buffer that is never cut: what is read is named by the places
where it starts and ends.

The parsers of `Wire` take what is in front of them and drop what they have read, so they never name
a place. A parser that stays on one buffer has to add up places and to ask for slices, each of which
may lead beyond the buffer. The parsers here do that with checked operations. As long as they start
within the buffer they run into no fault, and read what the parsers of `Wire` read from there on.

## Main definitions

* `Wire.Places.line`, `Wire.Places.boundedLine`: A line that starts at a place.
* `Wire.Places.value`: A value that starts at a place.
* `Wire.Places.array`: An array that is buffered whole.

## Theorems

* `line_eq`, `boundedLine_eq`, `value_eq`, `array_eq`: They read what the parsers of `Wire` read.
* `wholeArray_size`: An array that is buffered whole has a name, and no more elements than allowed.
-/

namespace KeyValue

namespace Wire

/-- An array of too many elements is refused with its header. -/
theorem arrayHeader_le {line : Bytes} {declared : Nat} (h : arrayHeader line = .ok declared) :
    declared ≤ maxArrayLength := by
  unfold arrayHeader at h
  cases hlength : headerLength '*' line with
  | error e => simp only [hlength, reduceCtorEq] at h
  | ok length =>
      simp only [hlength] at h
      by_cases hempty : length = 0
      · simp only [hempty, if_true, reduceCtorEq] at h
      · by_cases hlong : length > maxArrayLength
        · simp only [if_neg hempty, if_pos hlong, reduceCtorEq] at h
        · simp only [if_neg hempty, if_neg hlong, Except.ok.injEq] at h
          omega

/-- An element of too many bytes is refused with its header. -/
theorem bulkHeader_le {line : Bytes} {length : Nat} (h : bulkHeader line = .ok length) :
    length ≤ maxBulkLength := by
  unfold bulkHeader at h
  cases hlength : headerLength '$' line with
  | error e => simp only [hlength, reduceCtorEq] at h
  | ok announced =>
      by_cases hlong : announced > maxBulkLength
      · simp only [hlength, if_pos hlong, reduceCtorEq] at h
      · simp only [hlength, if_neg hlong, Except.ok.injEq] at h
        omega

namespace Places

/-- The line that starts at a place: the place where its content ends, and the place behind it. -/
def line (buffer : Bytes) (start : Nat) : Checked (Option (Nat × Nat)) :=
  if buffer.length < start then .ok none
  else
    match (buffer.drop start).findIdx? (· == 10) with
    | none => .ok none
    | some offset =>
      let feed := start + offset
      if start < feed then do
        let last ← Checked.difference feed 1
        let byte ← Checked.item buffer last
        return some (if byte = 13 then last else feed, feed + 1)
      else .ok (some (feed, feed + 1))

/-- The line that starts at a place, which must not grow too long without its line feed. -/
def boundedLine (buffer : Bytes) (start : Nat) :
    Checked (Except Error (Option (Nat × Nat))) := do
  match ← line buffer start with
  | some found => return .ok (some found)
  | none =>
    let waiting ← Checked.difference buffer.length start
    return if waiting > maxLineLength then .error (.protocol "line exceeds maximum length")
      else .ok none

/-- The value of `length` bytes that starts at a place, or `none` while it is not complete. -/
def value (buffer : Bytes) (start length : Nat) : Checked (Except Error (Option String)) :=
  let stop := start + length
  if buffer.length < stop + 2 then .ok (.ok none)
  else do
    let ending ← Checked.slice buffer stop (stop + 2)
    if ending = crlf then
      let content ← Checked.slice buffer start stop
      return .ok (some (Text.ofBytes content))
    else return .error (.protocol s!"bulk string longer than declared length {length}")

/-- An element goes to the name, and once there is one to the arguments. -/
def collect (name : Option String) (args : List String) (value : String) :
    Option String × List String :=
  match name with
  | none => (some value, args)
  | some _ => (name, args ++ [value])

/-- Elements that are buffered whole from a place on, added to those there are: the name, the
    arguments and the place behind them, or `none` if bytes are missing. -/
def elements (buffer : Bytes) : Nat → Nat → Option String → List String →
    Checked (Except Error (Option (Option String × List String × Nat)))
  | 0, cursor, name, args => .ok (.ok (some (name, args, cursor)))
  | count + 1, cursor, name, args => do
    match ← line buffer cursor with
    | none => return .ok none
    | some (stop, next) =>
      let header ← Checked.slice buffer cursor stop
      match bulkHeader header with
      | .error e => return .error e
      | .ok length =>
        match ← value buffer next length with
        | .error e => return .error e
        | .ok none => return .ok none
        | .ok (some found) =>
          let (name, args) := collect name args found
          elements buffer count (next + length + 2) name args

/-- An array that is buffered whole: its name, its arguments and the place behind it, or `none` if
    bytes are missing. -/
def array (buffer : Bytes) : Checked (Except Error (Option (String × List String × Nat))) := do
  match ← line buffer 0 with
  | none => return .ok none
  | some (stop, next) =>
    let header ← Checked.front buffer stop
    match arrayHeader header with
    | .error e => return .error e
    | .ok declared =>
      match ← elements buffer declared next none [] with
      | .error e => return .error e
      | .ok none => return .ok none
      | .ok (some (some name, args, cursor)) => return .ok (some (name, args, cursor))
      | .ok (some (none, _, _)) => return .error (.protocol "empty command array")

variable {buffer : Bytes} {start : Nat}

/-- A line in front of the bytes from a place on, by its places. -/
def ends (start : Nat) (line : BufferedLine) : Nat × Nat :=
  (start + line.content.length, start + line.size)

-- A line feed is found where the bytes in front of it end.
theorem findIdx?_line {content rest : Bytes} (h : 10 ∉ content) :
    (content ++ 10 :: rest).findIdx? (· == 10) = some content.length := by
  rw [List.findIdx?_append, List.findIdx?_eq_none_iff.mpr]
  · simp [List.findIdx?_cons]
  · intro byte hbyte
    have : byte ≠ 10 := fun hc => h (hc ▸ hbyte)
    simpa using this

theorem findIdx?_of_notMem {bytes : Bytes} (h : 10 ∉ bytes) :
    bytes.findIdx? (· == 10) = none := by
  rw [List.findIdx?_eq_none_iff]
  intro byte hbyte
  have : byte ≠ 10 := fun hc => h (hc ▸ hbyte)
  simpa using this

/-- A line is found by its places, and never beyond the buffer. -/
theorem line_eq (hstart : start ≤ buffer.length) :
    line buffer start = .ok ((findLine (buffer.drop start)).map (ends start)) := by
  unfold line
  rw [if_neg (by omega)]
  cases hfind : findLine (buffer.drop start) with
  | none =>
      rw [findIdx?_of_notMem ((findLine_eq_none_iff _).mp hfind)]
      rfl
  | some found =>
      rw [findLine_eq_some_iff] at hfind
      rcases hfind with ⟨content, rest, hfirst, hsplit, rfl⟩
      rw [hsplit, findIdx?_line hfirst]
      rcases List.eq_nil_or_concat content with rfl | ⟨content, byte, rfl⟩
      · simp [ends, stripReturn]
      · -- The byte in front of the line feed is the last one of the content.
        have hbuffer : buffer = buffer.take start ++ ((content ++ [byte]) ++ 10 :: rest) := by
          rw [← List.concat_eq_append, ← hsplit, List.take_append_drop]
        have hitem : buffer[start + content.length]? = some byte := by
          rw [hbuffer, List.getElem?_append_right (by rw [List.length_take]; omega),
            List.length_take, Nat.min_eq_left hstart]
          simp
        simp only [List.concat_eq_append, List.length_append, List.length_singleton]
        rw [if_pos (by omega), Checked.difference_eq_ok (by omega), Checked.ok_bind,
          Nat.add_succ_sub_one, Nat.add_zero, Checked.item_eq_ok hitem]
        by_cases hreturn : byte = 13 <;> simp [ends, stripReturn, hreturn] <;> omega

/-- The content of a line is the slice between its places. -/
theorem slice_line {found : BufferedLine} (hstart : start ≤ buffer.length)
    (h : findLine (buffer.drop start) = some found) :
    Checked.slice buffer start (start + found.content.length) = .ok found.content := by
  have hsize := (findLine_size h).2
  rw [findLine_eq_some_iff] at h
  rcases h with ⟨content, rest, -, hsplit, rfl⟩
  have hstrip : stripReturn content <+: content := by
    unfold stripReturn
    split
    · exact List.dropLast_prefix content
    · exact List.prefix_rfl
  have hle := hstrip.length_le
  rw [List.length_drop] at hsize
  simp only at hsize
  rw [Checked.slice_eq_ok (by omega) (by simp only; omega), Nat.add_sub_cancel_left, hsplit]
  simp only [Except.ok.injEq]
  rw [List.take_append_of_le_length hle]
  exact (List.prefix_iff_eq_take.mp hstrip).symm

theorem front_line {found : BufferedLine} (h : findLine buffer = some found) :
    Checked.front buffer found.content.length = .ok found.content := by
  have hslice : Checked.slice buffer 0 (0 + found.content.length) = .ok found.content :=
    slice_line (Nat.zero_le _) h
  rwa [Nat.zero_add] at hslice

/-- A line that must not grow too long is refused as it would be from the place on. -/
theorem boundedLine_eq (hstart : start ≤ buffer.length) :
    boundedLine buffer start =
      .ok ((lineAt (buffer.drop start)).map (Option.map (ends start))) := by
  unfold boundedLine
  rw [line_eq hstart, Checked.ok_bind]
  unfold lineAt
  cases findLine (buffer.drop start) with
  | some found => rfl
  | none =>
      simp only [Option.map_none, Checked.difference_eq_ok hstart, Checked.ok_bind,
        Checked.pure_eq_ok, List.length_drop]
      split <;> rfl

/-- A value is read by its places as it is read from the place on. -/
theorem value_eq (buffer : Bytes) (start length : Nat) :
    value buffer start length = .ok (bulkValue length (buffer.drop start)) := by
  unfold value bulkValue
  simp only [List.drop_drop]
  by_cases hshort : buffer.length < start + length + 2
  · rw [if_pos hshort]
    have hfew : (buffer.drop (start + length)).length < 2 := by
      rw [List.length_drop]
      omega
    rcases hrest : buffer.drop (start + length) with _ | ⟨first, _ | ⟨second, rest⟩⟩
    · rfl
    · rfl
    · rw [hrest] at hfew
      simp only [List.length_cons] at hfew
      omega
  · rw [if_neg hshort, Checked.slice_eq_ok (by omega) (by omega), Checked.ok_bind,
      Checked.slice_eq_ok (by omega) (by omega), Nat.add_sub_cancel_left, Nat.add_sub_cancel_left]
    rcases hrest : buffer.drop (start + length) with _ | ⟨first, _ | ⟨second, rest⟩⟩
    · have := congrArg List.length hrest
      simp only [List.length_drop, List.length_nil] at this
      omega
    · have := congrArg List.length hrest
      simp only [List.length_drop, List.length_cons, List.length_nil] at this
      omega
    · simp only [List.take_succ_cons, List.take_zero, Checked.ok_bind, Checked.pure_eq_ok]
      by_cases hending : [first, second] = crlf <;> simp [hending]

/-- Elements go to the name and the arguments one after another. -/
def collectAll (name : Option String) (args : List String) : List String →
    Option String × List String
  | [] => (name, args)
  | value :: values =>
    let (name, args) := collect name args value
    collectAll name args values

/-- The first element is the name, and the others are the arguments. -/
theorem collectAll_cons (value : String) (values : List String) :
    collectAll none [] (value :: values) = (some value, values) := by
  -- Once there is a name, elements are added to the arguments.
  have hargs : ∀ (args : List String), collectAll (some value) args values =
      (some value, args ++ values) := by
    induction values with
    | nil => exact fun args => by rw [List.append_nil]; rfl
    | cons first rest ih =>
        intro args
        rw [collectAll, collect]
        simp only [ih, List.append_assoc, List.singleton_append]
  exact hargs []

-- As many elements are read as are asked for, and no more bytes than there are.
theorem wholeElements_size {count : Nat} {bytes : Bytes} {values : List String} {size : Nat}
    (h : wholeElements count bytes = .ok (some (values, size))) :
    values.length = count ∧ size ≤ bytes.length := by
  induction count generalizing bytes values size with
  | zero =>
      simp only [wholeElements, Except.ok.injEq, Option.some.injEq, Prod.mk.injEq] at h
      rw [← h.1, ← h.2]
      exact ⟨rfl, Nat.zero_le _⟩
  | succ count ih =>
      unfold wholeElements at h
      cases hfind : findLine bytes with
      | none => simp [hfind] at h
      | some header =>
          cases hheader : bulkHeader header.content with
          | error e => simp [hfind, hheader] at h
          | ok length =>
              rcases hvalue : bulkValue length (bytes.drop header.size) with e | _ | found
              · simp [hfind, hheader, hvalue] at h
              · simp [hfind, hheader, hvalue] at h
              · have hheld := bulkValue_eq_some hvalue
                have hline := (findLine_size hfind).2
                simp only [hfind, hheader, hvalue, List.drop_drop] at h
                rw [List.length_drop] at hheld
                split at h
                · simp at h
                · simp at h
                · rename_i values' size' hrest
                  simp only [Except.ok.injEq, Option.some.injEq, Prod.mk.injEq] at h
                  rcases ih hrest with ⟨hvalues, hsize⟩
                  rw [List.length_drop] at hsize
                  rw [← h.1, ← h.2, List.length_cons, hvalues]
                  exact ⟨rfl, by omega⟩

/-- An array that is buffered whole has a name, and no more elements than an array may have. -/
theorem wholeArray_size {bytes : Bytes} {values : List String} {size : Nat}
    (h : wholeArray bytes = .ok (some (values, size))) :
    size ≤ bytes.length ∧
      ∃ name args, values = name :: args ∧ args.length + 1 ≤ maxArrayLength := by
  unfold wholeArray at h
  cases hfind : findLine bytes with
  | none => simp [hfind] at h
  | some header =>
      have hline := (findLine_size hfind).2
      cases hheader : arrayHeader header.content with
      | error e => simp [hfind, hheader] at h
      | ok declared =>
          rcases helements : wholeElements declared (bytes.drop header.size) with
            e | _ | ⟨values', size'⟩
          · simp [hfind, hheader, helements] at h
          · simp [hfind, hheader, helements] at h
          · simp only [hfind, hheader, helements, Except.ok.injEq, Option.some.injEq,
              Prod.mk.injEq] at h
            rcases h with ⟨rfl, rfl⟩
            rcases wholeElements_size helements with ⟨hcount, hsize⟩
            rw [List.length_drop] at hsize
            have hpos := Framer.arrayHeader_pos hheader
            have hle := arrayHeader_le hheader
            refine ⟨by omega, ?_⟩
            cases values' with
            | nil =>
                rw [List.length_nil] at hcount
                omega
            | cons name args =>
                rw [List.length_cons] at hcount
                exact ⟨name, args, rfl, by omega⟩

/-- Elements that are buffered whole are read by their places as they are read from the first place
    on, and added to those there are. -/
theorem elements_eq (count : Nat) :
    ∀ (cursor : Nat) (name : Option String) (args : List String), cursor ≤ buffer.length →
      elements buffer count cursor name args =
        .ok ((wholeElements count (buffer.drop cursor)).map (Option.map fun (values, size) =>
          ((collectAll name args values).1, (collectAll name args values).2, cursor + size))) := by
  induction count with
  | zero => exact fun cursor name args _ => rfl
  | succ count ih =>
      intro cursor name args hcursor
      unfold elements wholeElements
      rw [line_eq hcursor, Checked.ok_bind]
      cases hfind : findLine (buffer.drop cursor) with
      | none => rfl
      | some header =>
          have hsize := (findLine_size hfind).2
          rw [List.length_drop] at hsize
          simp only [Option.map_some, ends, slice_line hcursor hfind, Checked.ok_bind]
          cases bulkHeader header.content with
          | error e => rfl
          | ok length =>
              simp only [value_eq, Checked.ok_bind, List.drop_drop]
              rcases hvalue : bulkValue length (buffer.drop (cursor + header.size)) with
                e | _ | found
              · rfl
              · rfl
              · have hheld := bulkValue_eq_some hvalue
                have hending : crlf.length = 2 := rfl
                rw [List.length_drop] at hheld
                simp only [hending] at hheld ⊢
                rw [ih _ _ _ (by omega), Nat.add_assoc (cursor + header.size)]
                rcases wholeElements count _ with e | _ | ⟨values, size⟩
                · rfl
                · rfl
                · simp only [Except.map, Option.map_some, collectAll, Nat.add_assoc]

/-- An array that is buffered whole is read by its places as it is read in front. -/
theorem array_eq (buffer : Bytes) :
    array buffer = .ok ((wholeArray buffer).map (Option.map fun (values, size) =>
      (values.headD "", values.tail, size))) := by
  unfold array wholeArray
  rw [line_eq (Nat.zero_le _), List.drop_zero, Checked.ok_bind]
  cases hfind : findLine buffer with
  | none => rfl
  | some header =>
      have hsize := (findLine_size hfind).2
      simp only [Option.map_some, ends, Nat.zero_add, front_line hfind, Checked.ok_bind]
      cases hheader : arrayHeader header.content with
      | error e => rfl
      | ok declared =>
          simp only [elements_eq declared header.size none [] hsize, Checked.ok_bind]
          rcases helements : wholeElements declared (buffer.drop header.size) with
            e | _ | ⟨values, size⟩
          · rfl
          · rfl
          · -- An array that is accepted has an element, and the first one is its name.
            have hcount := (wholeElements_size helements).1
            cases values with
            | nil =>
                have := Framer.arrayHeader_pos hheader
                rw [← hcount, List.length_nil] at this
                omega
            | cons value values => simp [Except.map, collectAll_cons]

end Places

end Wire

end KeyValue
