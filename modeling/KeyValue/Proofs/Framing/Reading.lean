import KeyValue.Wire.Framer
import Mathlib.Data.List.TakeDrop
import Mathlib.Data.List.TakeWhile
import Mathlib.Tactic.ByContra

/-!
# Reading element by element

What a byte stream says, read one line or one value at a time and without a buffer.

The framer keeps a buffer and a cursor, and it has a short way for arrays that are buffered whole.
Here the reader is only a position: what it expects next, with the bytes that it has read of the
command in progress. `look` says what the bytes ahead of a position amount to, and `Reads` follows
it as far as one likes. Neither knows where one delivery of bytes ends and the next begins.

A look that gets anywhere does not depend on the bytes behind those it consumes. That is
`look_append`, and it is all that reading in pieces needs, with one exception: a line whose line
feed is missing is refused when it grows too long, although its line feed may be about to come.
`ShortLines` says that no such line is in the stream. It asks this only of the lines that the
reader looks for, because the bytes of a value may hold line feeds at any distance.

## Main definitions

* `Framer.Position`: What is expected next.
* `Framer.Outlook`: What the bytes ahead of a position amount to.
* `Framer.look`: The outlook from a position.
* `Framer.Reads`: Reading on from a position, with the events on the way.
* `Framer.Stops`: Reading gets no further.
* `Framer.ShortLines`: No line that is looked for is too long.

## Theorems

* `findLine_eq_none_iff`, `findLine_eq_some_iff`: A line is the bytes up to the first line feed.
* `look_append`: A look that gets anywhere does not depend on later bytes.
* `look_refused_append`: Neither does a refusal, if no line is too long.
* `look_consumes`: A look that gets anywhere consumes bytes, and keeps those of a command.
* `Reads.append`, `Reads.trans`: Reading on.
* `Reads.resume`: Two ways of reading the same bytes are one the beginning of the other.
* `exists_reads`: Reading comes to an end.
-/

namespace KeyValue

namespace Wire

/-- A line feed is looked for up to the first one, or to the end. -/
theorem span_line (content rest : Bytes) (h : 10 ∉ content) :
    (content ++ 10 :: rest).span (· != 10) = (content, 10 :: rest) := by
  have hall : ∀ byte ∈ content, (byte != 10) = true := by
    intro byte hbyte
    have : byte ≠ 10 := fun hc => h (hc ▸ hbyte)
    simpa using this
  rw [List.span_eq_takeWhile_dropWhile, List.takeWhile_append_of_pos hall,
    List.dropWhile_append_of_pos hall]
  simp

/-- Bytes without a line feed are gone through to the end. -/
theorem span_of_notMem (bytes : Bytes) (h : 10 ∉ bytes) : bytes.span (· != 10) = (bytes, []) := by
  have hall : ∀ byte ∈ bytes, (byte != 10) = true := by
    intro byte hbyte
    have : byte ≠ 10 := fun hc => h (hc ▸ hbyte)
    simpa using this
  rw [List.span_eq_takeWhile_dropWhile, List.takeWhile_eq_self_iff.mpr hall,
    List.dropWhile_eq_nil_iff.mpr hall]

/-- A line is what stands before the first line feed. -/
theorem findLine_line (content rest : Bytes) (h : 10 ∉ content) :
    findLine (content ++ 10 :: rest) = some ⟨stripReturn content, content.length + 1⟩ := by
  simp only [findLine, span_line content rest h]

/-- Bytes without a line feed hold no line, and the other way round. -/
theorem findLine_eq_none_iff (bytes : Bytes) : findLine bytes = none ↔ 10 ∉ bytes := by
  constructor
  · intro h hmem
    rcases List.eq_append_cons_of_mem hmem with ⟨content, rest, hsplit, hfirst⟩
    rw [hsplit, findLine_line content rest hfirst] at h
    simp only [reduceCtorEq] at h
  · intro hmem
    simp only [findLine, span_of_notMem bytes hmem]

/-- A line that is found ends at the first line feed. -/
theorem findLine_eq_some_iff (bytes : Bytes) (line : BufferedLine) :
    findLine bytes = some line ↔ ∃ content rest, 10 ∉ content ∧ bytes = content ++ 10 :: rest ∧
      line = ⟨stripReturn content, content.length + 1⟩ := by
  constructor
  · intro h
    have hmem : 10 ∈ bytes := by
      by_contra hc
      rw [(findLine_eq_none_iff bytes).mpr hc] at h
      simp only [reduceCtorEq] at h
    rcases List.eq_append_cons_of_mem hmem with ⟨content, rest, hsplit, hfirst⟩
    refine ⟨content, rest, hfirst, hsplit, ?_⟩
    rw [hsplit, findLine_line content rest hfirst, Option.some.injEq] at h
    exact h.symm
  · rintro ⟨content, rest, hfirst, rfl, rfl⟩
    exact findLine_line content rest hfirst

-- Later bytes do not change a line that is there.
theorem findLine_append {bytes : Bytes} {line : BufferedLine} (h : findLine bytes = some line)
    (more : Bytes) : findLine (bytes ++ more) = some line := by
  rw [findLine_eq_some_iff] at h ⊢
  rcases h with ⟨content, rest, hfirst, rfl, rfl⟩
  exact ⟨content, rest ++ more, hfirst, by simp, rfl⟩

/-- A line takes at least its line feed, and no more than there is. -/
theorem findLine_size {bytes : Bytes} {line : BufferedLine} (h : findLine bytes = some line) :
    0 < line.size ∧ line.size ≤ bytes.length := by
  rw [findLine_eq_some_iff] at h
  rcases h with ⟨content, rest, _, rfl, rfl⟩
  simp only [List.length_append, List.length_cons]
  omega

-- A line needs no more bytes than it takes.
theorem findLine_take {bytes : Bytes} {line : BufferedLine} (h : findLine bytes = some line) :
    findLine (bytes.take line.size) = some line := by
  rw [findLine_eq_some_iff] at h
  rcases h with ⟨content, rest, hfirst, rfl, rfl⟩
  have htake : (content ++ 10 :: rest).take (content.length + 1) = content ++ [10] := by
    rw [List.take_length_add_append]
    rfl
  rw [htake]
  exact findLine_line content [] hfirst

-- A line that is completed by later bytes is longer than what was there.
theorem findLine_append_of_none {bytes more : Bytes} {line : BufferedLine}
    (hnone : findLine bytes = none) (h : findLine (bytes ++ more) = some line) :
    bytes.length < line.size := by
  rw [findLine_eq_none_iff] at hnone
  rw [findLine_eq_some_iff] at h
  rcases h with ⟨content, rest, hfirst, hsplit, rfl⟩
  by_contra hshort
  -- The line feed would lie within the bytes that hold none.
  have hlt : content.length < bytes.length := by
    simp only [Nat.not_lt] at hshort
    omega
  have hget : (bytes ++ more)[content.length]? = some 10 := by
    rw [hsplit]
    simp
  rw [List.getElem?_append_left hlt] at hget
  exact hnone (List.mem_of_getElem? hget)

/-- A line that is there is taken, however long it is. -/
theorem lineAt_of_findLine {bytes : Bytes} {line : BufferedLine} (h : findLine bytes = some line) :
    lineAt bytes = .ok (some line) := by
  simp only [lineAt, h]

/-- Only a line that is there is taken. -/
theorem lineAt_eq_some {bytes : Bytes} {line : BufferedLine}
    (h : lineAt bytes = .ok (some line)) : findLine bytes = some line := by
  unfold lineAt at h
  cases hfind : findLine bytes with
  | some found =>
      rw [hfind] at h
      simpa only [Except.ok.injEq] using h
  | none =>
      rw [hfind] at h
      by_cases hlong : bytes.length > maxLineLength
      · simp only [if_pos hlong, reduceCtorEq] at h
      · simp only [if_neg hlong, Except.ok.injEq, reduceCtorEq] at h

-- The refusal of a line that grows too long.
theorem lineAt_eq_error {bytes : Bytes} {e : Error} (h : lineAt bytes = .error e) :
    findLine bytes = none ∧ maxLineLength < bytes.length ∧
      e = .protocol "line exceeds maximum length" := by
  unfold lineAt at h
  cases hfind : findLine bytes with
  | some found =>
      rw [hfind] at h
      simp only [reduceCtorEq] at h
  | none =>
      rw [hfind] at h
      by_cases hlong : bytes.length > maxLineLength
      · simp only [if_pos hlong, Except.error.injEq] at h
        exact ⟨rfl, hlong, h.symm⟩
      · simp only [if_neg hlong, reduceCtorEq] at h

-- A value that is there, or is seen not to end where it should, stays so.
theorem bulkValue_append {length : Nat} {bytes : Bytes} {result : Except Error (Option String)}
    (h : bulkValue length bytes = result) (hne : result ≠ .ok none) (more : Bytes) :
    bulkValue length (bytes ++ more) = result := by
  unfold bulkValue at h ⊢
  rcases hdrop : bytes.drop length with _ | ⟨first, _ | ⟨second, rest⟩⟩
  · rw [hdrop] at h
    exact absurd h.symm hne
  · rw [hdrop] at h
    exact absurd h.symm hne
  · -- Two bytes or more are there behind the value, so the value itself is there.
    have hlen : length ≤ bytes.length := by
      by_contra hc
      rw [List.drop_eq_nil_of_le (by omega)] at hdrop
      simp only [reduceCtorEq] at hdrop
    rw [hdrop] at h
    rw [List.drop_append_of_le_length hlen, List.take_append_of_le_length hlen, hdrop]
    simpa only [List.cons_append] using h

/-- A complete value has its line end behind it. -/
theorem bulkValue_eq_some {length : Nat} {bytes : Bytes} {value : String}
    (h : bulkValue length bytes = .ok (some value)) :
    length + crlf.length ≤ bytes.length := by
  unfold bulkValue at h
  rcases hdrop : bytes.drop length with _ | ⟨first, _ | ⟨second, rest⟩⟩
  · simp only [hdrop, Except.ok.injEq, reduceCtorEq] at h
  · simp only [hdrop, Except.ok.injEq, reduceCtorEq] at h
  · have hlen := congrArg List.length hdrop
    simp only [List.length_drop, List.length_cons] at hlen
    simp only [crlf, List.length_cons, List.length_nil]
    omega

-- A value needs no more bytes than its own and its line end.
theorem bulkValue_take {length : Nat} {bytes : Bytes} {value : String}
    (h : bulkValue length bytes = .ok (some value)) :
    bulkValue length (bytes.take (length + crlf.length)) = .ok (some value) := by
  have hlen := bulkValue_eq_some h
  -- With two bytes behind the value the answer is settled, and then later bytes do not change it.
  have hne : bulkValue length (bytes.take (length + crlf.length)) ≠ .ok none := by
    unfold bulkValue
    have hdrop : ((bytes.take (length + crlf.length)).drop length).length = 2 := by
      rw [List.length_drop, List.length_take, Nat.min_eq_left hlen]
      simp [crlf]
    rcases hrest : (bytes.take (length + crlf.length)).drop length with
      _ | ⟨first, _ | ⟨second, _ | ⟨third, rest⟩⟩⟩
    · simp [hrest] at hdrop
    · simp [hrest] at hdrop
    · simp only
      split <;> simp
    · simp [hrest] at hdrop
  have happend := bulkValue_append rfl hne (bytes.drop (length + crlf.length))
  rw [List.take_append_drop, h] at happend
  exact happend.symm

/-- A length that is not announced as it should be breaks the protocol. -/
theorem headerLength_isProtocol {mark : Char} {line : Bytes} {e : Error}
    (h : headerLength mark line = .error e) : e.isProtocol = true := by
  unfold headerLength at h
  split at h
  · rw [← Except.error.inj h]
    rfl
  · split at h
    · split at h
      · simp only [reduceCtorEq] at h
      · rw [← Except.error.inj h]
        rfl
    · rw [← Except.error.inj h]
      rfl

theorem arrayHeader_isProtocol {line : Bytes} {e : Error} (h : arrayHeader line = .error e) :
    e.isProtocol = true := by
  unfold arrayHeader at h
  split at h
  · rename_i e' hlength
    rw [← Except.error.inj h]
    exact headerLength_isProtocol hlength
  · split at h
    · rw [← Except.error.inj h]
      rfl
    · split at h
      · rw [← Except.error.inj h]
        rfl
      · simp only [reduceCtorEq] at h

theorem bulkHeader_isProtocol {line : Bytes} {e : Error} (h : bulkHeader line = .error e) :
    e.isProtocol = true := by
  unfold bulkHeader at h
  split at h
  · rename_i e' hlength
    rw [← Except.error.inj h]
    exact headerLength_isProtocol hlength
  · split at h
    · rw [← Except.error.inj h]
      rfl
    · simp only [reduceCtorEq] at h

/-- A value that does not end in a line end breaks the protocol. -/
theorem bulkValue_isProtocol {length : Nat} {bytes : Bytes} {e : Error}
    (h : bulkValue length bytes = .error e) : e.isProtocol = true := by
  unfold bulkValue at h
  split at h
  · split at h
    · simp only [reduceCtorEq] at h
    · rw [← Except.error.inj h]
      rfl
  · simp only [reduceCtorEq] at h

end Wire

namespace Framer

open Wire

/-- What is expected next in a byte stream. -/
inductive Position where
  /-- A command may begin. -/
  | start
  /-- The header of the next element comes next; `read` is what was read of the command. -/
  | header (read : Bytes) (declared : Nat) (elements : List String)
  /-- The bytes of the next element come next. -/
  | value (read : Bytes) (declared : Nat) (elements : List String) (length : Nat)
  deriving DecidableEq, Repr

namespace Position

/-- What was read of the command in progress. -/
def read : Position → Bytes
  | start => []
  | header read .. => read
  | value read .. => read

/-- Whether a line is looked for. -/
def seeksLine : Position → Bool
  | start | header .. => true
  | value .. => false

end Position

/-- What the bytes ahead of a position amount to. -/
inductive Outlook where
  /-- Too few bytes to get anywhere. -/
  | more
  /-- A part of a command was read, or a blank line. -/
  | moved (position : Position) (rest : Bytes)
  /-- A command was read to its end, whether its name is known or not. -/
  | found (event : Event) (rest : Bytes)
  /-- The bytes break the protocol. -/
  | refused (error : Error)

/-- The same outlook with more bytes to come. -/
def Outlook.extend (more : Bytes) : Outlook → Outlook
  | .more => .more
  | moved position rest => moved position (rest ++ more)
  | found event rest => found event (rest ++ more)
  | refused e => refused e

/-- The event that a complete command is. -/
def eventOf (name : String) (args : List String) (raw : Bytes) : Event :=
  match CommandName.ofText? name with
  | some known => .ok ⟨known, args, raw⟩
  | none => .error (.unknownCommand name)

-- A command that is found carries the bytes it was read from.
theorem eventOf_raw {name : String} {args : List String} {raw : Bytes} {command : Command}
    (h : eventOf name args raw = .ok command) : command.raw = raw := by
  unfold eventOf at h
  split at h
  · rw [← Except.ok.inj h]
  · simp only [reduceCtorEq] at h

-- An unknown command does not break the protocol.
theorem eventOf_isProtocol {name : String} {args : List String} {raw : Bytes} {e : Error}
    (h : eventOf name args raw = .error e) : e.isProtocol = false := by
  unfold eventOf at h
  split at h
  · simp only [reduceCtorEq] at h
  · rw [← Except.error.inj h]
    rfl

/-- The outlook on a line where a command may begin. -/
def lookCommand (bytes : Bytes) (line : BufferedLine) : Outlook :=
  if bytes.head? = some 42 then
    match arrayHeader line.content with
    | .error e => .refused e
    | .ok declared => .moved (.header (bytes.take line.size) declared []) (bytes.drop line.size)
  else if line.content.all isBlankByte then .moved .start (bytes.drop line.size)
  else
    match Text.asciiWords (Text.ofBytes line.content) with
    | name :: args => .found (eventOf name args (bytes.take line.size)) (bytes.drop line.size)
    | [] => .found (eventOf "" [] (bytes.take line.size)) (bytes.drop line.size)

/-- The outlook on a line where the header of an element comes next. -/
def lookHeader (read : Bytes) (declared : Nat) (elements : List String) (bytes : Bytes)
    (line : BufferedLine) : Outlook :=
  match bulkHeader line.content with
  | .error e => .refused e
  | .ok length =>
    .moved (.value (read ++ bytes.take line.size) declared elements length) (bytes.drop line.size)

/-- The outlook behind an element. -/
def lookElement (read : Bytes) (declared : Nat) (elements : List String) (rest : Bytes) :
    Outlook :=
  if elements.length = declared then
    match elements with
    | name :: args => .found (eventOf name args read) rest
    | [] => .refused (.protocol "array completed without a command name")
  else .moved (.header read declared elements) rest

/-- The outlook from a position. -/
def look (position : Position) (bytes : Bytes) : Outlook :=
  match position with
  | .start =>
    match lineAt bytes with
    | .error e => .refused e
    | .ok none => .more
    | .ok (some line) => lookCommand bytes line
  | .header read declared elements =>
    match lineAt bytes with
    | .error e => .refused e
    | .ok none => .more
    | .ok (some line) => lookHeader read declared elements bytes line
  | .value read declared elements length =>
    match bulkValue length bytes with
    | .error e => .refused e
    | .ok none => .more
    | .ok (some value) =>
      lookElement (read ++ bytes.take (length + crlf.length)) declared (elements ++ [value])
        (bytes.drop (length + crlf.length))

/-- What is read of a line does not depend on what is behind it. -/
theorem lookCommand_append {bytes : Bytes} {line : BufferedLine} (h : findLine bytes = some line)
    (more : Bytes) :
    lookCommand (bytes ++ more) line = (lookCommand bytes line).extend more := by
  have hsize := findLine_size h
  -- A line is at least one byte, so the mark of an array is or is not there already.
  have hhead : (bytes ++ more).head? = bytes.head? := by
    cases bytes with
    | nil =>
        rw [List.length_nil] at hsize
        omega
    | cons => rfl
  unfold lookCommand
  rw [hhead, List.take_append_of_le_length hsize.2, List.drop_append_of_le_length hsize.2]
  by_cases hstar : bytes.head? = some 42
  · rw [if_pos hstar, if_pos hstar]
    cases arrayHeader line.content <;> rfl
  · rw [if_neg hstar, if_neg hstar]
    by_cases hblank : line.content.all isBlankByte = true
    · rw [if_pos hblank, if_pos hblank]
      rfl
    · rw [if_neg hblank, if_neg hblank]
      cases Text.asciiWords (Text.ofBytes line.content) <;> rfl

/-- The header of an element is a line, so later bytes do not change what it announces. -/
theorem lookHeader_append {bytes : Bytes} {line : BufferedLine} (h : findLine bytes = some line)
    (read : Bytes) (declared : Nat) (elements : List String) (more : Bytes) :
    lookHeader read declared elements (bytes ++ more) line =
      (lookHeader read declared elements bytes line).extend more := by
  have hsize := findLine_size h
  unfold lookHeader
  rw [List.take_append_of_le_length hsize.2, List.drop_append_of_le_length hsize.2]
  cases bulkHeader line.content <;> rfl

/-- Behind an element nothing has to be looked at: how many elements there are decides. -/
theorem lookElement_append (read : Bytes) (declared : Nat) (elements : List String)
    (rest more : Bytes) :
    lookElement read declared elements (rest ++ more) =
      (lookElement read declared elements rest).extend more := by
  unfold lookElement
  by_cases hfull : elements.length = declared
  · rw [if_pos hfull, if_pos hfull]
    cases elements <;> rfl
  · rw [if_neg hfull, if_neg hfull]
    rfl

/-- A look at a line or a value that is there does not depend on later bytes. The one look that
    does is at a line whose line feed is missing. -/
theorem look_append (position : Position) (bytes more : Bytes) (h : look position bytes ≠ .more)
    (hline : position.seeksLine = true → findLine bytes ≠ none) :
    look position (bytes ++ more) = (look position bytes).extend more := by
  cases position with
  | start =>
      rcases Option.ne_none_iff_exists'.mp (hline rfl) with ⟨line, hfind⟩
      simp only [look, lineAt_of_findLine hfind, lineAt_of_findLine (findLine_append hfind more)]
      exact lookCommand_append hfind more
  | header read declared elements =>
      rcases Option.ne_none_iff_exists'.mp (hline rfl) with ⟨line, hfind⟩
      simp only [look, lineAt_of_findLine hfind, lineAt_of_findLine (findLine_append hfind more)]
      exact lookHeader_append hfind read declared elements more
  | value read declared elements length =>
      -- No line is looked for here; only a value that is not complete depends on later bytes.
      rcases hvalue : bulkValue length bytes with e | _ | value
      · have hvalue' := bulkValue_append hvalue (by simp) more
        simp only [look, hvalue, hvalue', Outlook.extend]
      · simp only [look, hvalue, ne_eq, not_true_eq_false] at h
      · have hvalue' := bulkValue_append hvalue (by simp) more
        have hlen := bulkValue_eq_some hvalue
        simp only [look, hvalue, hvalue']
        rw [List.take_append_of_le_length hlen, List.drop_append_of_le_length hlen]
        exact lookElement_append _ _ _ _ _

/-- Where a line is looked for and is missing, reading does not get anywhere. -/
theorem look_of_findLine_none {position : Position} (hseek : position.seeksLine = true)
    {bytes : Bytes} (h : findLine bytes = none) :
    look position bytes =
      if maxLineLength < bytes.length then .refused (.protocol "line exceeds maximum length")
      else .more := by
  have hlineAt : lineAt bytes = if maxLineLength < bytes.length then
      .error (.protocol "line exceeds maximum length") else .ok none := by
    simp only [lineAt, h, gt_iff_lt]
  by_cases hlong : maxLineLength < bytes.length
  · rw [if_pos hlong] at hlineAt ⊢
    cases position with
    | start => simp only [look, hlineAt]
    | header => simp only [look, hlineAt]
    | value => simp only [Position.seeksLine, reduceCtorEq] at hseek
  · rw [if_neg hlong] at hlineAt ⊢
    cases position with
    | start => simp only [look, hlineAt]
    | header => simp only [look, hlineAt]
    | value => simp only [Position.seeksLine, reduceCtorEq] at hseek

-- A look that gets anywhere and refuses nothing has found the line that it looked for.
theorem findLine_ne_none_of_look {position : Position} {bytes : Bytes}
    (hmore : look position bytes ≠ .more) (hrefused : ∀ e, look position bytes ≠ .refused e)
    (hseek : position.seeksLine = true) : findLine bytes ≠ none := by
  intro hnone
  have hlook := look_of_findLine_none hseek hnone
  by_cases hlong : maxLineLength < bytes.length
  · rw [if_pos hlong] at hlook
    exact hrefused _ hlook
  · rw [if_neg hlong] at hlook
    exact hmore hlook

/-- A part of a command that was read is read in the same way with more bytes behind it. -/
theorem look_moved_append {position next : Position} {bytes rest : Bytes}
    (h : look position bytes = .moved next rest) (more : Bytes) :
    look position (bytes ++ more) = .moved next (rest ++ more) := by
  have hmore : look position bytes ≠ .more := by simp [h]
  have hline := findLine_ne_none_of_look hmore (by simp [h])
  rw [look_append position bytes more hmore hline, h]
  rfl

/-- A whole command is found in the same way with more bytes behind it. -/
theorem look_found_append {position : Position} {event : Event} {bytes rest : Bytes}
    (h : look position bytes = .found event rest) (more : Bytes) :
    look position (bytes ++ more) = .found event (rest ++ more) := by
  have hmore : look position bytes ≠ .more := by simp [h]
  have hline := findLine_ne_none_of_look hmore (by simp [h])
  rw [look_append position bytes more hmore hline, h]
  rfl

/-- The line that is looked for, if it is there, is not too long. -/
def LineFits (position : Position) (bytes : Bytes) : Prop :=
  position.seeksLine = true → ∀ line, findLine bytes = some line → line.size ≤ maxLineLength + 1

/-- A refusal stands whatever comes later, unless it is of a line that turns out to fit. -/
theorem look_refused_append {position : Position} {bytes : Bytes} {e : Error}
    (h : look position bytes = .refused e) (more : Bytes)
    (hfits : LineFits position (bytes ++ more)) :
    look position (bytes ++ more) = .refused e := by
  by_cases hline : position.seeksLine = true → findLine bytes ≠ none
  · rw [look_append position bytes more (by rw [h]; simp) hline, h]
    rfl
  · -- The line is refused for its length, and no later line feed makes it fit.
    rw [Classical.not_imp, not_not] at hline
    rcases hline with ⟨hseek, hnone⟩
    have hlook := look_of_findLine_none hseek hnone
    rw [h] at hlook
    by_cases hlong : maxLineLength < bytes.length
    · rw [if_pos hlong] at hlook
      cases hfind : findLine (bytes ++ more) with
      | some line =>
          -- A line that ends behind these bytes is longer than a line that fits.
          have hsize := findLine_append_of_none hnone hfind
          have := hfits hseek line hfind
          omega
      | none =>
          rw [look_of_findLine_none hseek hfind, hlook, if_pos]
          rw [List.length_append]
          omega
    · rw [if_neg hlong] at hlook
      simp only [reduceCtorEq] at hlook

theorem lookCommand_isProtocol {bytes : Bytes} {line : BufferedLine} {e : Error}
    (h : lookCommand bytes line = .refused e) : e.isProtocol = true := by
  unfold lookCommand at h
  split at h
  · cases hheader : arrayHeader line.content with
    | error e' =>
        rw [hheader] at h
        rw [← Outlook.refused.inj h]
        exact arrayHeader_isProtocol hheader
    | ok declared => simp only [hheader, reduceCtorEq] at h
  · split at h
    · simp only [reduceCtorEq] at h
    · split at h <;> simp only [reduceCtorEq] at h

theorem lookElement_isProtocol {read : Bytes} {declared : Nat} {elements : List String}
    {rest : Bytes} {e : Error} (h : lookElement read declared elements rest = .refused e) :
    e.isProtocol = true := by
  unfold lookElement at h
  split at h
  · cases elements with
    | nil =>
        rw [← Outlook.refused.inj h]
        rfl
    | cons => simp only [reduceCtorEq] at h
  · simp only [reduceCtorEq] at h

/-- Only a broken protocol is refused. -/
theorem look_isProtocol {position : Position} {bytes : Bytes} {e : Error}
    (h : look position bytes = .refused e) : e.isProtocol = true := by
  -- A line is refused for its length, or for what it says.
  have hlong : ∀ {e'}, lineAt bytes = .error e' → e'.isProtocol = true := by
    intro e' hline
    rw [(lineAt_eq_error hline).2.2]
    rfl
  cases position with
  | start =>
      rcases hline : lineAt bytes with e' | _ | line
      · simp only [look, hline, Outlook.refused.injEq] at h
        exact h ▸ hlong hline
      · simp only [look, hline, reduceCtorEq] at h
      · simp only [look, hline] at h
        exact lookCommand_isProtocol h
  | header read declared elements =>
      rcases hline : lineAt bytes with e' | _ | line
      · simp only [look, hline, Outlook.refused.injEq] at h
        exact h ▸ hlong hline
      · simp only [look, hline, reduceCtorEq] at h
      · cases hheader : bulkHeader line.content with
        | error e' =>
            simp only [look, hline, lookHeader, hheader, Outlook.refused.injEq] at h
            exact h ▸ bulkHeader_isProtocol hheader
        | ok length => simp only [look, hline, lookHeader, hheader, reduceCtorEq] at h
  | value read declared elements length =>
      rcases hvalue : bulkValue length bytes with e' | _ | value
      · simp only [look, hvalue, Outlook.refused.injEq] at h
        exact h ▸ bulkValue_isProtocol hvalue
      · simp only [look, hvalue, reduceCtorEq] at h
      · simp only [look, hvalue] at h
        exact lookElement_isProtocol h

/-- The outlook is what comes of reading `used`, with `rest` behind it: either the bytes are read of
    the command in progress, or they are a blank line between commands. -/
def Outlook.Follows (position : Position) (used rest : Bytes) : Outlook → Prop
  | .more => False
  | moved next left => left = rest ∧
      (next.read = position.read ++ used ∨ position = .start ∧ next = .start)
  | found event left => left = rest ∧
      ∃ name args, event = eventOf name args (position.read ++ used)
  | refused _ => True

/-- At the start of a command, a look at a line reads the line and nothing behind it. -/
theorem lookCommand_follows (bytes : Bytes) (line : BufferedLine) :
    (lookCommand bytes line).Follows .start (bytes.take line.size) (bytes.drop line.size) := by
  unfold lookCommand
  split
  · cases arrayHeader line.content with
    | error e => trivial
    | ok declared => exact ⟨rfl, Or.inl rfl⟩
  · split
    · exact ⟨rfl, Or.inr ⟨rfl, rfl⟩⟩
    · cases Text.asciiWords (Text.ofBytes line.content) with
      | nil => exact ⟨rfl, _, _, rfl⟩
      | cons => exact ⟨rfl, _, _, rfl⟩

/-- The header of an element is read to the end of its line, and is part of the command. -/
theorem lookHeader_follows (read : Bytes) (declared : Nat) (elements : List String)
    (bytes : Bytes) (line : BufferedLine) :
    (lookHeader read declared elements bytes line).Follows (.header read declared elements)
      (bytes.take line.size) (bytes.drop line.size) := by
  unfold lookHeader
  cases bulkHeader line.content with
  | error e => trivial
  | ok length => exact ⟨rfl, Or.inl rfl⟩

/-- The end of a command, or the step to its next element, reads no further bytes. -/
theorem lookElement_follows (position : Position) (used : Bytes) (declared : Nat)
    (elements : List String) (rest : Bytes) :
    (lookElement (position.read ++ used) declared elements rest).Follows position used rest := by
  unfold lookElement
  split
  · cases elements with
    | nil => trivial
    | cons => exact ⟨rfl, _, _, rfl⟩
  · exact ⟨rfl, Or.inl rfl⟩

/-- Bytes that lead to an outlook are not too few. -/
theorem Outlook.Follows.ne_more {position : Position} {used rest : Bytes} {outlook : Outlook}
    (h : outlook.Follows position used rest) : outlook ≠ .more := by
  rintro rfl
  exact h

/-- Some of the bytes are used by a look: it comes to the same on no more than those, and follows
    them. -/
def Consumes (position : Position) (bytes : Bytes) : Prop :=
  ∃ used rest, used ≠ [] ∧ bytes = used ++ rest ∧
    look position bytes = (look position used).extend rest ∧
    (look position bytes).Follows position used rest

-- A look that does not depend on what is behind its first bytes uses those.
theorem consumes_take {position : Position} {bytes : Bytes} {size : Nat} (hpos : 0 < size)
    (hle : size ≤ bytes.length)
    (hmore : look position (bytes.take size) ≠ .more)
    (hline : position.seeksLine = true → findLine (bytes.take size) ≠ none)
    (hfollows : (look position bytes).Follows position (bytes.take size) (bytes.drop size)) :
    Consumes position bytes := by
  refine ⟨_, _, ?_, (List.take_append_drop size bytes).symm, ?_, hfollows⟩
  · rw [← List.length_pos_iff, List.length_take]
    omega
  · rw [← look_append position _ _ hmore hline, List.take_append_drop]

-- A look at a line uses the line.
theorem consumes_line {position : Position} {bytes : Bytes} {line : BufferedLine}
    (hfind : findLine bytes = some line) (outlook : Bytes → Outlook)
    (hlook : ∀ ahead, findLine ahead = some line → look position ahead = outlook ahead)
    (hfollows : ∀ ahead, (outlook ahead).Follows position (ahead.take line.size)
      (ahead.drop line.size)) : Consumes position bytes := by
  have htake := findLine_take hfind
  have hsize := findLine_size hfind
  refine consumes_take hsize.1 hsize.2 ?_ ?_ ?_
  · rw [hlook _ htake]
    exact (hfollows _).ne_more
  · rw [htake]
    simp
  · rw [hlook _ hfind]
    exact hfollows bytes

/-- A look that gets anywhere consumes bytes, and keeps those of a command. -/
theorem look_consumes (position : Position) (bytes : Bytes) :
    look position bytes = .more ∨ (∃ e, look position bytes = .refused e) ∨
      Consumes position bytes := by
  cases position with
  | start =>
      rcases hline : lineAt bytes with e | _ | line
      · exact Or.inr (Or.inl ⟨e, by simp only [look, hline]⟩)
      · exact Or.inl (by simp only [look, hline])
      · refine Or.inr (Or.inr (consumes_line (lineAt_eq_some hline) (lookCommand · line) ?_ ?_))
        · intro ahead hahead
          simp only [look, lineAt_of_findLine hahead]
        · exact fun ahead => lookCommand_follows ahead line
  | header read declared elements =>
      rcases hline : lineAt bytes with e | _ | line
      · exact Or.inr (Or.inl ⟨e, by simp only [look, hline]⟩)
      · exact Or.inl (by simp only [look, hline])
      · refine Or.inr (Or.inr (consumes_line (lineAt_eq_some hline)
          (lookHeader read declared elements · line) ?_ ?_))
        · intro ahead hahead
          simp only [look, lineAt_of_findLine hahead]
        · exact fun ahead => lookHeader_follows read declared elements ahead line
  | value read declared elements length =>
      rcases hvalue : bulkValue length bytes with e | _ | value
      · exact Or.inr (Or.inl ⟨e, by simp only [look, hvalue]⟩)
      · exact Or.inl (by simp only [look, hvalue])
      · have hfollows := lookElement_follows (.value read declared elements length)
        refine Or.inr (Or.inr (consumes_take (by simp [crlf]) (bulkValue_eq_some hvalue) ?_ ?_ ?_))
        · simp only [look, bulkValue_take hvalue]
          exact (hfollows _ declared (elements ++ [value]) _).ne_more
        · simp [Position.seeksLine]
        · simp only [look, hvalue]
          exact hfollows _ declared (elements ++ [value]) _

-- What is left behind when later bytes are added is more than what was left before.
theorem Outlook.extend_eq_moved {outlook : Outlook} {more rest : Bytes} {position : Position}
    (h : outlook.extend more = .moved position rest) :
    ∃ before, outlook = .moved position before ∧ rest = before ++ more := by
  cases outlook with
  | moved next before =>
      rcases Outlook.moved.inj h with ⟨rfl, rfl⟩
      exact ⟨before, rfl, rfl⟩
  | _ => simp [extend] at h

/-- A command that is found among more bytes is found without them, too. -/
theorem Outlook.extend_eq_found {outlook : Outlook} {more rest : Bytes} {event : Event}
    (h : outlook.extend more = .found event rest) :
    ∃ before, outlook = .found event before ∧ rest = before ++ more := by
  cases outlook with
  | found other before =>
      rcases Outlook.found.inj h with ⟨rfl, rfl⟩
      exact ⟨before, rfl, rfl⟩
  | _ => simp [extend] at h

/-- A look that moves on has used some bytes and would have moved on with those alone. They are part
    of the command in progress, unless they are a blank line. -/
theorem look_moved_consumes {position next : Position} {bytes rest : Bytes}
    (h : look position bytes = .moved next rest) :
    ∃ used, used ≠ [] ∧ bytes = used ++ rest ∧ look position used = .moved next [] ∧
      (next.read = position.read ++ used ∨ position = .start ∧ next = .start) := by
  rcases look_consumes position bytes with hmore | ⟨e, he⟩ | hconsumes
  · simp only [hmore, reduceCtorEq] at h
  · simp only [he, reduceCtorEq] at h
  · rcases hconsumes with ⟨used, left, hne, hsplit, hused, hfollows⟩
    rw [h] at hused hfollows
    rcases hfollows with ⟨rfl, hread⟩
    -- What is left behind `used` alone is nothing, because with `left` added it is `left`.
    rcases Outlook.extend_eq_moved hused.symm with ⟨before, hlook, hrest⟩
    rw [List.self_eq_append_left] at hrest
    exact ⟨used, hne, hsplit, hrest ▸ hlook, hread⟩

/-- A look that finds a command has used its bytes, and the command carries all that was read of
    it. -/
theorem look_found_consumes {position : Position} {event : Event} {bytes rest : Bytes}
    (h : look position bytes = .found event rest) :
    ∃ used, used ≠ [] ∧ bytes = used ++ rest ∧ look position used = .found event [] ∧
      ∃ name args, event = eventOf name args (position.read ++ used) := by
  rcases look_consumes position bytes with hmore | ⟨e, he⟩ | hconsumes
  · simp only [hmore, reduceCtorEq] at h
  · simp only [he, reduceCtorEq] at h
  · rcases hconsumes with ⟨used, left, hne, hsplit, hused, hfollows⟩
    rw [h] at hused hfollows
    rcases hfollows with ⟨rfl, hevent⟩
    rcases Outlook.extend_eq_found hused.symm with ⟨before, hlook, hrest⟩
    rw [List.self_eq_append_left] at hrest
    exact ⟨used, hne, hsplit, hrest ▸ hlook, hevent⟩

/-- Moving on leaves fewer bytes. This is why reading comes to an end. -/
theorem look_moved_shorter {position next : Position} {bytes rest : Bytes}
    (h : look position bytes = .moved next rest) : rest.length < bytes.length := by
  rcases look_moved_consumes h with ⟨used, hne, hsplit, _, _⟩
  have := List.length_pos_iff.mpr hne
  rw [hsplit, List.length_append]
  omega

/-- Finding a command leaves fewer bytes, too. -/
theorem look_found_shorter {position : Position} {event : Event} {bytes rest : Bytes}
    (h : look position bytes = .found event rest) : rest.length < bytes.length := by
  rcases look_found_consumes h with ⟨used, hne, hsplit, _⟩
  have := List.length_pos_iff.mpr hne
  rw [hsplit, List.length_append]
  omega

/-- Reading stops here: bytes are missing, or the protocol is broken. -/
def Stops (position : Position) (bytes : Bytes) : Prop :=
  look position bytes = .more ∨ ∃ e, look position bytes = .refused e

/-- Reading on from a position, for as long as one likes: the events on the way, the position
    reached and the bytes left. -/
inductive Reads : Position → Bytes → List Event → Position → Bytes → Prop where
  | here (position : Position) (bytes : Bytes) : Reads position bytes [] position bytes
  | move {position next last : Position} {bytes rest left : Bytes} {events : List Event}
      (h : look position bytes = .moved next rest) (later : Reads next rest events last left) :
      Reads position bytes events last left
  | event {position last : Position} {bytes rest left : Bytes} {event : Event}
      {events : List Event} (h : look position bytes = .found event rest)
      (later : Reads .start rest events last left) :
      Reads position bytes (event :: events) last left

namespace Reads

variable {position middle last : Position} {bytes rest left : Bytes}
  {events before after : List Event}

/-- Reading can be taken up where it was left. -/
theorem trans (h : Reads position bytes before middle rest)
    (h' : Reads middle rest after last left) :
    Reads position bytes (before ++ after) last left := by
  induction h with
  | here => exact h'
  | move hlook _ ih => exact move hlook (ih h')
  | event hlook _ ih => exact event hlook (ih h')

/-- Reading on does not depend on later bytes. -/
theorem append (h : Reads position bytes events last left) (more : Bytes) :
    Reads position (bytes ++ more) events last (left ++ more) := by
  induction h with
  | here => exact here _ _
  | move hlook _ ih => exact move (look_moved_append hlook more) ih
  | event hlook _ ih => exact event (look_found_append hlook more) ih

/-- Reading does not make up bytes. -/
theorem length_le (h : Reads position bytes events last left) : left.length ≤ bytes.length := by
  induction h with
  | here => exact Nat.le_refl _
  | move hlook _ ih =>
      have := look_moved_shorter hlook
      omega
  | event hlook _ ih =>
      have := look_found_shorter hlook
      omega

/-- There is one way of reading: whoever stops earlier can go on to where the other one is. -/
theorem resume (h : Reads position bytes before middle rest)
    (h' : Reads position bytes after last left)
    (hstops : Stops last left) :
    ∃ events, after = before ++ events ∧ Reads middle rest events last left := by
  -- Both ways look at the same bytes from the same position, so they take the same step.
  induction h generalizing after with
  | here => exact ⟨after, rfl, h'⟩
  | move hlook _ ih =>
      cases h' with
      | here => rcases hstops with hmore | ⟨e, he⟩ <;> simp_all
      | move hlook' later =>
          rw [hlook] at hlook'
          rcases Outlook.moved.inj hlook' with ⟨rfl, rfl⟩
          exact ih later
      | event hlook' => simp only [hlook, reduceCtorEq] at hlook'
  | event hlook _ ih =>
      cases h' with
      | here => rcases hstops with hmore | ⟨e, he⟩ <;> simp_all
      | move hlook' => simp only [hlook, reduceCtorEq] at hlook'
      | event hlook' later =>
          rw [hlook] at hlook'
          rcases Outlook.found.inj hlook' with ⟨rfl, rfl⟩
          rcases ih later with ⟨events, rfl, hreads⟩
          exact ⟨events, rfl, hreads⟩

end Reads

/-- Reading comes to an end, where bytes are missing or the protocol is broken. -/
theorem exists_reads (position : Position) (bytes : Bytes) :
    ∃ events last left, Reads position bytes events last left ∧ Stops last left := by
  -- Every look that gets anywhere leaves fewer bytes.
  induction hlen : bytes.length using Nat.strong_induction_on generalizing position bytes with
  | _ n ih =>
      cases hlook : look position bytes with
      | more => exact ⟨[], position, bytes, .here _ _, Or.inl hlook⟩
      | refused e => exact ⟨[], position, bytes, .here _ _, Or.inr ⟨e, hlook⟩⟩
      | moved next rest =>
          have hshort : rest.length < n := hlen ▸ look_moved_shorter hlook
          rcases ih rest.length hshort next rest rfl with ⟨events, last, left, hreads, hstops⟩
          exact ⟨events, last, left, .move hlook hreads, hstops⟩
      | found event rest =>
          have hshort : rest.length < n := hlen ▸ look_found_shorter hlook
          rcases ih rest.length hshort .start rest rfl with ⟨events, last, left, hreads, hstops⟩
          exact ⟨event :: events, last, left, .event hlook hreads, hstops⟩

/-- Every line that is looked for while the bytes are read fits: it has at most `maxLineLength`
    bytes in front of its line feed. The bytes of values are not looked at. -/
def ShortLines (position : Position) (bytes : Bytes) : Prop :=
  ∀ events last left, Reads position bytes events last left → LineFits last left

/-- If all lines of a stream are short, then so are those of what is left of it. -/
theorem ShortLines.of_reads {position last : Position} {bytes left : Bytes} {events : List Event}
    (h : ShortLines position bytes) (hreads : Reads position bytes events last left) :
    ShortLines last left :=
  fun _ _ _ hlater => h _ _ _ (hreads.trans hlater)

end Framer

end KeyValue
