import KeyValue.Proofs.Framing.Carrying
import KeyValue.Proofs.Wire.Codec
import Mathlib.Data.Nat.Digits.Defs

/-!
# Framing of encoded requests

A framer reads an array of byte strings as the command that the byte strings spell.

The wire form of a request announces how many parts there are and how long each part is, so the
contents of a part do not matter: it may hold line ends, and bytes that are no text. What matters
is that no length is refused, and then the lines in between are short by themselves.

## Main definitions

* `Framer.encoded`: The wire form of a request.

## Theorems

* `headerLength_line`: The number in a header is read back.
* `look_bulk`, `look_payload`: A part is read in two moves.
* `carries_parts`: Parts are read one after another.
* `carries_encoded`: A request is read as the command that its parts spell.
-/

namespace KeyValue

namespace Text

-- A character of ASCII is one byte, and that byte has its number.
theorem utf8EncodeChar_ascii {c : Char} (h : c.toNat < 128) :
    String.utf8EncodeChar c = [UInt8.ofNat c.toNat] := by
  have hle : c.val.toNat ≤ 0x7f := Nat.le_of_lt_succ h
  unfold String.utf8EncodeChar
  simp only [hle, if_true]
  rfl

theorem map_bytes_ascii (characters : List Char) (h : ∀ c ∈ characters, c.toNat < 128) :
    (bytes (String.ofList characters)).map (fun byte => Char.ofNat byte.toNat) = characters := by
  rw [bytes, String.toList_ofList]
  induction characters with
  | nil => rfl
  | cons c rest ih =>
      rw [List.forall_mem_cons] at h
      rw [List.flatMap_cons, utf8EncodeChar_ascii h.1, List.map_append, ih h.2, List.map_singleton,
        toNat_ofNat_byte (by omega), Char.ofNat_toNat]
      rfl

end Text

namespace Framer

open Wire

variable {n declared : Nat} {text : String} {payload read rest : Bytes}
  {elements : List String}

theorem isDigit_ascii {c : Char} (h : c.isDigit = true) : c.toNat < 128 := by
  simp only [Char.isDigit, ge_iff_le, Bool.and_eq_true, decide_eq_true_eq] at h
  have := UInt32.le_iff_toNat_le.mp h.2
  exact Nat.lt_of_le_of_lt this (by decide)

theorem headerLength_line (mark : Char) (hmark : mark.toNat < 128) (hn : n ≤ Decimal.maxUInt64) :
    headerLength mark (Text.bytes (String.ofList (mark :: (Nat.repr n).toList))) = .ok n := by
  have hdigits := Text.map_bytes_ascii (Nat.repr n).toList
    fun c hmem => isDigit_ascii (Decimal.repr_isDigit hmem)
  rw [String.ofList_toList] at hdigits
  have hsplit : Text.bytes (String.ofList (mark :: (Nat.repr n).toList)) =
      UInt8.ofNat mark.toNat :: Text.bytes (Nat.repr n) := by
    rw [Text.bytes, String.toList_ofList, List.flatMap_cons, Text.utf8EncodeChar_ascii hmark]
    rfl
  simp only [hsplit, headerLength, Text.toNat_ofNat_byte (Nat.lt_trans hmark (by decide)),
    if_true, hdigits, Decimal.bounded?_repr hn]

-- A marked line is found without its end.
theorem findLine_marked (mark : Char) (hmark : mark ≠ '\n') (htext : '\n' ∉ text.toList)
    (rest : Bytes) :
    findLine (Reply.line mark text ++ rest) =
      some ⟨Text.bytes (String.ofList (mark :: text.toList)), (Reply.line mark text).length⟩ := by
  have hfirst : 10 ∉ Text.bytes (String.ofList (mark :: text.toList)) ++ [13] := by
    rw [List.mem_append, Text.lineFeed_mem_bytes, String.toList_ofList, List.mem_cons]
    simp [htext, Ne.symm hmark]
  have hsplit : Reply.line mark text ++ rest =
      (Text.bytes (String.ofList (mark :: text.toList)) ++ [13]) ++ 10 :: rest := by
    simp [Reply.line, crlf]
  rw [hsplit, findLine_line _ _ hfirst, stripReturn]
  simp [Reply.line, crlf]

-- The line that announces a length is short.
theorem line_length_le (mark : Char) (hmark : mark.toNat < 128) (hn : n ≤ Decimal.maxUInt64) :
    (Reply.line mark (Nat.repr n)).length ≤ maxLineLength + 1 := by
  have hdigits := Text.map_bytes_ascii (mark :: (Nat.repr n).toList)
    (List.forall_mem_cons.mpr ⟨hmark, fun c hmem => isDigit_ascii (Decimal.repr_isDigit hmem)⟩)
  have hlength := congrArg List.length hdigits
  have hbound : n < 10 ^ 20 := by
    simp only [Decimal.maxUInt64, UInt64.size] at hn
    omega
  have hrepr := Nat.repr_length n 20 (by omega) hbound
  rw [List.length_map, List.length_cons, String.length_toList] at hlength
  simp only [Reply.line, List.length_append, hlength, crlf, List.length_cons, List.length_nil,
    maxLineLength]
  omega

/-- The header of a part is read in one move. -/
theorem look_bulk (hlength : payload.length ≤ maxBulkLength) :
    look (.header read declared elements) ((Reply.bulk payload).encode ++ rest) =
      .moved (.value (read ++ Reply.line '$' (Nat.repr payload.length)) declared elements
        payload.length) (payload ++ crlf ++ rest) := by
  have hfind := findLine_marked '$' (by decide)
    (Decimal.lineFeed_notMem_repr payload.length) (payload ++ crlf ++ rest)
  have hheader := headerLength_line '$' (n := payload.length) (by decide)
    (hlength.trans (by decide))
  rw [Reply.encode_bulk, List.append_assoc]
  simp only [look, lineAt_of_findLine hfind, lookHeader, bulkHeader, hheader, gt_iff_lt,
    Nat.not_lt.mpr hlength, if_false, List.take_left, List.drop_left]

/-- The bytes of a part are read in one move, whatever they are. -/
theorem look_payload :
    look (.value read declared elements payload.length) (payload ++ crlf ++ rest) =
      lookElement (read ++ (payload ++ crlf)) declared (elements ++ [Text.ofBytes payload])
        rest := by
  have hvalue : bulkValue payload.length (payload ++ crlf ++ rest) =
      .ok (some (Text.ofBytes payload)) := by
    simp [bulkValue, crlf]
  simp only [look, hvalue]
  rw [← List.length_append, List.take_left, List.drop_left]

theorem lineFits_header (position : Position) (mark : Char) (hmark : mark.toNat < 128)
    (hn : n ≤ Decimal.maxUInt64) (hfeed : mark ≠ '\n') (rest : Bytes) :
    LineFits position (Reply.line mark (Nat.repr n) ++ rest) := by
  intro _ line hfind
  rw [findLine_marked mark hfeed (Decimal.lineFeed_notMem_repr n), Option.some.injEq] at hfind
  rw [← hfind]
  exact line_length_le mark hmark hn

/-- Parts are read one after another, up to the last one. -/
theorem carries_parts {name : String} {args : List String} (parts : List Bytes) :
    ∀ (read : Bytes) (elements : List String), parts ≠ [] →
      (∀ part ∈ parts, part.length ≤ maxBulkLength) →
      elements.length + parts.length = declared →
      elements ++ parts.map Text.ofBytes = name :: args →
      Carries (.header read declared elements) (Reply.encodeAll (parts.map .bulk))
        [eventOf name args (read ++ Reply.encodeAll (parts.map .bulk))] := by
  induction parts with
  | nil => exact fun _ _ h => absurd rfl h
  | cons part rest ih =>
      intro read elements _ hlengths hcount helements
      rw [List.forall_mem_cons] at hlengths
      rw [List.map_cons, Reply.encodeAll]
      have hfits : LineFits (.header read declared elements)
          ((Reply.bulk part).encode ++ Reply.encodeAll (rest.map .bulk)) := by
        rw [Reply.encode_bulk, List.append_assoc]
        exact lineFits_header _ '$' (by decide) (hlengths.1.trans (by decide)) (by decide) _
      refine .move (look_bulk hlengths.1) hfits ?_
      -- Behind the bytes of the part comes the next one, or the command is complete.
      have hread : read ++ Reply.line '$' (Nat.repr part.length) ++ (part ++ crlf) =
          read ++ (Reply.bulk part).encode := by
        rw [Reply.encode_bulk, List.append_assoc]
      have hvalue : LineFits
          (.value (read ++ Reply.line '$' (Nat.repr part.length)) declared elements part.length)
          (part ++ crlf ++ Reply.encodeAll (rest.map .bulk)) := fun h => nomatch h
      rcases rest with _ | ⟨second, rest⟩
      · refine .event ?_ hvalue .nil
        have hlast : (elements ++ [Text.ofBytes part]).length = declared := by simpa using hcount
        simp only [List.map_cons, List.map_nil] at helements
        rw [helements] at hlast
        rw [look_payload, hread, helements]
        simp only [lookElement, hlast, if_true, List.map_nil, Reply.encodeAll, List.append_nil]
      · have hmore : (elements ++ [Text.ofBytes part]).length ≠ declared := by
          simp only [List.length_append, List.length_cons, List.length_nil] at hcount ⊢
          omega
        have hmoved := lookElement_of_ne hmore (read ++ (Reply.bulk part).encode)
          (Reply.encodeAll ((second :: rest).map .bulk))
        refine .move (by rw [look_payload, hread]; exact hmoved) hvalue ?_
        have hlater := ih (read ++ (Reply.bulk part).encode) (elements ++ [Text.ofBytes part])
          (by simp) hlengths.2
          (by simp only [List.length_append, List.length_cons, List.length_nil] at hcount ⊢; omega)
          (by simpa using helements)
        rwa [List.append_assoc] at hlater

/-- The wire form of a request: an array of byte strings. -/
def encoded (parts : List Bytes) : Bytes := (Reply.array (parts.map .bulk)).encode

/-- A request is read as the command that its parts spell, and nothing is left. -/
theorem carries_encoded {name : Bytes} {args : List Bytes}
    (hcount : args.length < maxArrayLength)
    (hlengths : ∀ part ∈ name :: args, part.length ≤ maxBulkLength) :
    Carries .start (encoded (name :: args))
      [eventOf (Text.ofBytes name) (args.map Text.ofBytes) (encoded (name :: args))] := by
  have hsplit : encoded (name :: args) = Reply.line '*' (Nat.repr (name :: args).length) ++
      Reply.encodeAll ((name :: args).map .bulk) := by
    rw [encoded, Reply.encode_array, List.length_map]
  have hbound : (name :: args).length ≤ Decimal.maxUInt64 :=
    Nat.le_trans (by rw [List.length_cons]; omega) (by decide : maxArrayLength ≤ _)
  have hheader : arrayHeader (Text.bytes (String.ofList
      ('*' :: (Nat.repr (name :: args).length).toList))) = .ok (name :: args).length := by
    have hpos : ¬ (name :: args).length = 0 := by simp
    have hmax : ¬ (name :: args).length > maxArrayLength := by rw [List.length_cons]; omega
    simp only [arrayHeader, headerLength_line '*' (by decide) hbound, hpos, hmax, if_false]
  have hfind := findLine_marked '*' (by decide)
    (Decimal.lineFeed_notMem_repr (name :: args).length)
    (Reply.encodeAll ((name :: args).map .bulk))
  have hhead : (encoded (name :: args)).head? = some 42 := by
    rw [hsplit, Reply.line, Text.bytes, String.toList_ofList, List.flatMap_cons,
      Text.utf8EncodeChar_ascii (by decide)]
    rfl
  have hmove : look .start (encoded (name :: args)) =
      .moved (.header (Reply.line '*' (Nat.repr (name :: args).length)) (name :: args).length [])
        (Reply.encodeAll ((name :: args).map .bulk)) := by
    rw [← hsplit] at hfind
    simp only [look, lineAt_of_findLine hfind, lookCommand, hhead, if_true, hheader]
    rw [hsplit, List.take_left, List.drop_left]
  refine .move hmove ?_ ?_
  · rw [hsplit]
    exact lineFits_header _ '*' (by decide) hbound (by decide) _
  · have hparts := carries_parts (name :: args) (Reply.line '*' (Nat.repr (name :: args).length)) []
      (by simp) hlengths (Nat.zero_add _) (by rw [List.nil_append, List.map_cons])
    rwa [← hsplit] at hparts

/-- A known command is read as that command, with the texts that its arguments read as. -/
theorem carries_command (name : CommandName) {args : List Bytes}
    (hcount : args.length < maxArrayLength)
    (hlengths : ∀ arg ∈ args, arg.length ≤ maxBulkLength) :
    Carries .start (encoded (Text.bytes name.text :: args))
      [.ok ⟨name, args.map Text.ofBytes, encoded (Text.bytes name.text :: args)⟩] := by
  have hname : CommandName.ofText? name.text = some name ∧
      (Text.bytes name.text).length ≤ maxBulkLength := by cases name <;> decide +kernel
  have hcarries := carries_encoded hcount (List.forall_mem_cons.mpr ⟨hname.2, hlengths⟩)
  rw [Text.ofBytes_bytes] at hcarries
  simpa only [eventOf, hname.1] using hcarries

end Framer

end KeyValue
