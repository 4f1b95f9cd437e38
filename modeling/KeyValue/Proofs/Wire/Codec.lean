import KeyValue.Proofs.Wire.Accepting

/-!
# The codec of replies

A reply that fits its wire form is read back from it, and what stands behind it is left.

Two things can go wrong on the wire. A length can be more than a reader accepts, and a line can hold
a line feed of its own. A reply is wire-safe if neither happens to it or to anything inside it. Such
a reply is read back whole (`read_encode`); and a reader accepts nothing else (`read_wireSafe`), so
it stops with an error on a reply that is cut short.

The conditions are stated for every part of a reply at once, by the recursion that encodes it.
Replies one after another are read back one after another (`readAll_encodeAll`).

## Main definitions

* `Reply.All`: A condition on a reply and on all replies inside it.
* `Reply.Fits`, `Reply.Lined`: Lengths that are accepted, and texts that are lines.
* `Reply.WireSafe`: The replies that are read back.
* `Reply.readAll`: Replies are read until it fails.

## Theorems

* `readWithin_encode`, `read_encode`: Wire-safe replies are read back.
* `readWithin_wireSafe`, `read_wireSafe`: What is read is wire-safe.
* `encode_decode`: The codec as a whole.
* `readAll_encodeAll`: Replies one after another.
-/

namespace KeyValue

namespace Reply

open Wire

mutual

/-- A condition holds of a reply and of all replies inside it. -/
def All (p : Reply → Prop) : Reply → Prop
  | array items => p (array items) ∧ AllIn p items
  | reply => p reply

/-- A condition holds of replies and of all replies inside them. -/
def AllIn (p : Reply → Prop) : List Reply → Prop
  | [] => True
  | reply :: replies => All p reply ∧ AllIn p replies

end

/-- A property of all parts of some replies is one of each of the replies. -/
theorem allIn_iff {p : Reply → Prop} (replies : List Reply) :
    AllIn p replies ↔ ∀ reply ∈ replies, reply.All p := by
  induction replies with
  | nil => simp [AllIn]
  | cons reply rest ih => rw [AllIn, ih, List.forall_mem_cons]

mutual

/-- Two conditions that hold everywhere in a reply hold together everywhere. -/
theorem All.and {p q : Reply → Prop} {reply : Reply} (h : reply.All p) (h' : reply.All q) :
    reply.All fun part => p part ∧ q part := by
  cases reply with
  | array items => exact ⟨⟨h.1, h'.1⟩, AllIn.and h.2 h'.2⟩
  | _ => exact ⟨h, h'⟩

/-- Two properties that hold of all parts hold of them together. -/
theorem AllIn.and {p q : Reply → Prop} {replies : List Reply} (h : AllIn p replies)
    (h' : AllIn q replies) : AllIn (fun part => p part ∧ q part) replies := by
  cases replies with
  | nil => trivial
  | cons reply rest => exact ⟨All.and h.1 h'.1, AllIn.and h.2 h'.2⟩

end

mutual

/-- A condition that can be decided can be decided of all replies inside a reply. -/
def decidableAll (p : Reply → Prop) [DecidablePred p] : (reply : Reply) → Decidable (reply.All p)
  | array items =>
    have := decidableAllIn p items
    inferInstanceAs (Decidable (p (array items) ∧ AllIn p items))
  | simple text => inferInstanceAs (Decidable (p (simple text)))
  | bulk payload => inferInstanceAs (Decidable (p (bulk payload)))
  | null => inferInstanceAs (Decidable (p null))
  | nullArray => inferInstanceAs (Decidable (p nullArray))
  | integer value => inferInstanceAs (Decidable (p (integer value)))
  | error text => inferInstanceAs (Decidable (p (error text)))
  | snapshot payload => inferInstanceAs (Decidable (p (snapshot payload)))

/-- A condition that can be decided can be decided of all replies inside replies. -/
def decidableAllIn (p : Reply → Prop) [DecidablePred p] :
    (replies : List Reply) → Decidable (AllIn p replies)
  | [] => inferInstanceAs (Decidable True)
  | reply :: replies =>
    have := decidableAll p reply
    have := decidableAllIn p replies
    inferInstanceAs (Decidable (reply.All p ∧ AllIn p replies))

end

instance (p : Reply → Prop) [DecidablePred p] : DecidablePred (All p) := decidableAll p

/-- No length in front of the reply's own bytes or items is refused. -/
def Fits : Reply → Prop
  | bulk payload => payload.length ≤ maxBulkLength
  | array items => items.length ≤ maxArrayLength
  | _ => True

instance : DecidablePred Fits
  | bulk payload => inferInstanceAs (Decidable (payload.length ≤ maxBulkLength))
  | array items => inferInstanceAs (Decidable (items.length ≤ maxArrayLength))
  | simple _ | null | nullArray | integer _ | error _ | snapshot _ =>
    inferInstanceAs (Decidable True)

/-- The reply ends where its line, its payload or its last item ends: a text has no line feed, and
    a payload is no snapshot. -/
def Lined : Reply → Prop
  | simple text => '\n' ∉ text.toList
  | error text => '\n' ∉ text.toList
  | snapshot _ => False
  | _ => True

instance : DecidablePred Lined
  | simple text | error text => inferInstanceAs (Decidable ('\n' ∉ text.toList))
  | snapshot _ => inferInstanceAs (Decidable False)
  | bulk _ | null | nullArray | integer _ | array _ => inferInstanceAs (Decidable True)

/-- The reply and all replies inside it fit and end where they should. -/
def WireSafe (reply : Reply) : Prop := reply.All fun part => part.Fits ∧ part.Lined

instance : DecidablePred WireSafe := fun reply =>
  inferInstanceAs (Decidable (reply.All fun part => part.Fits ∧ part.Lined))

/-- A line with its mark in front. -/
def line (mark : Char) (text : String) : Bytes :=
  Text.bytes (String.ofList (mark :: text.toList)) ++ crlf

theorem line_eq {mark : Char} {prefixed text : String}
    (h : prefixed.toList = mark :: text.toList) : Text.bytes prefixed ++ crlf = line mark text := by
  rw [line, ← h, String.ofList_toList]

/-- The wire form of replies in a row is their wire forms in a row. -/
theorem encodeAll_append (replies more : List Reply) :
    encodeAll (replies ++ more) = encodeAll replies ++ encodeAll more := by
  induction replies with
  | nil => rfl
  | cons reply rest ih => rw [List.cons_append, encodeAll, encodeAll, ih, List.append_assoc]

-- Every wire form starts with a line.
theorem encode_simple (text : String) : encode (simple text) = line '+' text :=
  line_eq (by simp)

/-- An error is a line behind its mark. -/
theorem encode_error (text : String) : encode (error text) = line '-' text :=
  line_eq (by simp)

/-- An integer is a line of digits behind its mark, with a sign if there is one. -/
theorem encode_integer (value : Int64) :
    encode (integer value) = line ':' (Decimal.ofInt64 value) :=
  line_eq (by simp)

/-- A length is a line of digits behind its mark. -/
theorem lengthLine_eq (mark : Char) (length : Nat) :
    lengthLine mark length = line mark (Nat.repr length) :=
  line_eq (by simp)

/-- A byte string is its length, its bytes and a line end. -/
theorem encode_bulk (payload : Bytes) :
    encode (bulk payload) = line '$' (Nat.repr payload.length) ++ (payload ++ crlf) := by
  rw [encode, lengthLine_eq, List.append_assoc]

/-- An array is its length and then its items. -/
theorem encode_array (items : List Reply) :
    encode (array items) = line '*' (Nat.repr items.length) ++ encodeAll items := by
  rw [encode, lengthLine_eq]

/-- What a line announces is read behind it. -/
theorem readWithin_line {depth : Nat} (mark : Char) (text : String) {after rest : Bytes}
    {reply : Reply} (hmark : mark ≠ '\n') (htext : '\n' ∉ text.toList)
    (h : Announces (readWithin depth) after mark text reply rest) :
    readWithin (depth + 1) (line mark text ++ after) = (.ok reply, rest) := by
  rw [readWithin_eq_ok_iff]
  refine ⟨mark, text.toList, after, ?_, ?_⟩
  · rw [readLine_eq_ok_iff]
    refine ⟨?_, ?_, rfl⟩
    · rw [← String.toList_inj.ne, String.toList_ofList]
      exact List.cons_ne_nil _ _
    · rw [String.toList_ofList, List.mem_cons, not_or]
      exact ⟨Ne.symm hmark, htext⟩
  · rw [String.ofList_toList]
    exact h

/-- No reply has an empty wire form, so readers get on. -/
theorem encode_length_pos (reply : Reply) : 0 < reply.encode.length := by
  cases reply <;>
    simp only [encode, lengthLine, List.length_append, crlf, List.length_cons, List.length_nil] <;>
    omega

mutual

/-- A wire-safe reply is read back from its wire form, and what is behind it is left. -/
theorem readWithin_encode (reply : Reply) (h : reply.WireSafe) (suffix : Bytes) (depth : Nat)
    (hdepth : reply.encode.length ≤ depth) :
    readWithin depth (reply.encode ++ suffix) = (.ok reply, suffix) := by
  obtain ⟨level, rfl⟩ : ∃ level, depth = level + 1 :=
    ⟨depth - 1, by have := reply.encode_length_pos; omega⟩
  cases reply with
  | simple text =>
      rw [encode_simple]
      exact readWithin_line '+' text (by decide) h.2 (.simple text)
  | error text =>
      rw [encode_error]
      exact readWithin_line '-' text (by decide) h.2 (.error text)
  | integer value =>
      rw [encode_integer]
      exact readWithin_line ':' _ (by decide) (Decimal.lineFeed_notMem_ofInt64 value)
        (.integer (Decimal.int64?_ofInt64 value))
  | null =>
      exact readWithin_line '$' "-1" (by decide) (by decide)
        (.null (by decide))
  | nullArray =>
      exact readWithin_line '*' "-1" (by decide) (by decide)
        (.nullArray (by decide))
  | snapshot payload => exact absurd h.2 (fun h => h)
  | bulk payload =>
      have hfits : payload.length ≤ maxBulkLength := h.1
      rw [encode_bulk, List.append_assoc]
      refine readWithin_line '$' _ (by decide) (Decimal.lineFeed_notMem_repr _)
        (.bulk (replyLength_repr (hfits.trans (by decide))) hfits ?_)
      rw [readPayload_eq_ok_iff]
      exact ⟨rfl, rfl⟩
  | array items =>
      have hfits : items.length ≤ maxArrayLength := h.1.1
      rw [encode_array, List.length_append] at hdepth
      rw [encode_array, List.append_assoc]
      refine readWithin_line '*' _ (by decide) (Decimal.lineFeed_notMem_repr _)
        (.array (replyLength_repr (hfits.trans (by decide))) hfits ?_)
      -- The line of the array takes a byte, so a level is left for the items.
      refine readMany_encodeAll items h.2 suffix level ?_
      simp only [line, List.length_append, crlf, List.length_cons, List.length_nil] at hdepth
      omega

/-- As many replies as are asked for are read back, and what is behind them is left. The depth has
    to be enough for all of them, since arrays are read by going one deeper. -/
theorem readMany_encodeAll (replies : List Reply)
    (h : AllIn (fun part => part.Fits ∧ part.Lined) replies) (suffix : Bytes) (depth : Nat)
    (hdepth : (encodeAll replies).length ≤ depth) :
    readMany (readWithin depth) replies.length (encodeAll replies ++ suffix) =
      (.ok replies, suffix) := by
  cases replies with
  | nil => rfl
  | cons reply rest =>
      rw [encodeAll, List.length_append] at hdepth
      rw [encodeAll, List.append_assoc, List.length_cons, readMany_succ_eq_ok_iff]
      exact ⟨reply, encodeAll rest ++ suffix, rest,
        readWithin_encode reply h.1 _ depth (by omega),
        readMany_encodeAll rest h.2 suffix depth (by omega), rfl⟩

end

/-- What is safe to send is read back, whatever is behind it. -/
theorem read_encode {reply : Reply} (h : reply.WireSafe) (suffix : Bytes) :
    read (reply.encode ++ suffix) = (.ok reply, suffix) :=
  readWithin_encode reply h suffix _ (by rw [List.length_append]; omega)

-- A line that is read has no line feed behind its mark either.
theorem lineFeed_notMem_of_readLine {input after : Bytes} {mark : Char} {body : List Char}
    (h : readLine input = (.ok (String.ofList (mark :: body)), after)) :
    '\n' ∉ (String.ofList body).toList := by
  rw [readLine_eq_ok_iff] at h
  rw [String.toList_ofList] at h ⊢
  exact fun hmem => h.2.1 (List.mem_cons_of_mem _ hmem)

/-- What is read is wire-safe. -/
theorem readWithin_wireSafe {depth : Nat} :
    ∀ {input rest : Bytes} {reply : Reply}, readWithin depth input = (.ok reply, rest) →
      reply.WireSafe := by
  induction depth with
  | zero => exact fun h => by simp [readWithin] at h
  | succ depth ih =>
      intro input rest reply h
      rw [readWithin_eq_ok_iff] at h
      rcases h with ⟨mark, body, after, hline, hannounces⟩
      cases hannounces with
      | simple => exact ⟨trivial, lineFeed_notMem_of_readLine hline⟩
      | error => exact ⟨trivial, lineFeed_notMem_of_readLine hline⟩
      | integer => exact ⟨trivial, trivial⟩
      | null => exact ⟨trivial, trivial⟩
      | nullArray => exact ⟨trivial, trivial⟩
      | bulk _ hfits hread =>
          rw [readPayload_eq_ok_iff] at hread
          exact ⟨Nat.le_trans (Nat.le_of_eq hread.1) hfits, trivial⟩
      | array _ hfits hread =>
          rcases readMany_all ih hread with ⟨hlength, hitems⟩
          exact ⟨⟨Nat.le_trans (Nat.le_of_eq hlength) hfits, trivial⟩, (allIn_iff _).mpr hitems⟩

/-- What was read is safe to send. -/
theorem read_wireSafe {input rest : Bytes} {reply : Reply} (h : read input = (.ok reply, rest)) :
    reply.WireSafe :=
  readWithin_wireSafe h

/-- A reply that is cut short is not read. -/
theorem read_cut_short {reply : Reply} (h : reply.WireSafe) {front back : Bytes}
    (hcut : front ++ back = reply.encode) (hback : back ≠ []) :
    ∃ e rest, read front = (.error e, rest) := by
  rcases hread : read front with ⟨e | other, rest⟩
  · exact ⟨e, rest, rfl⟩
  · -- With the rest behind it the front would be read in the same way, and the rest be left.
    have hlevels : front.length + 1 ≤ reply.encode.length + 1 := by
      rw [← hcut, List.length_append]
      omega
    have hlonger := readWithin_append back hlevels hread
    have hwhole := readWithin_encode reply h [] (reply.encode.length + 1) (by omega)
    rw [List.append_nil] at hwhole
    rw [hcut, hwhole] at hlonger
    exact absurd (List.append_eq_nil_iff.mp (Prod.mk.inj hlonger).2.symm).2 hback

/-- Encoding and reading of replies: a wire-safe reply is read back from its wire form, with
    exactly what is behind it left; a part of its wire form is not read; and from any bytes only
    wire-safe replies are read, which are then read back from their own wire forms. -/
theorem encode_decode :
    (∀ reply : Reply, reply.WireSafe → ∀ suffix : Bytes,
      read (reply.encode ++ suffix) = (.ok reply, suffix)) ∧
    (∀ reply : Reply, reply.WireSafe → ∀ front back : Bytes, front ++ back = reply.encode →
      back ≠ [] → ∃ e rest, read front = (.error e, rest)) ∧
    (∀ (input rest : Bytes) (reply : Reply), read input = (.ok reply, rest) →
      reply.WireSafe ∧ read reply.encode = (.ok reply, [])) := by
  refine ⟨fun reply h => read_encode h, fun reply h front back => read_cut_short h, ?_⟩
  intro input rest reply hread
  have hsafe := read_wireSafe hread
  have hback := read_encode hsafe []
  rw [List.append_nil] at hback
  exact ⟨hsafe, hback⟩

/-- A payload that looks like a line end and a header, inside an array, before another reply. -/
theorem encode_decode_nested :
    let reply : Reply := .array [.bulk [13, 10, 36, 49], .array [.error "ERR a\rb", .null]]
    read (reply.encode ++ [43]) = (.ok reply, [43]) ∧
      (∃ e rest, read (reply.encode.take 9) = (.error e, rest)) ∧
      reply.WireSafe ∧ read reply.encode = (.ok reply, []) := by
  intro reply
  have hsafe : reply.WireSafe := by decide
  have hread := encode_decode.1 reply hsafe [43]
  exact ⟨hread, encode_decode.2.1 reply hsafe _ (reply.encode.drop 9) (List.take_append_drop 9 _)
    (by decide), encode_decode.2.2 _ _ reply hread⟩

/-- Read replies up to the first that cannot be read, at most `count` of them: the replies, and
    why there is no further one. -/
def readFor : Nat → Bytes → List Reply × Error
  | 0, _ => ([], .connectionClosed)
  | count + 1, input =>
    match read input with
    | (.error e, _) => ([], e)
    | (.ok reply, rest) =>
      let (replies, e) := readFor count rest
      (reply :: replies, e)

/-- Read replies up to the first that cannot be read. Every reply takes a byte or more. -/
def readAll (input : Bytes) : List Reply × Error := readFor (input.length + 1) input

/-- When all replies are read, the end of the input is met. -/
theorem readFor_encodeAll (replies : List Reply) :
    ∀ count, replies.length < count → (∀ reply ∈ replies, reply.WireSafe) →
      readFor count (encodeAll replies) = (replies, .connectionClosed) := by
  induction replies with
  | nil =>
      intro count hcount _
      obtain ⟨steps, rfl⟩ : ∃ steps, count = steps + 1 := ⟨count - 1, by omega⟩
      rfl
  | cons reply rest ih =>
      intro count hcount hsafe
      obtain ⟨steps, rfl⟩ : ∃ steps, count = steps + 1 := ⟨count - 1, by omega⟩
      rw [List.length_cons] at hcount
      rw [List.forall_mem_cons] at hsafe
      simp only [encodeAll, readFor, read_encode hsafe.1, ih steps (by omega) hsafe.2]

/-- Wire-safe replies one after another are read back, and then the input is over. -/
theorem readAll_encodeAll {replies : List Reply} (h : ∀ reply ∈ replies, reply.WireSafe) :
    readAll (encodeAll replies) = (replies, .connectionClosed) := by
  have hlength : replies.length ≤ (encodeAll replies).length := by
    clear h
    induction replies with
    | nil => exact Nat.le_refl _
    | cons reply rest ih =>
        have hpos := reply.encode_length_pos
        rw [encodeAll, List.length_append, List.length_cons]
        omega
  exact readFor_encodeAll replies _ (by omega) h

end Reply

end KeyValue
