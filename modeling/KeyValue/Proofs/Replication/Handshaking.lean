import KeyValue.Replication.Handshake
import KeyValue.Proofs.Text.Words
import KeyValue.Proofs.Wire.Codec

/-!
# The replica's side of the handshake

A replica asks one thing after another, and each time waits for the whole answer before it goes on.

A handshake is a list of lines: a request, and the bytes that answer it. How far the replica has got
is known from the bytes that have arrived, as long as these are the beginning of the answers: it has
asked everything up to the first request whose answer is not complete (`said`). When the last answer
has arrived the handshake has succeeded, and what is behind that answer is left (`runFrom_lines`).

## Main definitions

* `Handshake.Line`: A request with the bytes that answer it.
* `Handshake.lines`: The lines of a handshake.
* `Handshake.said`: What the replica has said when some bytes have arrived.

## Theorems

* `said_append`, `said_mono`: What is said when more arrives.
* `announcement_header`, `readResync_welcome`: The announcement of a master is read back.
* `runFrom_lines`: A handshake with the right answers.
-/

namespace KeyValue

namespace Handshake

open Wire

/-- A request with the bytes that answer it. -/
structure Line where
  request : Bytes
  answer : Bytes

/-- All requests, one after another. -/
def requests (lines : List Line) : Bytes := lines.flatMap (·.request)

/-- All answers, one after another. -/
def answers (lines : List Line) : Bytes := lines.flatMap (·.answer)

/-- What the replica has said when these bytes have arrived: it waits for each answer before it
    sends the next request. -/
def said : List Line → Bytes → Bytes
  | [], _ => []
  | line :: later, arrived =>
    line.request ++
      if line.answer <+: arrived then said later (arrived.drop line.answer.length) else []

theorem said_append (answered later : List Line) (arrived : Bytes) :
    said (answered ++ later) (answers answered ++ arrived) =
      requests answered ++ said later arrived := by
  induction answered with
  | nil => rfl
  | cons line rest ih =>
      have harrived : answers (line :: rest) ++ arrived =
          line.answer ++ (answers rest ++ arrived) := by
        rw [answers, List.flatMap_cons, List.append_assoc, ← answers]
      rw [List.cons_append, harrived, said, if_pos (List.prefix_append _ _), List.drop_left, ih,
        requests, requests, List.flatMap_cons, List.append_assoc]

/-- When more arrives, what was said before stays said. -/
theorem said_mono (lines : List Line) :
    ∀ {arrived later : Bytes}, arrived <+: later → said lines arrived <+: said lines later := by
  induction lines with
  | nil => exact fun _ => List.prefix_refl _
  | cons line rest ih =>
      intro arrived later h
      simp only [said, List.prefix_append_right_inj]
      split
      · rename_i hanswer
        rw [if_pos (hanswer.trans h)]
        rcases hanswer with ⟨rest, rfl⟩
        rcases h with ⟨more, rfl⟩
        rw [List.append_assoc, List.drop_left, List.drop_left]
        exact ih (List.prefix_append _ _)
      · exact List.nil_prefix

/-- Bytes at the beginning of an answer and what follows it hold the answer, or are cut short. -/
theorem answered_or_cut_short {arrived answer more : Bytes} (h : arrived <+: answer ++ more) :
    (∃ rest, arrived = answer ++ rest ∧ rest <+: more) ∨
      ∃ back, arrived ++ back = answer ∧ back ≠ [] ∧ ¬answer <+: arrived := by
  by_cases hanswer : answer <+: arrived
  · rcases hanswer with ⟨rest, rfl⟩
    exact Or.inl ⟨rest, rfl, (List.prefix_append_right_inj _).mp h⟩
  · rcases List.prefix_or_prefix_of_prefix h (List.prefix_append answer more) with hcut | hwhole
    · rcases hcut with ⟨back, rfl⟩
      refine Or.inr ⟨back, rfl, ?_, hanswer⟩
      rintro rfl
      exact hanswer ((List.append_nil arrived).symm ▸ List.prefix_refl _)
    · exact absurd hwhole hanswer

namespace Exchange

/-- The line of an exchange. -/
def line (exchange : Exchange) : Line :=
  ⟨request exchange.words, (Reply.simple exchange.expected).encode⟩

variable (exchange : Exchange) (h : '\n' ∉ exchange.expected.toList)
include h

theorem check_answer (rest : Bytes) :
    exchange.check (exchange.line.answer ++ rest) = (.ok (), rest) := by
  have hread := @Reply.read_encode (.simple exchange.expected) ⟨trivial, h⟩ rest
  simp only [check, line, hread, Text.sameWord_iff, if_true]

theorem check_cut_short {front back : Bytes} (hcut : front ++ back = exchange.line.answer)
    (hback : back ≠ []) : ∃ e rest, exchange.check front = (.error e, rest) := by
  rcases @Reply.read_cut_short (.simple exchange.expected) ⟨trivial, h⟩ _ _ hcut hback with
    ⟨e, rest, hread⟩
  exact ⟨e, rest, by simp only [check, hread]⟩

end Exchange

namespace Resync

variable (resync : Resync)

/-- The reply that announces the id and the offset. -/
def header : Reply :=
  .simple s!"FULLRESYNC {resync.replicationId} {Decimal.ofUInt64 resync.offset}"

/-- What a master answers to the request for a resync. -/
def welcome : Bytes := resync.header.encode ++ (Reply.snapshot resync.snapshot).encode

/-- The line of a resync. -/
def line : Line := ⟨request resyncRequest, resync.welcome⟩

end Resync

-- Digits are not blank.
theorem isWord_ofUInt64 (n : UInt64) : Text.IsWord (Decimal.ofUInt64 n) := by
  refine ⟨?_, fun c hmem => ?_⟩
  · rcases Decimal.repr_eq_cons n.toNat with ⟨c, digits, hcons, -⟩
    rw [Decimal.ofUInt64, hcons]
    exact List.cons_ne_nil _ _
  · have hdigit := Decimal.repr_isDigit hmem
    simp only [Char.isDigit, ge_iff_le, Bool.and_eq_true, decide_eq_true_eq,
      UInt32.le_iff_toNat_le] at hdigit
    have hlow : 48 ≤ c.toNat := hdigit.1
    have hhigh : c.toNat ≤ 57 := hdigit.2
    simp only [Text.isBlank, Bool.or_eq_false_iff, Bool.and_eq_false_iff, decide_eq_false_iff_not,
      beq_eq_false_iff_ne]
    omega

variable {resync : Resync}

theorem header_toList (resync : Resync) :
    (s!"FULLRESYNC {resync.replicationId} {Decimal.ofUInt64 resync.offset}").toList =
      "FULLRESYNC".toList ++ ' ' :: (resync.replicationId.toList ++
        ' ' :: (Decimal.ofUInt64 resync.offset).toList) := by
  change ("FULLRESYNC " ++ resync.replicationId ++ " " ++
    Decimal.ofUInt64 resync.offset).toList = _
  simp

/-- The id and the offset are read back if the id is a word. -/
theorem announcement_header (h : Text.IsWord resync.replicationId) :
    announcement resync.header = .ok (resync.replicationId, resync.offset) := by
  have hoffset := isWord_ofUInt64 resync.offset
  have hwords : Text.words s!"FULLRESYNC {resync.replicationId} {Decimal.ofUInt64 resync.offset}" =
      ["FULLRESYNC", resync.replicationId, Decimal.ofUInt64 resync.offset] := by
    have htag : Text.IsWord "FULLRESYNC" := ⟨by decide, by simp [Text.isBlank]⟩
    rw [Text.words, header_toList, Text.wordsBy_cons htag.1 htag.2 (by decide),
      Text.wordsBy_cons h.1 h.2 (by decide), Text.wordsBy_word hoffset.1 hoffset.2]
    simp
  simp only [announcement, Resync.header, hwords, Text.sameWord_iff, if_true,
    Decimal.uint64?_ofUInt64]

section Snapshot

variable {payload : Bytes}

-- The header of a snapshot is read back, and the snapshot is what follows.
theorem readLine_snapshot (payload rest : Bytes) :
    readLine ((Reply.snapshot payload).encode ++ rest) =
      (.ok (String.ofList ('$' :: (Nat.repr payload.length).toList)), payload ++ rest) := by
  rw [readLine_eq_ok_iff]
  refine ⟨?_, ?_, ?_⟩
  · rw [← String.toList_inj.ne, String.toList_ofList]
    exact List.cons_ne_nil _ _
  · rw [String.toList_ofList, List.mem_cons, not_or]
    exact ⟨by decide, Decimal.lineFeed_notMem_repr _⟩
  · rw [Reply.encode, Reply.lengthLine_eq, Reply.line, List.append_assoc]

theorem snapshotLength_header (h : payload.length ≤ maxBulkLength) :
    snapshotLength (String.ofList ('$' :: (Nat.repr payload.length).toList)) =
      .ok payload.length := by
  have hbound : payload.length ≤ Decimal.maxUInt64 := h.trans (by decide)
  simp only [snapshotLength, String.toList_ofList, Decimal.bounded?_repr hbound, gt_iff_lt,
    Nat.not_lt.mpr h, if_false]

/-- A snapshot is read back, and what is behind it is left. -/
theorem readSnapshot_encode (h : payload.length ≤ maxBulkLength) (rest : Bytes) :
    readSnapshot ((Reply.snapshot payload).encode ++ rest) = (.ok payload, rest) := by
  simp only [readSnapshot, readLine_snapshot, snapshotLength_header h, List.length_append,
    Nat.le_add_right, if_true, List.take_left, List.drop_left]

/-- A snapshot that is cut short is not read. -/
theorem readSnapshot_cut_short (h : payload.length ≤ maxBulkLength) {front back : Bytes}
    (hcut : front ++ back = (Reply.snapshot payload).encode) (hback : back ≠ []) :
    ∃ e rest, readSnapshot front = (.error e, rest) := by
  have hwhole := readLine_snapshot payload []
  rw [List.append_nil, List.append_nil, ← hcut] at hwhole
  rcases hline : readLine front with ⟨e | header, rest⟩
  · exact ⟨e, rest, by simp only [readSnapshot, hline]⟩
  · -- The whole header was read, and the bytes behind it are too few.
    have hlonger : readLine (front ++ back) = (.ok header, rest ++ back) := by
      rw [readLine_eq_ok_iff] at hline ⊢
      exact ⟨hline.1, hline.2.1, by rw [hline.2.2, List.append_assoc]⟩
    rw [hwhole] at hlonger
    obtain ⟨hheader, hpayload⟩ := Prod.mk.inj hlonger
    obtain rfl := Except.ok.inj hheader
    have hfew : ¬payload.length ≤ rest.length := by
      have hpos := List.length_pos_iff.mpr hback
      rw [hpayload, List.length_append]
      omega
    simp only [readSnapshot, hline, snapshotLength_header h, if_neg hfew]
    exact ⟨_, _, rfl⟩

end Snapshot

/-- What a master announces can be read back: the id is a word, and the snapshot is not too long. -/
structure Resync.Readable (resync : Resync) : Prop where
  word : Text.IsWord resync.replicationId
  fits : resync.snapshot.length ≤ maxBulkLength

section Resync

variable (h : resync.Readable)
include h

theorem header_wireSafe : resync.header.WireSafe := by
  refine ⟨trivial, ?_⟩
  change '\n' ∉ (s!"FULLRESYNC {resync.replicationId} {Decimal.ofUInt64 resync.offset}").toList
  have hid : '\n' ∉ resync.replicationId.toList := fun hmem =>
    absurd (h.word.2 _ hmem) (by decide)
  have hoffset : '\n' ∉ (Decimal.ofUInt64 resync.offset).toList :=
    Decimal.lineFeed_notMem_repr resync.offset.toNat
  rw [header_toList, List.mem_append, List.mem_cons, List.mem_append, List.mem_cons]
  simp only [hid, hoffset, or_false]
  decide

/-- The announcement of a master is read back, and what is behind it is left. -/
theorem readResync_welcome (rest : Bytes) :
    readResync (resync.welcome ++ rest) = (.ok resync, rest) := by
  rw [Resync.welcome, List.append_assoc]
  simp only [readResync, Reply.read_encode (header_wireSafe h), announcement_header h.word,
    readSnapshot_encode h.fits]

/-- An announcement that is cut short is not read. -/
theorem readResync_cut_short {front back : Bytes} (hcut : front ++ back = resync.welcome)
    (hback : back ≠ []) : ∃ e rest, readResync front = (.error e, rest) := by
  have hfront : front <+: resync.header.encode ++ (Reply.snapshot resync.snapshot).encode :=
    ⟨back, hcut⟩
  rcases answered_or_cut_short hfront with ⟨rest, rfl, hrest⟩ | ⟨missing, hmissing, hne, -⟩
  · -- The header has arrived, and the snapshot is cut short.
    rw [Resync.welcome, List.append_assoc] at hcut
    rcases readSnapshot_cut_short h.fits (List.append_cancel_left hcut) hback with
      ⟨e, unread, hsnapshot⟩
    exact ⟨e, unread, by simp only [readResync, Reply.read_encode (header_wireSafe h),
      announcement_header h.word, hsnapshot]⟩
  · rcases Reply.read_cut_short (header_wireSafe h) hmissing hne with ⟨e, unread, hread⟩
    exact ⟨e, unread, by simp only [readResync, hread]⟩

/-- The lines of a handshake: the exchanges, and then the resync. -/
def lines (exchanges : List Exchange) (resync : Resync) : List Line :=
  exchanges.map (·.line) ++ [resync.line]

/-- With the right answers, as far as they have arrived, the replica says what it should. It
    succeeds exactly when all answers have arrived, with what was announced, and what is behind the
    answers is left. -/
theorem runFrom_lines (exchanges : List Exchange)
    (hexchanges : ∀ exchange ∈ exchanges, '\n' ∉ exchange.expected.toList) :
    ∀ {input more : Bytes}, input <+: answers (lines exchanges resync) ++ more →
      (runFrom exchanges input).sent = said (lines exchanges resync) input ∧
      ((∃ found, (runFrom exchanges input).outcome = .ok found) →
        answers (lines exchanges resync) <+: input) ∧
      (answers (lines exchanges resync) <+: input →
        (runFrom exchanges input).outcome = .ok resync ∧
        input = answers (lines exchanges resync) ++ (runFrom exchanges input).unread) := by
  induction exchanges with
  | nil =>
      intro input more hinput
      have hanswers : answers (lines [] resync) = resync.welcome := List.append_nil _
      rw [hanswers] at hinput ⊢
      refine ⟨?_, ?_⟩
      · simp [runFrom, lines, said, Resync.line]
      · rcases answered_or_cut_short hinput with ⟨rest, rfl, -⟩ | ⟨back, hcut, hback, hshort⟩
        · simp [runFrom, readResync_welcome h]
        · rcases readResync_cut_short h hcut hback with ⟨e, unread, hread⟩
          simp [runFrom, hread, hshort]
  | cons exchange later ih =>
      intro input more hinput
      rw [List.forall_mem_cons] at hexchanges
      have hanswers : answers (lines (exchange :: later) resync) =
          exchange.line.answer ++ answers (lines later resync) := rfl
      rw [hanswers, List.append_assoc] at hinput
      rw [hanswers]
      rcases answered_or_cut_short hinput with ⟨rest, rfl, hrest⟩ | ⟨back, hcut, hback, hshort⟩
      · have hcheck := exchange.check_answer hexchanges.1 rest
        rcases ih hexchanges.2 hrest with ⟨hsent, hfound, hall⟩
        simp only [runFrom, hcheck, List.prefix_append_right_inj]
        refine ⟨?_, hfound, fun hwhole => ?_⟩
        · simp only [hsent, lines, List.map_cons, List.cons_append, said, List.prefix_append,
            if_true, List.drop_left]
          rfl
        · refine ⟨(hall hwhole).1, ?_⟩
          rw [List.append_assoc, ← (hall hwhole).2]
      · rcases exchange.check_cut_short hexchanges.1 hcut hback with ⟨e, unread, hcheck⟩
        have hnot : ¬exchange.line.answer ++ answers (lines later resync) <+: input := fun hall =>
          hshort ((List.prefix_append _ _).trans hall)
        simp only [runFrom, hcheck, reduceCtorEq, exists_false, false_implies, hnot, and_true]
        simp only [lines, List.map_cons, List.cons_append, said, hshort, if_false, List.append_nil]
        rfl

end Resync

end Handshake

end KeyValue
