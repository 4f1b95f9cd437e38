import KeyValue.Proofs.Framing.Frames

/-!
# Every byte of a stream is accounted for

A framer hands out commands, drops unknown ones and skips blank lines. Whatever it has received is
one of these pieces, or is still buffered: the bytes of the pieces in order, and the buffer behind
them, are the bytes that came in. And each piece stands for itself: a fresh framer that is fed the
bytes of a piece alone makes the same of them and keeps nothing (`Piece.Sound`).

A framer that is drained piece by piece reads the stream, up to the delivery in which it is refused
(`drainAll_reads`). A look either uses bytes for the command in progress, or it ends a piece; so the
bytes of the pieces, those read of the command in progress and those still ahead make up the stream
at every place where reading can stop (`Reads.accounts`).

## Main definitions

* `Framer.Piece`: A part of a stream that a framer has done with.
* `Framer.Piece.Sound`: What a fresh framer makes of the bytes of the piece.

## Theorems

* `drainAll_reads`: Draining piece by piece is reading.
* `feed_of_reads`, `exists_piece`: The bytes of a command stand for themselves.
* `Reads.accounts`: Reading loses, doubles and moves no byte.
* `drainAll_accounts`: Neither does a framer, however the stream is cut.
-/

namespace KeyValue

namespace Framer

open Wire

/-- A part of a stream that a framer has done with. -/
inductive Piece where
  /-- A command that was handed out. -/
  | command (held : Command)
  /-- The bytes of a command whose name is not known. -/
  | unknown (name : String) (bytes : Bytes)
  /-- A blank line between commands, with its line feed. -/
  | blank (line : Bytes)
  deriving DecidableEq, Repr

namespace Piece

/-- The bytes of a piece. -/
def bytes : Piece → Bytes
  | .command held => held.raw
  | .unknown _ bytes => bytes
  | .blank line => line

/-- What is reported of a piece; nothing of a blank line. -/
def event? : Piece → Option Event
  | .command held => some (.ok held)
  | .unknown name _ => some (.error (.unknownCommand name))
  | .blank _ => none

/-- A fresh framer that is fed the bytes of the piece alone makes the same of them, and keeps
    nothing. -/
def Sound : Piece → Prop
  | .command held => empty.feed held.raw = (.ok true, ⟨[], .complete held⟩)
  | .unknown name bytes => empty.feed bytes = (.error (.unknownCommand name), empty)
  | .blank line => empty.feed line = (.ok false, empty) ∧
      ∃ content, 10 ∉ content ∧ content.all isBlankByte = true ∧ line = content ++ [10]

end Piece

/-- Draining piece by piece reads the deliveries one behind the other, up to the one in which the
    stream is refused. -/
theorem drainAll_reads (chunks : List Bytes) :
    ∀ (position : Position) (bytes : Bytes), ∃ taken rest events last left,
      chunks = taken ++ rest ∧ Reads position (bytes ++ taken.flatten) events last left ∧
      (rest = [] ∧ (framerAt position bytes).drainAll chunks = (events, framerAt last left) ∨
        ∃ e, e.isProtocol = true ∧ (framerAt position bytes).drainAll chunks =
          (events ++ [.error e], ⟨last.read ++ left, .failed⟩)) := by
  induction chunks with
  | nil =>
      intro position bytes
      refine ⟨[], [], [], position, bytes, rfl, ?_, .inl ⟨rfl, rfl⟩⟩
      rw [List.flatten_nil, List.append_nil]
      exact .here _ _
  | cons chunk chunks ih =>
      intro position bytes
      rcases drain_cases position bytes chunk with
        ⟨before, middle, ahead, hreads, ⟨_, hdrain⟩ | ⟨e, hrefused, hdrain⟩⟩
      · rcases ih middle ahead with ⟨taken, rest, events, last, left, rfl, hlater, hends⟩
        refine ⟨chunk :: taken, rest, before ++ events, last, left, rfl, ?_, ?_⟩
        · rw [List.flatten_cons, ← List.append_assoc]
          exact (hreads.append _).trans hlater
        · rw [drainAll_cons_rest hdrain]
          rcases hends with ⟨rfl, hrests⟩ | ⟨e, hprotocol, hfails⟩
          · exact .inl ⟨rfl, by rw [hrests]⟩
          · exact .inr ⟨e, hprotocol, by rw [hfails, List.append_assoc]⟩
      · refine ⟨[chunk], chunks, before, middle, ahead, rfl, ?_, ?_⟩
        · rw [List.flatten_cons, List.flatten_nil, List.append_nil]
          exact hreads
        · exact .inr ⟨e, look_isProtocol hrefused, drainAll_cons_failed hdrain chunks⟩

/-- A fresh framer that is fed bytes comes to where no move is left within them. -/
theorem feed_of_reads {last : Position} {bytes left : Bytes} (h : Reads .start bytes [] last left)
    (hmoved : ∀ next rest, look last left ≠ .moved next rest) :
    empty.feed bytes = fed last left := by
  rcases feed_framerAt .start [] bytes with ⟨last', left', hreads, hmoved', hfeed⟩
  rcases hreads.unique_settled hmoved' h hmoved with ⟨rfl, rfl⟩
  exact hfeed

-- A line without the carriage return at its end is as blank as the line.
theorem all_blank_of_stripReturn {content : Bytes}
    (h : (stripReturn content).all isBlankByte = true) : content.all isBlankByte = true := by
  unfold stripReturn at h
  split at h
  · rename_i hlast
    rcases List.eq_nil_or_concat content with rfl | ⟨front, byte, rfl⟩
    · rfl
    · rw [List.concat_eq_append, List.getLast?_concat, Option.some.injEq] at hlast
      rw [List.concat_eq_append, List.dropLast_concat] at h
      rw [List.concat_eq_append, List.all_append, h, hlast]
      rfl
  · exact h

-- A look that leads from the start to the start has skipped a blank line.
theorem blank_of_look {bytes rest : Bytes} (h : look .start bytes = .moved .start rest) :
    ∃ content, 10 ∉ content ∧ content.all isBlankByte = true ∧ bytes = content ++ 10 :: rest := by
  simp only [look] at h
  rcases hline : lineAt bytes with e | _ | line
  · simp only [hline, reduceCtorEq] at h
  · simp only [hline, reduceCtorEq] at h
  · simp only [hline, lookCommand] at h
    rcases (findLine_eq_some_iff _ _).mp (lineAt_eq_some hline) with
      ⟨content, behind, hfeed, rfl, rfl⟩
    split at h
    · split at h <;> simp at h
    · split at h
      · rename_i hblank
        refine ⟨content, hfeed, all_blank_of_stripReturn hblank, ?_⟩
        simp only [Outlook.moved.injEq, true_and] at h
        rw [← h, List.drop_length_add_append]
        rfl
      · split at h <;> simp at h

-- The bytes of a command are a piece, whether its name is known or not.
theorem exists_piece {position : Position} {used : Bytes} {event : Event} {name : String}
    {args : List String} (hcontained : Contained position)
    (hlook : look position used = .found event [])
    (hevent : event = eventOf name args (position.read ++ used)) :
    ∃ piece : Piece, piece.Sound ∧ piece.event? = some event ∧
      piece.bytes = position.read ++ used := by
  have halone := feed_of_reads (hcontained.append used) (by simp [hlook])
  rw [fed, List.nil_append, hlook] at halone
  unfold eventOf at hevent
  split at hevent
  · rename_i known _
    rw [hevent] at halone ⊢
    exact ⟨.command ⟨known, args, position.read ++ used⟩, halone, rfl, rfl⟩
  · rw [hevent] at halone ⊢
    exact ⟨.unknown name (position.read ++ used), halone, rfl, rfl⟩

/-- Reading on from a position that is reached by what it has read leads to another such position,
    and what was read and is still ahead there is what was before, without the pieces on the way. -/
theorem Reads.accounts {position last : Position} {bytes left : Bytes} {events : List Event}
    (h : Reads position bytes events last left) (hcontained : Contained position) :
    ∃ pieces : List Piece, (∀ piece ∈ pieces, piece.Sound) ∧
      pieces.filterMap Piece.event? = events ∧
      position.read ++ bytes = pieces.flatMap Piece.bytes ++ (last.read ++ left) := by
  induction h with
  | here => exact ⟨[], by simp, rfl, rfl⟩
  | @move position next _ bytes rest _ _ hlook _ ih =>
      rcases look_moved_consumes hlook with ⟨used, _, rfl, hused, hread | ⟨rfl, rfl⟩⟩
      · -- The bytes are read for the command in progress.
        have hnext : Contained next := by
          unfold Contained at hcontained ⊢
          rw [hread]
          exact (hcontained.append used).trans (.move hused (.here _ _))
        rcases ih hnext with ⟨pieces, hsound, hevents, hbytes⟩
        refine ⟨pieces, hsound, hevents, ?_⟩
        rw [← hbytes, hread, List.append_assoc]
      · -- The bytes are a blank line, and what comes behind it is accounted for.
        rcases ih hcontained with ⟨pieces, hsound, hevents, hbytes⟩
        have halone := feed_of_reads (.move hused (.here _ _)) (by simp [look, lineAt, findLine])
        have hblank : (Piece.blank used).Sound := ⟨halone, blank_of_look hused⟩
        refine ⟨.blank used :: pieces, List.forall_mem_cons.mpr ⟨hblank, hsound⟩, hevents, ?_⟩
        rw [List.flatMap_cons, List.append_assoc, ← hbytes]
        rfl
  | @event position _ bytes rest _ event _ hlook _ ih =>
      rcases look_found_consumes hlook with ⟨used, _, rfl, hused, name, args, hevent⟩
      rcases ih (.here _ _) with ⟨pieces, hsound, hevents, hbytes⟩
      rcases exists_piece hcontained hused hevent with ⟨piece, hpiece, hreported, hraw⟩
      refine ⟨piece :: pieces, List.forall_mem_cons.mpr ⟨hpiece, hsound⟩, ?_, ?_⟩
      · rw [List.filterMap_cons_some hreported, hevents]
      · rw [List.flatMap_cons, hraw, List.append_assoc, ← hbytes, ← List.append_assoc]
        rfl

/-- However a stream is cut into pieces, as long as it is not refused its bytes are those of the
    commands that are handed out, of the unknown commands and of the blank lines, in order, and
    behind them what is still buffered. And the bytes of each command that is handed out are the
    same command by themselves, with nothing left behind. -/
theorem drainAll_accounts (chunks : List Bytes) :
    ((∀ e, .error e ∈ (empty.drainAll chunks).1 → e.isProtocol = false) →
      ∃ pieces : List Piece, (∀ piece ∈ pieces, piece.Sound) ∧
        pieces.filterMap Piece.event? = (empty.drainAll chunks).1 ∧
        chunks.flatten = pieces.flatMap Piece.bytes ++ (empty.drainAll chunks).2.buffer) ∧
    ∀ command, .ok command ∈ (empty.drainAll chunks).1 →
      ∃ framer, empty.feed command.raw = (.ok true, framer) ∧
        framer.take = (some command, empty) := by
  rcases drainAll_reads chunks .start [] with
    ⟨taken, rest, events, last, left, rfl, hreads, hends⟩
  rcases hreads.accounts (.here _ _) with ⟨pieces, hsound, hevents, hbytes⟩
  change (rest = [] ∧ empty.drainAll _ = _) ∨ (∃ e, _ ∧ empty.drainAll _ = _) at hends
  constructor
  · intro hframes
    rcases hends with ⟨rfl, hrests⟩ | ⟨e, hprotocol, hfails⟩
    · refine ⟨pieces, hsound, ?_, ?_⟩
      · rw [hrests, hevents]
      · rw [hrests, framerAt_buffer, List.append_nil, ← hbytes]
        rfl
    · -- A refusal would be the last event.
      rw [hfails] at hframes
      have hframed := hframes e (List.mem_append_right _ List.mem_cons_self)
      rw [hprotocol] at hframed
      exact absurd hframed (by decide)
  · intro command hmem
    -- A command is no refusal, so it is one of those that were read.
    have hread : .ok command ∈ events := by
      rcases hends with ⟨-, hrests⟩ | ⟨e, -, hfails⟩
      · rw [hrests] at hmem
        exact hmem
      · rw [hfails] at hmem
        simpa using hmem
    rw [← hevents, List.mem_filterMap] at hread
    rcases hread with ⟨piece, hpiece, hreported⟩
    have halone := hsound piece hpiece
    cases piece with
    | command held =>
        simp only [Piece.event?, Option.some.injEq, Except.ok.injEq] at hreported
        rw [← hreported]
        exact ⟨_, halone, rfl⟩
    | unknown name bytes => simp [Piece.event?] at hreported
    | blank line => simp [Piece.event?] at hreported

/-- A blank line, an array that is cut in two, an unknown command, and the beginning of a line. -/
theorem drainAll_accounts_mixed :
    let ping : Bytes := [42, 49, 13, 10, 36, 52, 13, 10, 80, 73, 78, 71, 13, 10]
    let chunks : List Bytes := [13 :: 10 :: ping.take 9, ping.drop 9 ++ [78, 79, 10, 71, 69]]
    (empty.drainAll chunks).1 = [.ok ⟨.ping, [], ping⟩, .error (.unknownCommand "NO")] ∧
      ∃ pieces : List Piece, (∀ piece ∈ pieces, piece.Sound) ∧
        pieces.filterMap Piece.event? = (empty.drainAll chunks).1 ∧
        chunks.flatten = pieces.flatMap Piece.bytes ++ [71, 69] := by
  intro ping chunks
  have hevents : (empty.drainAll chunks).1 =
      [.ok ⟨.ping, [], ping⟩, .error (.unknownCommand "NO")] := by decide +kernel
  have hframes : ∀ e, .error e ∈ (empty.drainAll chunks).1 → e.isProtocol = false := by
    rw [hevents]
    simp [Error.isProtocol]
  rcases (drainAll_accounts chunks).1 hframes with ⟨pieces, hsound, hreported, hbytes⟩
  have hbuffer : (empty.drainAll chunks).2.buffer = [71, 69] := by decide +kernel
  exact ⟨hevents, pieces, hsound, hreported, hbuffer ▸ hbytes⟩

end Framer

end KeyValue
