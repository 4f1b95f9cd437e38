import KeyValue.Proofs.Framing.Buffering

/-!
# Framing does not depend on segmentation

A stream is read to the same events however it is cut into pieces.

A framer that is drained after each piece rests at a position between two of them, so all pieces
together are one reading of the whole stream (`drainAll_framerAt`). There is only one such reading
that goes as far as it can (`Reads.unique`). What could come between is a line refused for its
length before its line feed has arrived, and `ShortLines` rules it out.

## Main definitions

* `Framer.drainAll`: Draining a framer piece by piece.

## Theorems

* `drainAll_framerAt`: Draining piece by piece reads the whole stream.
* `drainAll_flatten`: The events depend on the stream alone, and the short way for arrays yields
  what the long way yields.
-/

namespace KeyValue

namespace Framer

open Wire

/-- Drain a framer piece by piece, until the stream turns out to be malformed. -/
def drainAll : Framer → List Bytes → List Event × Framer
  | framer, [] => ([], framer)
  | framer, chunk :: chunks =>
    let (events, framer) := framer.drain chunk
    match framer.progress with
    | .failed => (events, framer)
    | _ =>
      let (later, framer) := framer.drainAll chunks
      (events ++ later, framer)

/-- A framer that rests at a position has not failed, and goes on to the next piece. -/
theorem drainAll_cons_rest {framer : Framer} {chunk : Bytes} {events : List Event}
    {last : Position} {left : Bytes} (h : framer.drain chunk = (events, framerAt last left))
    (chunks : List Bytes) :
    framer.drainAll (chunk :: chunks) =
      (events ++ ((framerAt last left).drainAll chunks).1,
        ((framerAt last left).drainAll chunks).2) := by
  rw [drainAll, h]
  cases last <;> rfl

/-- A framer that has failed takes no further piece. -/
theorem drainAll_cons_failed {framer : Framer} {chunk : Bytes} {events : List Event}
    {buffer : Bytes} (h : framer.drain chunk = (events, ⟨buffer, .failed⟩))
    (chunks : List Bytes) :
    framer.drainAll (chunk :: chunks) = (events, ⟨buffer, .failed⟩) := by
  rw [drainAll, h]

/-- Draining piece by piece reads the whole stream. A framer that is not stopped by a malformed
    stream rests at the end of it. -/
theorem drainAll_framerAt (chunks : List Bytes) :
    ∀ (position : Position) (bytes : Bytes), look position bytes = .more →
      ShortLines position (bytes ++ chunks.flatten) →
      ∃ events last left, Reads position (bytes ++ chunks.flatten) events last left ∧
        Stops last left ∧
        ((framerAt position bytes).drainAll chunks).1 = (drained events last left).1 ∧
        (look last left = .more →
          ((framerAt position bytes).drainAll chunks).2 = framerAt last left) := by
  induction chunks with
  | nil =>
      intro position bytes hmore _
      refine ⟨[], position, bytes, ?_, Or.inl hmore, ?_, fun _ => rfl⟩
      · rw [List.flatten_nil, List.append_nil]
        exact .here _ _
      · simp only [drainAll, drained, hmore]
  | cons chunk chunks ih =>
      intro position bytes _ hshort
      rw [List.flatten_cons, ← List.append_assoc] at hshort ⊢
      rcases drain_framerAt position bytes chunk with ⟨events, last, left, hreads, hstops, hdrain⟩
      -- The piece is read in the same way with the rest of the stream behind it.
      have hreads := hreads.append chunks.flatten
      rcases hstops with hmore | ⟨e, hrefused⟩
      · have hdrain : (framerAt position bytes).drain chunk = (events, framerAt last left) := by
          rw [hdrain]
          simp only [drained, hmore]
        rcases ih last left hmore (hshort.of_reads hreads) with
          ⟨later, last', left', hreads', hstops', hevents, hrest⟩
        rw [drainAll_cons_rest hdrain]
        refine ⟨events ++ later, last', left', hreads.trans hreads', hstops', ?_, hrest⟩
        rw [hevents]
        unfold drained
        split
        · exact (List.append_assoc _ _ _).symm
        · rfl
      · -- What is refused now would be refused with the rest of the stream in sight as well.
        have hrefused' := look_refused_append hrefused chunks.flatten (hshort _ _ _ hreads)
        have hdrain : (framerAt position bytes).drain chunk =
            (events ++ [.error e], ⟨last.read ++ left, .failed⟩) := by
          rw [hdrain]
          simp only [drained, hrefused]
        rw [drainAll_cons_failed hdrain]
        refine ⟨events, last, left ++ chunks.flatten, hreads, Or.inr ⟨e, hrefused'⟩, ?_, ?_⟩
        · simp only [drained, hrefused']
        · intro hmore
          simp only [hrefused', reduceCtorEq] at hmore

/-- A stream that is no longer than a line may be holds no line that is too long. -/
theorem ShortLines.of_length_le {bytes : Bytes} (position : Position)
    (h : bytes.length ≤ maxLineLength + 1) : ShortLines position bytes := by
  intro events last left hreads _ line hfind
  have hleft := hreads.length_le
  have hsize := findLine_size hfind
  omega

-- A fresh framer that is drained piece by piece reads the whole stream.
theorem drainAll_empty (chunks : List Bytes) (hshort : ShortLines .start chunks.flatten) :
    ∃ events last left, Reads .start chunks.flatten events last left ∧ Stops last left ∧
      (empty.drainAll chunks).1 = (drained events last left).1 ∧
      (look last left = .more → (empty.drainAll chunks).2 = framerAt last left) :=
  drainAll_framerAt chunks .start [] rfl hshort

/-- Two readings that go as far as they can are the same. -/
theorem Reads.unique {position last last' : Position} {bytes left left' : Bytes}
    {events events' : List Event} (h : Reads position bytes events last left)
    (hstops : Stops last left) (h' : Reads position bytes events' last' left')
    (hstops' : Stops last' left') : events = events' ∧ last = last' ∧ left = left' := by
  rcases h.resume h' hstops' with ⟨later, rfl, hlater⟩
  -- The second reading goes on from where the first one stops, so it goes nowhere.
  cases hlater with
  | here => exact ⟨(List.append_nil _).symm, rfl, rfl⟩
  | move hlook => rcases hstops with hmore | ⟨e, he⟩ <;> simp_all
  | event hlook => rcases hstops with hmore | ⟨e, he⟩ <;> simp_all

-- Within a command there is one place where no move is left.
theorem Reads.unique_settled {position last last' : Position} {bytes left left' : Bytes}
    (h : Reads position bytes [] last left)
    (hmoved : ∀ next rest, look last left ≠ .moved next rest)
    (h' : Reads position bytes [] last' left')
    (hmoved' : ∀ next rest, look last' left' ≠ .moved next rest) :
    last = last' ∧ left = left' := by
  generalize hevents : ([] : List Event) = events at h
  induction h with
  | here =>
      cases h' with
      | here => exact ⟨rfl, rfl⟩
      | move hlook => exact absurd hlook (hmoved _ _)
  | event => simp only [reduceCtorEq] at hevents
  | move hlook _ ih =>
      cases h' with
      | here => exact absurd hlook (hmoved' _ _)
      | move hlook' later =>
          rw [hlook] at hlook'
          rcases Outlook.moved.inj hlook' with ⟨rfl, rfl⟩
          exact ih hmoved later hevents

-- A line that is an array header starts with the mark of one.
theorem head_of_arrayHeader {bytes : Bytes} {line : BufferedLine} {declared : Nat}
    (hfind : findLine bytes = some line) (hheader : arrayHeader line.content = .ok declared) :
    bytes.head? = some 42 := by
  have hcontent : line.content.head? = some 42 := by
    unfold arrayHeader headerLength at hheader
    rcases hline : line.content with _ | ⟨first, digits⟩
    · simp only [hline, reduceCtorEq] at hheader
    · simp only [hline] at hheader
      by_cases hmark : first.toNat = ('*' : Char).toNat
      · have hfirst : first = 42 := UInt8.toNat_inj.mp hmark
        rw [hfirst, List.head?_cons]
      · simp only [if_neg hmark, reduceCtorEq] at hheader
  rw [findLine_eq_some_iff] at hfind
  rcases hfind with ⟨content, rest, _, rfl, rfl⟩
  -- The content of the line may have lost a carriage return at its end, never its first byte.
  simp only [stripReturn] at hcontent
  cases content with
  | nil => simp at hcontent
  | cons first content =>
      split at hcontent
      · cases content with
        | nil => simp at hcontent
        | cons second content => simpa using hcontent
      · simpa using hcontent

-- A framer takes an array whose header is there in the same way whether it can still read it in one
-- go or has begun to read it element by element.
theorem feed_array {bytes : Bytes} {line : BufferedLine} {declared : Nat}
    (hfind : findLine bytes = some line) (hheader : arrayHeader line.content = .ok declared) :
    (Framer.mk bytes .idle).feed [] =
      (Framer.mk bytes (.awaitingLength line.size declared [])).feed [] := by
  have hsize := findLine_size hfind
  have hmove : look .start bytes =
      .moved (.header (bytes.take line.size) declared []) (bytes.drop line.size) := by
    simp only [look, lineAt_of_findLine hfind, lookCommand,
      if_pos (head_of_arrayHeader hfind hheader), hheader]
  -- Once the header is read, the framer that goes element by element stands behind it.
  have hbegun : Framer.mk bytes (.awaitingLength line.size declared []) =
      framerAt (.header (bytes.take line.size) declared []) (bytes.drop line.size) := by
    simp only [framerAt, List.take_append_drop, List.length_take, Nat.min_eq_left hsize.2]
  rcases feed_framerAt .start bytes [] with ⟨last, left, hreads, hmoved, hfeed⟩
  rcases feed_framerAt (.header (bytes.take line.size) declared []) (bytes.drop line.size) []
    with ⟨last', left', hreads', hmoved', hfeed'⟩
  rw [List.append_nil] at hreads hreads'
  rcases hreads.unique_settled hmoved (.move hmove hreads') hmoved' with ⟨rfl, rfl⟩
  rw [hbegun, hfeed']
  exact hfeed

/-- The events of a stream depend on its bytes alone: two ways of cutting it into pieces, empty ones
    included, yield the same commands with the same bytes, the same unknown commands and the same
    refusal. And an array is taken in the same way in one go and element by element. -/
theorem drainAll_flatten (chunks chunks' : List Bytes) (hsame : chunks.flatten = chunks'.flatten)
    (hshort : ShortLines .start chunks.flatten) :
    (empty.drainAll chunks).1 = (empty.drainAll chunks').1 ∧
      ∀ bytes line declared, findLine bytes = some line → arrayHeader line.content = .ok declared →
        (Framer.mk bytes .idle).feed [] =
          (Framer.mk bytes (.awaitingLength line.size declared [])).feed [] := by
  constructor
  · rcases drainAll_empty chunks hshort with ⟨events, last, left, hreads, hstops, hevents, _⟩
    rw [hsame] at hshort hreads
    rcases drainAll_empty chunks' hshort with
      ⟨events', last', left', hreads', hstops', hevents', _⟩
    rcases hreads.unique hstops hreads' hstops' with ⟨rfl, rfl, rfl⟩
    rw [hevents, hevents']
  · intro bytes line declared hfind hheader
    exact feed_array hfind hheader

-- An array of one element, a blank line and an inline command, cut in two places and in none.
theorem drainAll_flatten_pieces :
    let ping : Bytes := [42, 49, 13, 10, 36, 52, 13, 10, 80, 73, 78, 71, 13, 10]
    let blank : Bytes := [13, 10]
    let echo : Bytes := [69, 67, 72, 79, 32, 97, 13, 10]
    ([ping.take 7, [], ping.drop 7 ++ blank ++ echo] : List Bytes).flatten =
        ([ping ++ blank ++ echo] : List Bytes).flatten ∧
      ShortLines .start ([ping.take 7, [], ping.drop 7 ++ blank ++ echo] : List Bytes).flatten ∧
      (empty.drainAll [ping.take 7, [], ping.drop 7 ++ blank ++ echo]).1 =
        (empty.drainAll [ping ++ blank ++ echo]).1 := by
  intro ping blank echo
  have hsame : ([ping.take 7, [], ping.drop 7 ++ blank ++ echo] : List Bytes).flatten =
      ([ping ++ blank ++ echo] : List Bytes).flatten := by
    simp [← List.append_assoc]
  have hshort : ShortLines .start
      ([ping.take 7, [], ping.drop 7 ++ blank ++ echo] : List Bytes).flatten := by
    refine ShortLines.of_length_le _ ?_
    decide
  exact ⟨hsame, hshort, (drainAll_flatten _ _ hsame hshort).1⟩

end Framer

end KeyValue
