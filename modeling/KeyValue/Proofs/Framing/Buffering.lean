import KeyValue.Proofs.Framing.Reading

/-!
# The buffer of a framer

A framer that rests between two deliveries is a position with the bytes ahead of it.

`framerAt` is that framer: its buffer holds what was read of the command in progress and, behind
the cursor, what was not read yet. Every step of the framer is a look from its position, except
for the one by which it takes an array that is buffered whole. `wholeArray_reads` accounts for that
step: the short way stops where reading element by element stops, with the same elements or with
the same refusal. So feeding a framer is reading on (`feed_framerAt`), and draining it is reading
on to the end (`drain_framerAt`), where the bounds on the number of steps are never reached.

## Main definitions

* `Framer.framerAt`: The framer that rests at a position.
* `Framer.Outlook.step`: The step of a framer with an outlook.
* `Framer.fed`: What a feed that reads up to a position leads to.

## Theorems

* `step_framerAt`: A step that does not take a whole array is a look.
* `step_next_shorter`: Every step but the last reads a byte or more.
* `wholeElements_refused`, `wholeElements_read`, `wholeArray_reads`: The short way for whole arrays
  is a way of reading.
* `run_framerAt`: Enough steps read on to where no move is left.
* `feed_framerAt`: A feed reads on to where no move is left.
* `drainFor_framerAt`, `drain_framerAt`, `drain_cases`: Draining reads on to the end.
-/

namespace KeyValue

namespace Framer

open Wire

/-- The framer that rests at a position, with the given bytes ahead of it. -/
def framerAt (position : Position) (unread : Bytes) : Framer :=
  match position with
  | .start => ⟨unread, .idle⟩
  | .header read declared elements =>
    ⟨read ++ unread, .awaitingLength read.length declared elements⟩
  | .value read declared elements length =>
    ⟨read ++ unread, .awaitingValue read.length declared elements length⟩

theorem framerAt_buffer (position : Position) (bytes : Bytes) :
    (framerAt position bytes).buffer = position.read ++ bytes := by
  cases position <;> rfl

theorem framerAt_unread (position : Position) (bytes : Bytes) :
    (framerAt position bytes).unread = bytes := by
  cases position <;> simp [framerAt, unread, cursor]

theorem framerAt_append (position : Position) (bytes more : Bytes) :
    { framerAt position bytes with buffer := (framerAt position bytes).buffer ++ more } =
      framerAt position (bytes ++ more) := by
  cases position <;> simp [framerAt]

/-- The step of a framer with an outlook. -/
def Outlook.step (framer : Framer) : Outlook → Step
  | .more => .rest framer
  | moved position rest => .next (framerAt position rest)
  | found (.ok command) rest => .rest ⟨rest, .complete command⟩
  | found (.error e) rest => .fail e ⟨rest, .idle⟩
  | refused e => .fail e framer

-- Finishing a command is finding it.
theorem finish_eq_step (framer found : Framer) (name : String) (args : List String) (size : Nat) :
    framer.finish name args size =
      (Outlook.found (eventOf name args (framer.buffer.take size))
        (framer.buffer.drop size)).step found := by
  unfold finish eventOf
  cases CommandName.ofText? name <;> rfl

-- Finishing an array is what its last element leads to.
theorem finishArray_eq_step (framer : Framer) (elements : List String) (size : Nat) :
    framer.finishArray elements size =
      (lookElement (framer.buffer.take size) elements.length elements
        (framer.buffer.drop size)).step framer := by
  unfold finishArray lookElement
  rw [if_pos rfl]
  cases elements with
  | nil => rfl
  | cons name args => exact finish_eq_step framer framer name args size

/-- Behind an element that is not the last one, the next one is expected. -/
theorem lookElement_of_ne {elements : List String} {declared : Nat}
    (h : elements.length ≠ declared) (read rest : Bytes) :
    lookElement read declared elements rest = .moved (.header read declared elements) rest := by
  unfold lookElement
  rw [if_neg h]

/-- A step of a framer is a look, unless it takes an array that is buffered whole. -/
theorem step_framerAt (position : Position) (bytes : Bytes)
    (h : position = .start → bytes.head? = some 42 → wholeArray bytes = .ok none) :
    (framerAt position bytes).step = (look position bytes).step (framerAt position bytes) := by
  cases position with
  | start =>
      rcases bytes with _ | ⟨first, rest⟩
      · rfl
      · by_cases hstar : first = 42
        · -- The array is not buffered whole, so its header is read like any other line.
          have hwhole := h rfl (by rw [hstar]; rfl)
          simp only [framerAt, step, stepIdle, if_pos hstar, hwhole, look]
          rcases hline : lineAt (first :: rest) with e | _ | line
          · rfl
          · rfl
          · simp only [lookCommand, List.head?_cons, hstar, if_true]
            cases arrayHeader line.content with
            | error e => rfl
            | ok declared =>
                have hsize := findLine_size (lineAt_eq_some hline)
                simp only [Outlook.step, framerAt, List.take_append_drop, List.length_take]
                rw [hstar] at hsize
                rw [Nat.min_eq_left hsize.2]
        · simp only [framerAt, step, stepIdle, if_neg hstar, look]
          rcases hline : lineAt (first :: rest) with e | _ | line
          · rfl
          · rfl
          · have hhead : ¬ (first :: rest).head? = some 42 := by simpa using hstar
            simp only [lookCommand, if_neg hhead]
            by_cases hblank : line.content.all isBlankByte = true
            · simp only [if_pos hblank]
              rfl
            · simp only [if_neg hblank, finishInline]
              cases Text.asciiWords (Text.ofBytes line.content) with
              | nil => exact finish_eq_step _ _ _ _ _
              | cons name args => exact finish_eq_step _ _ _ _ _
  | header read declared elements =>
      have hunread := framerAt_unread (.header read declared elements) bytes
      simp only [framerAt] at hunread
      simp only [framerAt, step, hunread, look]
      rcases hline : lineAt bytes with e | _ | line
      · rfl
      · rfl
      · simp only [lookHeader]
        cases bulkHeader line.content with
        | error e => rfl
        | ok length =>
            have hsize := findLine_size (lineAt_eq_some hline)
            simp only [Outlook.step, framerAt, List.append_assoc, List.take_append_drop,
              List.length_append, List.length_take, Nat.min_eq_left hsize.2]
  | value read declared elements length =>
      have hunread := framerAt_unread (.value read declared elements length) bytes
      simp only [framerAt] at hunread
      simp only [framerAt, step, hunread, look]
      rcases hvalue : bulkValue length bytes with e | _ | value
      · rfl
      · rfl
      · have hlen := bulkValue_eq_some hvalue
        simp only
        -- The cursor stands behind what was read, so `take` and `drop` there split off `bytes`.
        by_cases hfull : (elements ++ [value]).length = declared
        · rw [if_pos hfull, finishArray_eq_step, ← hfull, Nat.add_assoc,
            List.take_length_add_append, List.drop_length_add_append]
        · rw [if_neg hfull, lookElement_of_ne hfull]
          simp only [Outlook.step, framerAt, List.append_assoc, List.take_append_drop,
            List.length_append, List.length_take, Nat.min_eq_left hlen, Nat.add_assoc]

/-- A command that is finished is the last one for now. -/
theorem finish_ne_next (framer next : Framer) (name : String) (args : List String) (size : Nat) :
    framer.finish name args size ≠ .next next := by
  unfold finish
  cases CommandName.ofText? name <;> simp

/-- What is read of a line or a value leaves less to be read. -/
theorem length_drop_lt {bytes : Bytes} {size : Nat} (h : 0 < size ∧ size ≤ bytes.length) :
    (bytes.drop size).length < bytes.length := by
  rw [List.length_drop]
  omega

/-- A step after which there may be more to do reads a byte or more, whatever state the framer is
    in. -/
theorem step_next_shorter {framer next : Framer} (h : framer.step = .next next) :
    next.unread.length < framer.unread.length := by
  rcases framer with ⟨buffer, progress⟩
  cases progress with
  | idle =>
      simp only [step, stepIdle] at h
      rcases buffer with _ | ⟨first, rest⟩
      · simp only [reduceCtorEq] at h
      · by_cases hstar : first = 42
        · rcases harray : wholeArray (first :: rest) with e | _ | ⟨elements, size⟩
          · simp only [if_pos hstar, harray, reduceCtorEq] at h
          · rcases hline : lineAt (first :: rest) with e | _ | line
            · simp only [if_pos hstar, harray, hline, reduceCtorEq] at h
            · simp only [if_pos hstar, harray, hline, reduceCtorEq] at h
            · cases hheader : arrayHeader line.content with
              | error e => simp only [if_pos hstar, harray, hline, hheader, reduceCtorEq] at h
              | ok declared =>
                  simp only [if_pos hstar, harray, hline, hheader, Step.next.injEq] at h
                  rw [← h]
                  exact length_drop_lt (findLine_size (lineAt_eq_some hline))
          · simp only [if_pos hstar, harray, finishArray] at h
            cases elements with
            | nil => simp only [reduceCtorEq] at h
            | cons name args => exact absurd h (finish_ne_next _ _ _ _ _)
        · rcases hline : lineAt (first :: rest) with e | _ | line
          · simp only [if_neg hstar, hline, reduceCtorEq] at h
          · simp only [if_neg hstar, hline, reduceCtorEq] at h
          · simp only [if_neg hstar, hline, finishInline] at h
            split at h
            · rw [← Step.next.inj h]
              exact length_drop_lt (findLine_size (lineAt_eq_some hline))
            · split at h
              · exact absurd h (finish_ne_next _ _ _ _ _)
              · exact absurd h (finish_ne_next _ _ _ _ _)
  | awaitingLength cursor declared elements =>
      simp only [step, unread, Framer.cursor] at h ⊢
      rcases hline : lineAt (buffer.drop cursor) with e | _ | line
      · simp only [hline, reduceCtorEq] at h
      · simp only [hline, reduceCtorEq] at h
      · cases hheader : bulkHeader line.content with
        | error e => simp only [hline, hheader, reduceCtorEq] at h
        | ok length =>
            simp only [hline, hheader, Step.next.injEq] at h
            have hless := length_drop_lt (findLine_size (lineAt_eq_some hline))
            rw [List.drop_drop] at hless
            rw [← h]
            exact hless
  | awaitingValue cursor declared elements length =>
      simp only [step, unread, Framer.cursor] at h ⊢
      rcases hvalue : bulkValue length (buffer.drop cursor) with e | _ | value
      · simp only [hvalue, reduceCtorEq] at h
      · simp only [hvalue, reduceCtorEq] at h
      · simp only [hvalue] at h
        split at h
        · simp only [finishArray] at h
          split at h
          · exact absurd h (finish_ne_next _ _ _ _ _)
          · simp only [reduceCtorEq] at h
        · have hless := length_drop_lt ⟨Nat.succ_pos (length + 1), bulkValue_eq_some hvalue⟩
          rw [List.drop_drop, Nat.succ_eq_add_one, ← Nat.add_assoc] at hless
          rw [← Step.next.inj h]
          exact hless
  | complete command => simp only [step, reduceCtorEq] at h
  | failed => simp only [step, reduceCtorEq] at h

-- The header of an element that is there is read in one move.
theorem look_header {bytes : Bytes} {line : BufferedLine} {length : Nat}
    (hfind : findLine bytes = some line) (hheader : bulkHeader line.content = .ok length)
    (read : Bytes) (declared : Nat) (elements : List String) :
    look (.header read declared elements) bytes = .moved
      (.value (read ++ bytes.take line.size) declared elements length)
      (bytes.drop line.size) := by
  simp only [look, lineAt_of_findLine hfind, lookHeader, hheader]

-- An element that is there is read in two moves, its header and then its value.
theorem element_reads {bytes : Bytes} {line : BufferedLine} {length : Nat} {value : String}
    (hfind : findLine bytes = some line) (hheader : bulkHeader line.content = .ok length)
    (hvalue : bulkValue length (bytes.drop line.size) = .ok (some value))
    (read : Bytes) (declared : Nat) (elements : List String) :
    ∃ last left, Reads (.header read declared elements) bytes [] last left ∧
      look last left = lookElement (read ++ bytes.take (line.size + (length + crlf.length)))
        declared (elements ++ [value]) (bytes.drop (line.size + (length + crlf.length))) := by
  have hmove := look_header hfind hheader read declared elements
  refine ⟨_, _, .move hmove (.here _ _), ?_⟩
  simp only [look, hvalue]
  rw [List.append_assoc, ← List.take_add, List.drop_drop]

/-- What the short way for elements refuses, the long way refuses as well. -/
theorem wholeElements_refused {count : Nat} {bytes : Bytes} {e : Error}
    (h : wholeElements count bytes = .error e) (read : Bytes) (elements : List String)
    {declared : Nat} (hcount : elements.length + count = declared) :
    ∃ last left, Reads (.header read declared elements) bytes [] last left ∧
      look last left = .refused e := by
  induction count generalizing bytes read elements with
  | zero => simp only [wholeElements, reduceCtorEq] at h
  | succ count ih =>
      unfold wholeElements at h
      cases hfind : findLine bytes with
      | none => simp only [hfind, reduceCtorEq] at h
      | some line =>
          have hline := lineAt_of_findLine hfind
          -- The refusal is of this header, of this value, or of an element behind them.
          cases hheader : bulkHeader line.content with
          | error e' =>
              simp only [hfind, hheader, Except.error.injEq] at h
              refine ⟨_, _, .here _ _, ?_⟩
              simp only [look, hline, lookHeader, hheader, h]
          | ok length =>
              rcases hvalue : bulkValue length (bytes.drop line.size) with e' | _ | value
              · simp only [hfind, hheader, hvalue, Except.error.injEq] at h
                have hmove := look_header hfind hheader read declared elements
                refine ⟨_, _, .move hmove (.here _ _), ?_⟩
                simp only [look, hvalue, h]
              · simp only [hfind, hheader, hvalue, reduceCtorEq] at h
              · rcases element_reads hfind hheader hvalue read declared elements with
                  ⟨last, left, hreads, hlook⟩
                -- The refusal comes from a later element, so this one is not the last.
                have hmore : 0 < count := by
                  by_contra hc
                  obtain rfl : count = 0 := by omega
                  simp [hfind, hheader, hvalue, wholeElements] at h
                have hne : (elements ++ [value]).length ≠ declared := by
                  rw [List.length_append, List.length_singleton]
                  omega
                rw [lookElement_of_ne hne] at hlook
                simp only [hfind, hheader, hvalue, List.drop_drop] at h
                split at h
                · rename_i e' hrest
                  rw [Except.error.inj h] at hrest
                  have hcount' : (elements ++ [value]).length + count = declared := by
                    rw [List.length_append, List.length_singleton]
                    omega
                  rcases ih hrest (read ++ bytes.take (line.size + (length + crlf.length)))
                    (elements ++ [value]) hcount' with ⟨last', left', hreads', hlook'⟩
                  exact ⟨last', left', hreads.trans (.move hlook hreads'), hlook'⟩
                · simp only [reduceCtorEq] at h
                · simp only [reduceCtorEq] at h

/-- Elements that the short way reads are those that the long way reads, up to the last one. -/
theorem wholeElements_read {count : Nat} {bytes : Bytes} {values : List String} {size : Nat}
    (h : wholeElements count bytes = .ok (some (values, size))) (hpos : 0 < count)
    (read : Bytes) (elements : List String) {declared : Nat}
    (hcount : elements.length + count = declared) :
    (elements ++ values).length = declared ∧
      ∃ last left, Reads (.header read declared elements) bytes [] last left ∧
        look last left = lookElement (read ++ bytes.take size) declared (elements ++ values)
          (bytes.drop size) := by
  induction count generalizing bytes read elements values size with
  | zero => omega
  | succ count ih =>
      unfold wholeElements at h
      cases hfind : findLine bytes with
      | none => simp [hfind] at h
      | some line =>
          cases hheader : bulkHeader line.content with
          | error e' => simp [hfind, hheader] at h
          | ok length =>
              rcases hvalue : bulkValue length (bytes.drop line.size) with e' | _ | value
              · simp [hfind, hheader, hvalue] at h
              · simp [hfind, hheader, hvalue] at h
              · rcases element_reads hfind hheader hvalue read declared elements with
                  ⟨last, left, hreads, hlook⟩
                simp only [hfind, hheader, hvalue, List.drop_drop] at h
                split at h
                · simp only [reduceCtorEq] at h
                · simp only [Except.ok.injEq, reduceCtorEq] at h
                · rename_i values' size' hrest
                  simp only [Except.ok.injEq, Option.some.injEq, Prod.mk.injEq] at h
                  rcases h with ⟨rfl, rfl⟩
                  by_cases hlast : count = 0
                  · -- Nothing is left to read behind the last element.
                    subst hlast
                    simp only [wholeElements, Except.ok.injEq, Option.some.injEq,
                      Prod.mk.injEq] at hrest
                    rcases hrest with ⟨rfl, rfl⟩
                    refine ⟨by rw [List.length_append, List.length_singleton]; omega, ?_⟩
                    exact ⟨last, left, hreads, hlook⟩
                  · -- The element is taken, and the rest is read from behind it.
                    have hne : (elements ++ [value]).length ≠ declared := by
                      rw [List.length_append, List.length_singleton]
                      omega
                    rw [lookElement_of_ne hne] at hlook
                    have hcount' : (elements ++ [value]).length + count = declared := by
                      rw [List.length_append, List.length_singleton]
                      omega
                    rcases ih hrest (by omega)
                      (read ++ bytes.take (line.size + (length + crlf.length)))
                      (elements ++ [value]) hcount' with ⟨hfull, last', left', hreads', hlook'⟩
                    rw [List.append_assoc elements, List.singleton_append] at hfull hlook'
                    refine ⟨hfull, last', left', hreads.trans (.move hlook hreads'), ?_⟩
                    rw [hlook', List.append_assoc, ← List.take_add, List.drop_drop]

theorem arrayHeader_pos {line : Bytes} {declared : Nat} (h : arrayHeader line = .ok declared) :
    0 < declared := by
  unfold arrayHeader at h
  split at h
  · simp only [reduceCtorEq] at h
  · split at h
    · simp only [reduceCtorEq] at h
    · split at h
      · simp only [reduceCtorEq] at h
      · rw [← Except.ok.inj h]
        omega

-- Within a command nothing is dropped: what was read and what is left are the bytes there were.
theorem Reads.read_append {position last : Position} {bytes left : Bytes}
    (h : Reads position bytes [] last left) (hne : position ≠ .start) :
    last.read ++ left = position.read ++ bytes := by
  generalize hevents : ([] : List Event) = events at h
  induction h with
  | here => rfl
  | event => simp only [reduceCtorEq] at hevents
  | @move position next last bytes rest left events hlook _ ih =>
      rcases look_moved_consumes hlook with ⟨used, hused, hsplit, _, hread | ⟨hstart, _⟩⟩
      · -- The next position has read at least `used`, so it is not the start either.
        have hnext : next ≠ .start := by
          rintro rfl
          simp only [Position.read, List.nil_eq, List.append_eq_nil_iff] at hread
          exact hused hread.2
        rw [ih hnext hevents, hread, hsplit, List.append_assoc]
      · exact absurd hstart hne

/-- The short way for arrays is a way of reading: it stops where the long way stops. -/
theorem wholeArray_reads {bytes : Bytes} (hstar : bytes.head? = some 42)
    (hwhole : wholeArray bytes ≠ .ok none) :
    ∃ last left, Reads .start bytes [] last left ∧ last.read ++ left = bytes ∧
      look last left = match wholeArray bytes with
        | .error e => .refused e
        | .ok none => .more
        | .ok (some (elements, size)) =>
          lookElement (bytes.take size) elements.length elements (bytes.drop size) := by
  unfold wholeArray at hwhole ⊢
  cases hfind : findLine bytes with
  | none => simp only [hfind, ne_eq, not_true_eq_false] at hwhole
  | some line =>
      cases hheader : arrayHeader line.content with
      | error e =>
          refine ⟨_, _, .here _ _, rfl, ?_⟩
          simp only [look, lineAt_of_findLine hfind, lookCommand, if_pos hstar, hheader]
      | ok declared =>
          have hmove : look .start bytes =
              .moved (.header (bytes.take line.size) declared []) (bytes.drop line.size) := by
            simp only [look, lineAt_of_findLine hfind, lookCommand, if_pos hstar, hheader]
          simp only [hfind, hheader] at hwhole ⊢
          -- The header is one move, and the elements are read from behind it.
          rcases helements : wholeElements declared (bytes.drop line.size) with
            e | _ | ⟨elements, size⟩
          · rcases wholeElements_refused helements (bytes.take line.size) []
              (Nat.zero_add _) with ⟨last, left, hreads, hlook⟩
            refine ⟨last, left, .move hmove hreads, ?_, hlook⟩
            rw [hreads.read_append (by simp)]
            exact List.take_append_drop _ _
          · simp only [helements, ne_eq, not_true_eq_false] at hwhole
          · rcases wholeElements_read helements (arrayHeader_pos hheader) (bytes.take line.size) []
              (Nat.zero_add _) with ⟨hfull, last, left, hreads, hlook⟩
            refine ⟨last, left, .move hmove hreads, ?_, ?_⟩
            · rw [hreads.read_append (by simp)]
              exact List.take_append_drop _ _
            · rw [List.nil_append] at hfull hlook
              simp only [hlook, ← List.take_add, List.drop_drop, hfull]

-- A step that takes a whole array is the last one of the long way.
theorem step_wholeArray {bytes : Bytes} (hstar : bytes.head? = some 42)
    (hwhole : wholeArray bytes ≠ .ok none) :
    ∃ last left, Reads .start bytes [] last left ∧ last.read ++ left = bytes ∧
      (framerAt .start bytes).step = (look last left).step (framerAt .start bytes) ∧
      look last left ≠ .more ∧ ∀ next rest, look last left ≠ .moved next rest := by
  rcases wholeArray_reads hstar hwhole with ⟨last, left, hreads, hbuffer, hlook⟩
  -- The framer looks for a whole array before anything else.
  have hstep : (framerAt .start bytes).step = match wholeArray bytes with
      | .error e => .fail e (framerAt .start bytes)
      | .ok none => .rest (framerAt .start bytes)
      | .ok (some (elements, size)) => (framerAt .start bytes).finishArray elements size := by
    rcases bytes with _ | ⟨first, rest⟩
    · simp only [List.head?_nil, reduceCtorEq] at hstar
    · have hfirst : first = 42 := by simpa using hstar
      simp only [framerAt, step, stepIdle, if_pos hfirst]
      split <;> simp_all
  refine ⟨last, left, hreads, hbuffer, ?_⟩
  rcases hresult : wholeArray bytes with e | _ | ⟨elements, size⟩
  · rw [hresult] at hlook hstep
    simp only at hlook hstep
    rw [hlook, hstep]
    simp [Outlook.step]
  · exact absurd hresult hwhole
  · rw [hresult] at hlook hstep
    simp only at hlook hstep
    rw [hlook, hstep, finishArray_eq_step]
    refine ⟨rfl, ?_⟩
    unfold lookElement
    rw [if_pos rfl]
    cases elements <;> simp

/-- What a feed that reads up to a position leads to. -/
def fed (position : Position) (bytes : Bytes) : Except Error Bool × Framer :=
  match look position bytes with
  | .found (.ok command) rest => (.ok true, ⟨rest, .complete command⟩)
  | .found (.error e) rest => (.error e, ⟨rest, .idle⟩)
  | .refused e => (.error e, ⟨position.read ++ bytes, .failed⟩)
  | .more | .moved .. => (.ok false, framerAt position bytes)

/-- What a feed makes of the steps that it took. -/
def settle : Except Error Unit × Framer → Except Error Bool × Framer
  | (.ok (), framer) => (.ok framer.isReady, framer)
  | (.error e, framer) =>
    (.error e, if e.isProtocol then { framer with progress := .failed } else framer)

/-- A failed framer refuses bytes, and any other one takes steps. -/
theorem feed_of_ne_failed {framer : Framer} (h : framer.progress ≠ .failed) (bytes : Bytes) :
    framer.feed bytes = settle (advance { framer with buffer := framer.buffer ++ bytes }) := by
  rcases framer with ⟨buffer, progress⟩
  cases progress with
  | failed => exact absurd rfl h
  | _ => rfl

/-- The step of an outlook that is no move is the end of a feed. -/
theorem settle_run_of_step {position : Position} {bytes : Bytes} {framer : Framer} {steps : Nat}
    (hmoved : ∀ next rest, look position bytes ≠ .moved next rest)
    (hbuffer : framer.buffer = position.read ++ bytes)
    (hmore : look position bytes = .more → framer = framerAt position bytes)
    (hstep : framer.step = (look position bytes).step framer) :
    settle (run (steps + 1) framer) = fed position bytes := by
  simp only [run, hstep, fed]
  cases hlook : look position bytes with
  | more =>
      simp only [Outlook.step, settle]
      rw [hmore hlook]
      cases position <;> rfl
  | moved next rest => exact absurd hlook (hmoved next rest)
  | found event rest =>
      cases event with
      | ok command => rfl
      | error e =>
          -- An unknown command does not stop the framer.
          rcases look_found_consumes hlook with ⟨_, _, _, _, name, args, hevent⟩
          have hkind := eventOf_isProtocol hevent.symm
          simp only [Outlook.step, settle, hkind, Bool.false_eq_true, if_false]
  | refused e =>
      simp only [Outlook.step, settle, if_pos (look_isProtocol hlook), hbuffer]

/-- Enough steps read on to where no move is left. -/
theorem run_framerAt (steps : Nat) :
    ∀ (position : Position) (bytes : Bytes), bytes.length < steps →
      ∃ last left, Reads position bytes [] last left ∧
        (∀ next rest, look last left ≠ .moved next rest) ∧
        settle (run steps (framerAt position bytes)) = fed last left := by
  induction steps with
  | zero => intro _ _ h; omega
  | succ steps ih =>
      intro position bytes hlen
      by_cases hshort : position = .start ∧ bytes.head? = some 42 ∧ wholeArray bytes ≠ .ok none
      · -- The short way: one step to where the long way would stop.
        rcases hshort with ⟨rfl, hstar, hwhole⟩
        rcases step_wholeArray hstar hwhole with ⟨last, left, hreads, hbuffer, hstep, hmore, hmoved⟩
        refine ⟨last, left, hreads, hmoved, ?_⟩
        exact settle_run_of_step hmoved hbuffer.symm (fun h => absurd h hmore) hstep
      · -- The long way: one step is one look.
        have hstep := step_framerAt position bytes (fun hstart hstar => by
          by_contra hwhole
          exact hshort ⟨hstart, hstar, hwhole⟩)
        cases hlook : look position bytes with
        | moved next rest =>
            have hrest := look_moved_shorter hlook
            rcases ih next rest (by omega) with ⟨last, left, hreads, hmoved, hrun⟩
            refine ⟨last, left, .move hlook hreads, hmoved, ?_⟩
            rw [hlook] at hstep
            simp only [run, hstep, Outlook.step]
            exact hrun
        | more =>
            refine ⟨position, bytes, .here _ _, by simp [hlook], ?_⟩
            exact settle_run_of_step (by simp [hlook]) (framerAt_buffer _ _) (fun _ => rfl) hstep
        | found event rest =>
            refine ⟨position, bytes, .here _ _, by simp [hlook], ?_⟩
            exact settle_run_of_step (by simp [hlook]) (framerAt_buffer _ _) (fun _ => rfl) hstep
        | refused e =>
            refine ⟨position, bytes, .here _ _, by simp [hlook], ?_⟩
            exact settle_run_of_step (by simp [hlook]) (framerAt_buffer _ _) (fun _ => rfl) hstep

/-- A feed of a framer that rests reads on to where no move is left. -/
theorem feed_framerAt (position : Position) (bytes chunk : Bytes) :
    ∃ last left, Reads position (bytes ++ chunk) [] last left ∧
      (∀ next rest, look last left ≠ .moved next rest) ∧
      (framerAt position bytes).feed chunk = fed last left := by
  rcases run_framerAt ((bytes ++ chunk).length + 1) position (bytes ++ chunk)
    (Nat.lt_succ_self _) with ⟨last, left, hreads, hmoved, hrun⟩
  refine ⟨last, left, hreads, hmoved, ?_⟩
  -- A feed appends the chunk and steps; the steps that it may take are as many as the bytes ahead.
  have hprogress : (framerAt position bytes).progress ≠ .failed := by
    cases position <;> simp [framerAt]
  rw [feed_of_ne_failed hprogress, framerAt_append, ← hrun, advance, framerAt_unread]

/-- What draining leads to when it reads up to a position, with the given events on the way. -/
def drained (events : List Event) (position : Position) (bytes : Bytes) : List Event × Framer :=
  match look position bytes with
  | .refused e => (events ++ [.error e], ⟨position.read ++ bytes, .failed⟩)
  | _ => (events, framerAt position bytes)

theorem drained_cons (event : Event) (events : List Event) (position : Position)
    (bytes : Bytes) :
    drained (event :: events) position bytes =
      (event :: (drained events position bytes).1, (drained events position bytes).2) := by
  unfold drained
  split <;> rfl

/-- Enough feeds read on to the end: every event consumes a byte or more. -/
theorem drainFor_framerAt (count : Nat) :
    ∀ (position : Position) (bytes chunk : Bytes), (bytes ++ chunk).length < count →
      ∃ events last left, Reads position (bytes ++ chunk) events last left ∧ Stops last left ∧
        drainFor count (framerAt position bytes) chunk = drained events last left := by
  induction count with
  | zero => intro _ _ _ h; omega
  | succ count ih =>
      intro position bytes chunk hlen
      rcases feed_framerAt position bytes chunk with ⟨middle, rest, hreads, hmoved, hfeed⟩
      have hrest := hreads.length_le
      cases hlook : look middle rest with
      | more =>
          refine ⟨[], middle, rest, hreads, Or.inl hlook, ?_⟩
          simp only [drainFor, hfeed, fed, drained, hlook]
      | moved next later => exact absurd hlook (hmoved next later)
      | refused e =>
          refine ⟨[], middle, rest, hreads, Or.inr ⟨e, hlook⟩, ?_⟩
          simp only [drainFor, hfeed, fed, drained, hlook, if_pos (look_isProtocol hlook),
            List.nil_append]
      | found event later =>
          have hshort := look_found_shorter hlook
          -- The feed stands at the start of the next command, and no bytes are added to it.
          rcases ih .start later [] (by rw [List.append_nil]; omega) with
            ⟨events, last, left, hlater, hstops, hdrain⟩
          rw [List.append_nil] at hlater
          simp only [framerAt] at hdrain
          refine ⟨event :: events, last, left, hreads.trans (.event hlook hlater), hstops, ?_⟩
          rw [drained_cons, ← hdrain]
          cases event with
          | ok command => simp only [drainFor, hfeed, fed, hlook, take]
          | error e =>
              rcases look_found_consumes hlook with ⟨_, _, _, _, name, args, hevent⟩
              have hkind := eventOf_isProtocol hevent.symm
              simp only [drainFor, hfeed, fed, hlook, hkind, Bool.false_eq_true, if_false]

/-- Draining a framer that rests reads on to the end. -/
theorem drain_framerAt (position : Position) (bytes chunk : Bytes) :
    ∃ events last left, Reads position (bytes ++ chunk) events last left ∧ Stops last left ∧
      (framerAt position bytes).drain chunk = drained events last left := by
  refine drainFor_framerAt _ position bytes chunk ?_
  simp only [buffered, framerAt_buffer, List.length_append]
  omega

-- What a delivery is read to, as the next delivery meets it.
theorem drain_cases (position : Position) (bytes chunk : Bytes) :
    ∃ events last left, Reads position (bytes ++ chunk) events last left ∧
      (look last left = .more ∧
          (framerAt position bytes).drain chunk = (events, framerAt last left) ∨
        ∃ e, look last left = .refused e ∧ (framerAt position bytes).drain chunk =
          (events ++ [.error e], ⟨last.read ++ left, .failed⟩)) := by
  rcases drain_framerAt position bytes chunk with ⟨events, last, left, hreads, hstops, hdrain⟩
  refine ⟨events, last, left, hreads, ?_⟩
  rcases hstops with hmore | ⟨e, hrefused⟩
  · exact .inl ⟨hmore, by rw [hdrain, drained, hmore]⟩
  · exact .inr ⟨e, hrefused, by rw [hdrain, drained, hrefused]⟩

end Framer

end KeyValue
