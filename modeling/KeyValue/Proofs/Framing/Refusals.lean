import KeyValue.Proofs.Framing.Segmentation
import KeyValue.Proofs.Text.OneLine

/-!
# Refusals of one line

A framer that refuses a stream quotes at most the line that it refuses, and that line ends at its
line feed. So the error it reports is of one line, whatever the bytes are. The name of an unknown
command is not bounded in this way: as part of an array it can hold line feeds, and the error quotes
it as it is.

## Theorems

* `look_refused_oneLine`: What a look refuses is refused on one line.
* `Reads.error_unknown`: Reading on meets no other errors than unknown commands.
* `absorb_framerAt`: What a framer hands out for a piece.
-/

namespace KeyValue

namespace Wire

open Text

-- The content of a line has no line feed.
theorem lineFeed_notMem_findLine {bytes : Bytes} {line : BufferedLine}
    (h : findLine bytes = some line) : 10 ∉ line.content := by
  rw [findLine_eq_some_iff] at h
  rcases h with ⟨content, rest, hfirst, rfl, rfl⟩
  simp only [stripReturn]
  split
  · exact fun hmem => hfirst (List.dropLast_subset _ hmem)
  · exact hfirst

theorem oneLine_ofBytes {content : Bytes} (h : 10 ∉ content) : OneLine (Text.ofBytes content) :=
  fun hmem => h (lineFeed_mem_of_ofBytes hmem)

theorem headerLength_lines (mark : Char) {line : Bytes} (hmark : OneLine mark.toString)
    (hline : 10 ∉ line) : LineFailures (headerLength mark line) := by
  have hinvalid : (Error.protocol
      s!"expected '{mark}' length line, got '{Text.ofBytes line}'").OneLine := by
    refine Error.protocol_oneLine ((oneLine_ofBytes hline).quote _ _ ?_ (by decide))
    exact hmark.quote "expected '" "' length line, got '" (by decide) (by decide)
  unfold headerLength
  split
  · exact .error hinvalid
  · split
    · split
      · exact .ok _
      · exact .error hinvalid
    · exact .error hinvalid

-- A length that is too large is shown with the bound.
theorem exceeds_oneLine {before between : String} (hbefore : OneLine before)
    (hbetween : OneLine between) (n bound : Nat) :
    OneLine (before ++ Nat.repr n ++ between ++ Nat.repr bound) :=
  oneLine_append.mpr ⟨(oneLine_repr n).quote _ _ hbefore hbetween, oneLine_repr bound⟩

theorem arrayHeader_lines {line : Bytes} (hline : 10 ∉ line) : LineFailures (arrayHeader line) := by
  have hlength := headerLength_lines '*' (by decide) hline
  unfold arrayHeader
  cases hheader : headerLength '*' line with
  | error e => exact .error (hlength e hheader)
  | ok declared =>
      simp only
      split
      · exact .error (by decide)
      · split
        · exact .error (Error.protocol_oneLine (exceeds_oneLine (by decide) (by decide) _ _))
        · exact .ok _

theorem bulkHeader_lines {line : Bytes} (hline : 10 ∉ line) : LineFailures (bulkHeader line) := by
  have hlength := headerLength_lines '$' (by decide) hline
  unfold bulkHeader
  cases hheader : headerLength '$' line with
  | error e => exact .error (hlength e hheader)
  | ok length =>
      simp only
      split
      · exact .error (Error.protocol_oneLine (exceeds_oneLine (by decide) (by decide) _ _))
      · exact .ok _

theorem bulkValue_lines (length : Nat) (bytes : Bytes) : LineFailures (bulkValue length bytes) := by
  unfold bulkValue
  split
  · split
    · exact .ok _
    · exact .error (Error.protocol_oneLine
        (oneLine_append.mpr ⟨by decide, oneLine_repr length⟩))
  · exact .ok _

theorem lineAt_lines (bytes : Bytes) : LineFailures (lineAt bytes) := by
  intro e he
  rw [(lineAt_eq_error he).2.2]
  decide

end Wire

namespace Framer

open Wire

-- An array without elements is refused with fixed words.
theorem lookElement_refused_oneLine {read rest : Bytes} {declared : Nat} {elements : List String}
    {e : Error} (h : lookElement read declared elements rest = .refused e) : e.OneLine := by
  unfold lookElement at h
  split at h
  · split at h
    · simp only [reduceCtorEq] at h
    · rw [← Outlook.refused.inj h]
      decide
  · simp only [reduceCtorEq] at h

/-- What a look refuses is refused on one line. -/
theorem look_refused_oneLine {position : Position} {bytes : Bytes} {e : Error}
    (h : look position bytes = .refused e) : e.OneLine := by
  cases position with
  | start =>
      rcases hline : lineAt bytes with e' | _ | line
      · simp only [look, hline] at h
        rw [← Outlook.refused.inj h]
        exact lineAt_lines bytes e' hline
      · simp only [look, hline, reduceCtorEq] at h
      · simp only [look, hline, lookCommand] at h
        split at h
        · split at h
          · rename_i e' hheader
            rw [← Outlook.refused.inj h]
            exact arrayHeader_lines (lineFeed_notMem_findLine (lineAt_eq_some hline)) e' hheader
          · simp only [reduceCtorEq] at h
        · split at h
          · simp only [reduceCtorEq] at h
          · split at h <;> simp only [reduceCtorEq] at h
  | header read declared elements =>
      rcases hline : lineAt bytes with e' | _ | line
      · simp only [look, hline] at h
        rw [← Outlook.refused.inj h]
        exact lineAt_lines bytes e' hline
      · simp only [look, hline, reduceCtorEq] at h
      · simp only [look, hline, lookHeader] at h
        split at h
        · rename_i e' hheader
          rw [← Outlook.refused.inj h]
          exact bulkHeader_lines (lineFeed_notMem_findLine (lineAt_eq_some hline)) e' hheader
        · simp only [reduceCtorEq] at h
  | value read declared elements length =>
      rcases hvalue : bulkValue length bytes with e' | _ | value
      · simp only [look, hvalue] at h
        rw [← Outlook.refused.inj h]
        exact bulkValue_lines length bytes e' hvalue
      · simp only [look, hvalue, reduceCtorEq] at h
      · simp only [look, hvalue] at h
        exact lookElement_refused_oneLine h

/-- Reading on meets no other errors than unknown commands. -/
theorem Reads.error_unknown {position last : Position} {bytes left : Bytes} {events : List Event}
    (h : Reads position bytes events last left) {e : Error} (hmem : .error e ∈ events) :
    ∃ name, e = .unknownCommand name := by
  induction h with
  | here => simp at hmem
  | move _ _ ih => exact ih hmem
  | event hlook _ ih =>
      rcases List.mem_cons.mp hmem with heq | hlater
      · rcases look_found_consumes hlook with ⟨_, _, _, _, name, args, hevent⟩
        rw [← heq, eventOf] at hevent
        split at hevent
        · simp only [reduceCtorEq] at hevent
        · exact ⟨name, Except.error.inj hevent⟩
      · exact ih hlater

/-- A framer that rests at a position rests at another one when it has absorbed a piece, and the
    errors it hands out are unknown commands or of one line. -/
theorem absorb_framerAt (position : Position) (bytes chunk : Bytes) :
    ∃ events last left, (framerAt position bytes).absorb chunk = (events, framerAt last left) ∧
      ∀ e, .error e ∈ events → (∃ name, e = .unknownCommand name) ∨ e.OneLine := by
  rcases drain_framerAt position bytes chunk with ⟨events, last, left, hreads, hstops, hdrain⟩
  have hunknown : ∀ e, .error e ∈ events → (∃ name, e = .unknownCommand name) ∨ e.OneLine :=
    fun e hmem => Or.inl (hreads.error_unknown hmem)
  unfold absorb
  rw [hdrain, drained]
  rcases hstops with hmore | ⟨e, hrefused⟩
  · rw [hmore]
    exact ⟨events, last, left, by cases last <;> rfl, hunknown⟩
  · -- A framer that has failed starts afresh.
    rw [hrefused]
    refine ⟨events ++ [.error e], .start, [], rfl, ?_⟩
    intro e' hmem
    rcases List.mem_append.mp hmem with hbefore | hlast
    · exact hunknown e' hbefore
    · rw [Except.error.inj (List.mem_singleton.mp hlast)]
      exact Or.inr (look_refused_oneLine hrefused)

end Framer

end KeyValue
