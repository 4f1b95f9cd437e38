import KeyValue.Proofs.Framing.Frames

/-!
# Streams that are read to their end

A stream carries events if it is read as those events, up to its last byte, and none of its lines
is too long. Such streams can be put one behind the other (`Carries.append`), and a framer can take
them in pieces: with each piece it hands out some of the events, and what it keeps with what is
still to come carries the others (`Carries.absorb`).

A stream need not end where a command does. As long as it is not refused, what is framed of it and
where the framer comes to rest do not depend on the pieces either (`absorbAll_drain`).

## Main definitions

* `Framer.absorbAll`: Pieces are taken one after another.
* `Framer.Carries`: A stream is read to its end as the given events.

## Theorems

* `Reads.absorb`, `Reads.absorbAll`: Pieces of bytes that are not refused.
* `drain_reads`, `absorbAll_drain`: A stream in one and in pieces.
* `Carries.move`, `Carries.event`: Reading step by step.
* `Carries.append`: Streams one behind the other.
* `Carries.absorb`: A piece of a stream.
* `Carries.finished`: Nothing is left of a stream that has come in.
* `Carries.drainAll`: A framer that takes a stream in pieces hands out its events.
-/

namespace KeyValue

namespace Framer

open Wire

/-- A framer that takes a piece of bytes that are read to where more are missing hands out the events
    that the piece completes, and rests on the way there. -/
theorem Reads.absorb {position final : Position} {unread chunk rest remaining : Bytes}
    {events : List Event} (h : Reads position (unread ++ chunk ++ rest) events final remaining)
    (hends : look final remaining = .more) (hshort : ShortLines position (unread ++ chunk ++ rest)) :
    ∃ before after last left, events = before ++ after ∧
      (framerAt position unread).absorb chunk = (before, framerAt last left) ∧
      look last left = .more ∧ Reads last (left ++ rest) after final remaining ∧
      ShortLines last (left ++ rest) := by
  rcases drain_framerAt position unread chunk with ⟨before, last, left, hdone, hstops, hdrain⟩
  have hdone := hdone.append rest
  -- The piece is read as the beginning of all bytes.
  rcases hdone.resume h (Or.inl hends) with ⟨after, hevents, hlater⟩
  have hmore : look last left = .more := by
    rcases hstops with hmore | ⟨e, hrefused⟩
    · exact hmore
    · -- What is refused would be refused with the rest behind it.
      have hrefused := look_refused_append hrefused rest (hshort _ _ _ hdone)
      exact absurd hrefused (hlater.not_refused hends)
  refine ⟨before, after, last, left, hevents, ?_, hmore, hlater, hshort.of_reads hdone⟩
  unfold Framer.absorb
  rw [hdrain, drained, hmore]
  cases last <;> rfl

/-- Pieces are taken one after another, each at its time: what is framed, with the time at which it
    is, and the framer that is left behind. -/
def absorbAll (framer : Framer) : List (UInt64 × Bytes) → List (UInt64 × Event) × Framer
  | [] => ([], framer)
  | (now, chunk) :: rest =>
    let (events, framer) := framer.absorb chunk
    let (later, framer) := framer.absorbAll rest
    (events.map (now, ·) ++ later, framer)

/-- Whatever the pieces are, a framer that takes bytes which are read to where more are missing hands
    out the same events and ends up in the same place. -/
theorem Reads.absorbAll {final : Position} {remaining : Bytes}
    (hends : look final remaining = .more) (arrivals : List (UInt64 × Bytes)) :
    ∀ {position : Position} {unread : Bytes} {events : List Event},
      look position unread = .more →
      Reads position (unread ++ arrivals.flatMap (·.2)) events final remaining →
      ShortLines position (unread ++ arrivals.flatMap (·.2)) →
      ((framerAt position unread).absorbAll arrivals).1.map (·.2) = events ∧
        ((framerAt position unread).absorbAll arrivals).2 = framerAt final remaining := by
  induction arrivals with
  | nil =>
      intro position unread events hmore h _
      rw [List.flatMap_nil, List.append_nil] at h
      rcases (Reads.here position unread).unique (Or.inl hmore) h (Or.inl hends) with
        ⟨rfl, rfl, rfl⟩
      exact ⟨rfl, rfl⟩
  | cons arrival rest ih =>
      intro position unread events _ h hshort
      rcases arrival with ⟨now, chunk⟩
      rw [List.flatMap_cons, ← List.append_assoc] at h hshort
      rcases h.absorb hends hshort with
        ⟨before, after, last, left, rfl, habsorb, hmore, hlater, hshort⟩
      rcases ih hmore hlater hshort with ⟨hevents, hframer⟩
      simp only [Framer.absorbAll, habsorb, List.map_append, List.map_map]
      refine ⟨?_, hframer⟩
      rw [hevents]
      exact congrArg (· ++ after) (List.map_id before)

/-- Draining a stream that is not refused reads it to where more bytes are missing. -/
theorem drain_reads {stream : Bytes}
    (hframes : ∀ e, .error e ∈ (empty.drain stream).1 → e.isProtocol = false) :
    ∃ last left, Reads .start stream (empty.drain stream).1 last left ∧ look last left = .more ∧
      (empty.drain stream).2 = framerAt last left := by
  rcases drain_framerAt .start [] stream with ⟨events, last, left, hreads, hstops, hdrain⟩
  change empty.drain _ = _ at hdrain
  rcases hstops with hmore | ⟨e, hrefused⟩
  · rw [hdrain, drained, hmore]
    exact ⟨last, left, hreads, hmore, rfl⟩
  · -- A refusal would be the last event.
    have hprotocol : e.isProtocol = false := by
      refine hframes e ?_
      rw [hdrain, drained, hrefused]
      exact List.mem_append_right _ List.mem_cons_self
    rw [look_isProtocol hrefused] at hprotocol
    exact absurd hprotocol (by decide)

/-- A stream that is not refused is taken in pieces as it is taken in one. -/
theorem absorbAll_drain (arrivals : List (UInt64 × Bytes))
    (hshort : ShortLines .start (arrivals.flatMap (·.2)))
    (hframes : ∀ e, .error e ∈ (empty.drain (arrivals.flatMap (·.2))).1 → e.isProtocol = false) :
    (empty.absorbAll arrivals).1.map (·.2) = (empty.drain (arrivals.flatMap (·.2))).1 ∧
      (empty.absorbAll arrivals).2 = (empty.drain (arrivals.flatMap (·.2))).2 := by
  rcases drain_reads hframes with ⟨last, left, hreads, hmore, hrest⟩
  rw [hrest]
  exact @Reads.absorbAll _ _ hmore arrivals .start [] _ rfl hreads hshort

/-- From a position the bytes are read to their end, as the given events, and no line that is looked
    for on the way is too long. -/
structure Carries (position : Position) (bytes : Bytes) (events : List Event) : Prop where
  reads : Reads position bytes events .start []
  short : ShortLines position bytes

namespace Carries

variable {position next : Position} {bytes rest more : Bytes} {found : Event}
  {events before after : List Event}

/-- No bytes carry nothing. -/
theorem nil : Carries .start [] [] := ⟨.here _ _, .of_length_le _ (by simp)⟩

theorem move (h : look position bytes = .moved next rest) (hfits : LineFits position bytes)
    (hrest : Carries next rest events) : Carries position bytes events := by
  refine ⟨.move h hrest.reads, ?_⟩
  intro events' last left hreads
  cases hreads with
  | here => exact hfits
  | move h' later =>
      rw [h] at h'
      rcases Outlook.moved.inj h' with ⟨rfl, rfl⟩
      exact hrest.short _ _ _ later
  | event h' => simp only [h, reduceCtorEq] at h'

theorem event (h : look position bytes = .found found rest) (hfits : LineFits position bytes)
    (hrest : Carries .start rest events) : Carries position bytes (found :: events) := by
  refine ⟨.event h hrest.reads, ?_⟩
  intro events' last left hreads
  cases hreads with
  | here => exact hfits
  | move h' => simp only [h, reduceCtorEq] at h'
  | event h' later =>
      rw [h] at h'
      rcases Outlook.found.inj h' with ⟨rfl, rfl⟩
      exact hrest.short _ _ _ later

/-- Streams one behind the other are read in order. -/
theorem append (h : Carries position bytes before) (h' : Carries .start more after) :
    Carries position (bytes ++ more) (before ++ after) :=
  ⟨(h.reads.append more).trans h'.reads, .append h.reads h.short h'.short⟩

theorem flatMap {α : Type} {items : List α} {stream : α → Bytes} {event : α → Event}
    (h : ∀ item ∈ items, Carries .start (stream item) [event item]) :
    Carries .start (items.flatMap stream) (items.map event) := by
  induction items with
  | nil => exact .nil
  | cons item rest ih =>
      rw [List.forall_mem_cons] at h
      rw [List.flatMap_cons, List.map_cons]
      exact h.1.append (ih h.2)

/-- A framer that takes a piece of a stream hands out the events that the piece completes. -/
theorem absorb {unread chunk rest : Bytes}
    (h : Carries position (unread ++ chunk ++ rest) events) :
    ∃ before after last left, events = before ++ after ∧
      (framerAt position unread).absorb chunk = (before, framerAt last left) ∧
      look last left = .more ∧ Carries last (left ++ rest) after := by
  rcases h.reads.absorb rfl h.short with
    ⟨before, after, last, left, hevents, habsorb, hmore, hlater, hshort⟩
  exact ⟨before, after, last, left, hevents, habsorb, hmore, hlater, hshort⟩

/-- When all of a stream has come in, a framer that waits for more has handed out all events. -/
theorem finished (h : Carries position bytes events) (hmore : look position bytes = .more) :
    events = [] := by
  have hdone := (Reads.here position bytes).unique (Or.inl hmore) h.reads (Or.inl rfl)
  exact hdone.1.symm

/-- A framer that takes a stream in pieces hands out its events, and is left as it was at first. -/
theorem drainAll {chunks : List Bytes} (h : Carries .start chunks.flatten events) :
    empty.drainAll chunks = (events, empty) := by
  rcases drainAll_empty chunks h.short with ⟨found, last, left, hreads, hstops, hevents, hrest⟩
  rcases hreads.unique hstops h.reads (Or.inl rfl) with ⟨rfl, rfl, rfl⟩
  exact Prod.ext hevents (hrest rfl)

end Carries

end Framer

end KeyValue
