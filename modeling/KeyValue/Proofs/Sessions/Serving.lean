import KeyValue.Proofs.Framing.Draining
import KeyValue.Proofs.Sessions.Conversation
import KeyValue.Replication.Following

/-!
# The loops that bytes are handled by

A connection and the replica's end of a link handle a chunk in the same loop, and differ in what
they do with an event. A connection answers it, or keeps it behind a command that waits (`heed`); a
replica applies it and goes on without a word if it is none (`obey`).

Both loops come to an end (`Between.deliveries_end`), and leave behind what `receive` says. A client
gets one error for each error that is framed, and bytes that come in later are framed as they would
be by a fresh framer.

## Main definitions

* `Connection.heed`: A connection is told of an event.
* `Following.obey`: A replica is told of an event.

## Theorems

* `receive_eq_foldl`: Bytes that come in are handled event by event.
* `proceed_eq_foldl`: So are events that were kept behind a command that waited.
* `Between.deliveries_end`: The loops of a connection and of a replica come to an end.
-/

namespace KeyValue

namespace Connection

/-- A connection is told of an event: it handles it, unless a command waits. -/
def heed (now : UInt64) (state : Connection × Engine) (event : Framer.Event) :
    Connection × Engine :=
  if state.1.suspended.isSome then
    ({ state.1 with backlog := state.1.backlog ++ [event] }, state.2)
  else state.1.handle state.2 now event

variable {connection : Connection} {engine : Engine} {now : UInt64}

-- Behind a command that waits, events are kept.
theorem foldl_heed_waiting (hwaits : connection.suspended.isSome = true)
    (events : List Framer.Event) :
    events.foldl (heed now) (connection, engine) =
      ({ connection with backlog := connection.backlog ++ events }, engine) := by
  induction events generalizing connection with
  | nil => rw [List.append_nil]; rfl
  | cons event rest ih =>
      have hheed : heed now (connection, engine) event =
          ({ connection with backlog := connection.backlog ++ [event] }, engine) := if_pos hwaits
      rw [List.foldl_cons, hheed]
      refine (@ih { connection with backlog := connection.backlog ++ [event] } hwaits).trans ?_
      rw [List.append_assoc, List.singleton_append]

-- Handling an event leaves alone what is kept behind it.
theorem backlog_handle (connection : Connection) (engine : Engine) (now : UInt64)
    (event : Framer.Event) :
    (connection.handle engine now event).1.backlog = connection.backlog :=
  congrArg (·.1.backlog) (connection.handle_backlog engine now event connection.backlog)

/-- Events are handled one by one, up to one that waits. -/
theorem handleAll_eq_foldl (hidle : connection.suspended = none) (events : List Framer.Event) :
    connection.handleAll engine now events =
      events.foldl (heed now) ({ connection with backlog := [] }, engine) := by
  induction events generalizing connection engine with
  | nil => rfl
  | cons event rest ih =>
      have hheed : heed now ({ connection with backlog := [] }, engine) event =
          ({ (connection.handle engine now event).1 with backlog := [] },
            (connection.handle engine now event).2) := by
        rw [heed, if_neg (by simp [hidle])]
        exact connection.handle_backlog engine now event []
      rw [List.foldl_cons, hheed]
      simp only [handleAll]
      split
      · rename_i hwaits
        exact (@foldl_heed_waiting
          { (connection.handle engine now event).1 with backlog := [] } _ now hwaits rest).symm
      · rename_i hnone
        exact ih (by simpa using hnone)

-- What was received is left alone.
theorem heed_framer (framer : Framer) (event : Framer.Event) :
    heed now ({ connection with framer }, engine) event =
      ({ (heed now (connection, engine) event).1 with framer },
        (heed now (connection, engine) event).2) := by
  unfold heed
  split
  · rfl
  · rename_i hidle
    have hbuffers := connection.handle_buffers engine now event framer connection.backlog
    rw [hbuffers, ← backlog_handle connection engine now event]

theorem foldl_heed_framer (framer : Framer) (events : List Framer.Event) :
    events.foldl (heed now) ({ connection with framer }, engine) =
      ({ (events.foldl (heed now) (connection, engine)).1 with framer },
        (events.foldl (heed now) (connection, engine)).2) := by
  induction events generalizing connection engine with
  | nil => rfl
  | cons event rest ih =>
      rw [List.foldl_cons, List.foldl_cons, heed_framer]
      exact ih

-- An answer leaves no command that waits, and leaves alone what is kept.
theorem answer_kept (hidle : connection.suspended = none) (response : Response)
    (backlog : List Framer.Event) :
    (connection.answer engine response).1.suspended = none ∧
      (connection.answer engine response).1.backlog = connection.backlog ∧
      { connection with backlog }.answer engine response =
        ({ (connection.answer engine response).1 with backlog },
          (connection.answer engine response).2) := by
  cases response with
  | reply reply => exact ⟨hidle, rfl, rfl⟩
  | silent => exact ⟨hidle, rfl, rfl⟩
  | fullResync header snapshot =>
      simp only [answer, enroll, announce, write]
      cases engine.role <;> exact ⟨hidle, rfl, rfl⟩

/-- What was kept behind a command that waited is handled event by event when it is answered. -/
theorem proceed_eq_foldl (response : Response) :
    connection.proceed engine now response =
      connection.backlog.foldl (heed now)
        ({ connection with suspended := none, backlog := [] }.answer engine response) := by
  have hkept := @answer_kept { connection with suspended := none } engine rfl response []
  unfold proceed
  rw [hkept.2.2]
  simp only
  rw [handleAll_eq_foldl hkept.1, hkept.2.1]

/-- Bytes that come in are framed, and handled event by event. -/
theorem receive_eq_foldl (hsettled : Conversation.Settled connection) (chunk : Bytes) :
    connection.receive engine now chunk =
      ({ ((connection.framer.absorb chunk).1.foldl (heed now) (connection, engine)).1 with
          framer := (connection.framer.absorb chunk).2 },
        ((connection.framer.absorb chunk).1.foldl (heed now) (connection, engine)).2) := by
  rw [← foldl_heed_framer]
  unfold receive
  rcases connection.framer.absorb chunk with ⟨events, framer⟩
  simp only
  split
  · rename_i hwaits
    exact (@foldl_heed_waiting { connection with framer } engine now hwaits events).symm
  · rename_i hidle
    have hnone : connection.suspended = none := by simpa using hidle
    rw [@handleAll_eq_foldl { connection with framer } engine now hnone, ← hsettled hnone]

/-- Each error among the events is answered with one error. If a command waits in front of it, it is
    kept with what is behind it until the command is answered. -/
def AnswersErrors (now : UInt64) (state : Connection × Engine) (events : List Framer.Event)
    (after : Connection × Engine) : Prop :=
  ∀ before e later reached, events = before ++ .error e :: later →
    before.foldl (heed now) state = reached →
    (reached.1.suspended = none → after = later.foldl (heed now)
      (reached.1, reached.1.write reached.2 (Reply.ofError e).encode)) ∧
    (reached.1.suspended.isSome = true →
      after = ({ reached.1 with backlog := reached.1.backlog ++ .error e :: later }, reached.2))

theorem answersErrors_foldl (now : UInt64) (state : Connection × Engine)
    (events : List Framer.Event) :
    AnswersErrors now state events (events.foldl (heed now) state) := by
  rintro before e later ⟨connection, engine⟩ rfl hreached
  rw [List.foldl_append, hreached]
  constructor
  · intro hidle
    have hnone : connection.suspended.isSome = false := Option.isSome_eq_false_iff.mpr
      (Option.isNone_iff_eq_none.mpr hidle)
    simp only [List.foldl_cons, heed, hnone, Bool.false_eq_true, if_false, handle]
  · exact fun hwaits => foldl_heed_waiting hwaits _

end Connection

namespace Following

/-- A replica is told of an event. What it writes back goes behind what was written before. -/
def obey (now : UInt64) (state : Bytes × Engine) (event : Framer.Event) : Bytes × Engine :=
  (state.1 ++ (applyEvent state.2 now event).1, (applyEvent state.2 now event).2)

/-- Events are applied one by one. -/
theorem foldl_obey (now : UInt64) (events : List Framer.Event) (written : Bytes)
    (engine : Engine) :
    events.foldl (obey now) (written, engine) =
      (written ++ (applyAll engine now events).1, (applyAll engine now events).2) := by
  induction events generalizing written engine with
  | nil => simp only [List.foldl_nil, applyAll, List.append_nil]
  | cons event rest ih =>
      simp only [List.foldl_cons, obey, applyAll, ih, List.append_assoc]

end Following

open Connection Following

/-- Whatever a chunk is, the loops that it is handled by come to an end: the framer was fed once
    more than there are bytes at most. A connection and a replica are left behind as they are when
    they receive the chunk. A client gets one error for each error that is framed, a replica is not
    told of it, and from there on bytes are framed as by a fresh framer. -/
theorem Framer.Between.deliveries_end {framer : Framer} (h : framer.Between) (engine : Engine)
    (now : UInt64) (chunk : Bytes) :
    framer.Recovers chunk ∧
    (∀ connection : Connection, connection.framer = framer → Conversation.Settled connection →
      ∃ feeds last after, Drains (heed now) framer chunk (connection, engine) feeds last after ∧
        feeds ≤ framer.buffered + chunk.length + 1 ∧
        connection.receive engine now chunk = ({ after.1 with framer := last }, after.2) ∧
        last = (framer.absorb chunk).2 ∧
        AnswersErrors now (connection, engine) (framer.absorb chunk).1 after) ∧
    ∃ feeds last after, Drains (obey now) framer chunk ([], engine) feeds last after ∧
      feeds ≤ framer.buffered + chunk.length + 1 ∧
      Following.receive ⟨framer⟩ engine now chunk = (after.1, ⟨last⟩, after.2) ∧
      last = (framer.absorb chunk).2 := by
  refine ⟨h.recovers chunk, ?_, ?_⟩
  · rintro connection rfl hsettled
    rcases h.drains (heed now) chunk (connection, engine) with ⟨feeds, hdrains, hfeeds⟩
    exact ⟨feeds, _, _, hdrains, by omega, receive_eq_foldl hsettled chunk, rfl,
      answersErrors_foldl now _ _⟩
  · rcases h.drains (obey now) chunk ([], engine) with ⟨feeds, hdrains, hfeeds⟩
    refine ⟨feeds, _, _, hdrains, by omega, ?_, rfl⟩
    rw [foldl_obey, List.nil_append]
    rfl

-- Half an array is there. What comes in is its other half, an unknown command, blank bytes and a
-- length that is none.
theorem Framer.Between.deliveries_end_broken :
    let half : Bytes := [42, 49, 13, 10, 36, 52, 13, 10, 80, 73]
    let chunk : Bytes := [78, 71, 13, 10, 63, 13, 10, 13, 10, 42, 120, 13, 10, 80, 73, 78, 71]
    let framer := (empty.absorb half).2
    framer.Between ∧ Conversation.Settled { link := 0, framer } ∧
      framer.Recovers chunk ∧
      ∃ feeds last after,
        Drains (heed 7) framer chunk ({ link := 0, framer }, default) feeds last after ∧
        feeds ≤ 28 := by
  intro half chunk framer
  have hbetween : framer.Between := Framer.Between.fresh.absorb half
  have hsettled : Conversation.Settled { link := 0, framer } := fun _ => rfl
  rcases Framer.Between.deliveries_end hbetween default 7 chunk with ⟨hrecovers, hserves, -⟩
  rcases hserves { link := 0, framer } rfl hsettled with ⟨feeds, last, after, hdrains, hfeeds, -⟩
  have hbuffered : framer.buffered = 10 := by decide +kernel
  refine ⟨hbetween, hsettled, hrecovers, feeds, last, after, hdrains, ?_⟩
  rw [hbuffered] at hfeeds
  exact hfeeds

end KeyValue
