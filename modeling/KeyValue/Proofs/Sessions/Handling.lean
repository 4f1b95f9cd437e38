import KeyValue.Connection
import KeyValue.Proofs.Framing.Carrying

/-!
# Handling a stream event by event

How a stream is cut into pieces does not matter to what a connection does with it, as long as none
of its commands waits.

Handling an event leaves alone what was received (`handle_buffers`): the framer, and what was framed
behind the event. So what each event keeps true of the events ahead can be followed along the events
that the whole stream carries (`receiveAll_carries`), and the pieces are forgotten.

## Main definitions

* `Connection.receiveAll`: Pieces come in one after another.

## Theorems

* `handle_buffers`, `handle_framer`, `handle_backlog`: Handling leaves alone what was received.
* `receiveAll_carries`: A stream that comes in is handled event by event.
-/

namespace KeyValue

namespace Connection

variable (connection : Connection) (engine : Engine)

theorem enroll_buffers (framer : Framer) (backlog : List Framer.Event) :
    { connection with framer, backlog }.enroll engine =
      ({ (connection.enroll engine).1 with framer, backlog }, (connection.enroll engine).2) := by
  unfold enroll
  cases engine.role <;> rfl

theorem answer_buffers (response : Response) (framer : Framer) (backlog : List Framer.Event) :
    { connection with framer, backlog }.answer engine response =
      ({ (connection.answer engine response).1 with framer, backlog },
        (connection.answer engine response).2) := by
  cases response with
  | reply reply => rfl
  | silent => rfl
  | fullResync header snapshot => exact connection.enroll_buffers _ framer backlog

variable (now : UInt64) (event : Framer.Event)

/-- Handling an event neither looks at what else was received nor changes it. -/
theorem handle_buffers (framer : Framer) (backlog : List Framer.Event) :
    { connection with framer, backlog }.handle engine now event =
      ({ (connection.handle engine now event).1 with framer, backlog },
        (connection.handle engine now event).2) := by
  cases event with
  | error e => rfl
  | ok command =>
      simp only [handle]
      rcases engine.dispatch connection.session now command with
        ⟨response | ⟨pending, index⟩, after, session⟩
      · exact answer_buffers { connection with session } after response framer backlog
      · rfl

theorem handle_framer : (connection.handle engine now event).1.framer = connection.framer :=
  congrArg (·.1.framer)
    (connection.handle_buffers engine now event connection.framer connection.backlog)

theorem handle_backlog (backlog : List Framer.Event) :
    { connection with backlog }.handle engine now event =
      ({ (connection.handle engine now event).1 with backlog },
        (connection.handle engine now event).2) := by
  refine (connection.handle_buffers engine now event connection.framer backlog).trans ?_
  simp only [handle_framer]

/-- Pieces come in one after another, each at its time. -/
def receiveAll (connection : Connection) (engine : Engine) :
    List (UInt64 × Bytes) → Connection × Engine
  | [] => (connection, engine)
  | (now, chunk) :: rest =>
    let (connection, engine) := connection.receive engine now chunk
    connection.receiveAll engine rest

section Carrying

variable {Holds : List Framer.Event → Connection → Engine → Prop}
  (hbuffers : ∀ {events connection engine} framer backlog, Holds events connection engine →
    Holds events { connection with framer, backlog } engine)
  (hidle : ∀ {events connection engine}, Holds events connection engine →
    connection.suspended = none)
  (hhandle : ∀ {event events connection engine} now, Holds (event :: events) connection engine →
    Holds events (connection.handle engine now event).1 (connection.handle engine now event).2)
include hbuffers hidle hhandle

theorem handleAll_carries (now : UInt64) {later : List Framer.Event}
    (events : List Framer.Event) :
    ∀ {connection : Connection} {engine : Engine}, Holds (events ++ later) connection engine →
      Holds later (connection.handleAll engine now events).1
          (connection.handleAll engine now events).2 ∧
        (connection.handleAll engine now events).1.framer = connection.framer := by
  induction events with
  | nil => exact fun h => ⟨hbuffers _ _ h, rfl⟩
  | cons event rest ih =>
      intro connection engine h
      have hnext := hhandle now h
      have hnone := hidle hnext
      simp only [handleAll, hnone, Option.isSome_none, Bool.false_eq_true, if_false]
      rcases ih hnext with ⟨hrest, hframer⟩
      exact ⟨hrest, hframer.trans (connection.handle_framer engine now event)⟩

/-- A stream that comes in piece by piece is handled event by event: what each event keeps true of
    the events ahead holds without any ahead when all pieces have come in. -/
theorem receiveAll_carries (arrivals : List (UInt64 × Bytes)) :
    ∀ {connection : Connection} {engine : Engine} {position : Framer.Position} {unread : Bytes}
      {events : List Framer.Event}, connection.framer = Framer.framerAt position unread →
      Framer.look position unread = .more →
      Framer.Carries position (unread ++ arrivals.flatMap (·.2)) events →
      Holds events connection engine →
      Holds [] (connection.receiveAll engine arrivals).1
        (connection.receiveAll engine arrivals).2 := by
  induction arrivals with
  | nil =>
      intro connection engine position unread events _ hmore hcarries h
      rw [List.flatMap_nil, List.append_nil] at hcarries
      rwa [hcarries.finished hmore] at h
  | cons arrival rest ih =>
      intro connection engine position unread events hframer _ hcarries h
      rcases arrival with ⟨now, chunk⟩
      rw [List.flatMap_cons, ← List.append_assoc] at hcarries
      -- What the piece completes is handled now, and the framer is left where the rest goes on.
      rcases hcarries.absorb with ⟨before, after, last, left, rfl, habsorb, hmore, hlater⟩
      have hnone : connection.suspended.isSome = false := by rw [hidle h, Option.isSome_none]
      rcases @handleAll_carries Holds hbuffers hidle hhandle now after before _ _
        (hbuffers (Framer.framerAt last left) connection.backlog h) with ⟨hafter, hframer'⟩
      simp only [receiveAll, receive, hframer, habsorb, hnone, Bool.false_eq_true, if_false]
      exact ih hframer' hmore hlater hafter

end Carrying

end Connection

end KeyValue
