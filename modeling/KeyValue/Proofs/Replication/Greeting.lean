import KeyValue.Proofs.Replication.Parts
import KeyValue.Proofs.Sessions.Sharing

/-!
# Both sides of the handshake

A replica introduces itself to a master over a new connection, while other connections do as they
like.

What the replica says is known from what has arrived at it, and what the master makes of what it
has heard is known from its framer. Bytes travel in pieces of any length, so both may be anywhere in
the middle of a request or an answer. But they never drift apart: the parts of the handshake are
answered one after another, and what the master is going to frame next is the first part that is
not answered yet (`Hears`). The link is registered when all parts are answered, so up to the last
byte of the snapshot nothing but answers is written to it, and from then on only whole commands are
(`Along`).

Nothing is lost on the way either. Until the replica has succeeded, a piece can be heard or can
arrive, or the master can answer (`Along.moves`); and with each of these moves there is less left to
be said (`Along.bounded`).

## Main definitions

* `Greeting`: A replica and a master in the middle of a handshake.
* `Greeting.Step`, `Greeting.Run`: What happens to them, with the moves of the two.
* `Greeting.Hears`: How what was heard stands to the parts of the handshake.
* `Greeting.Along`: The two stand at a point of the script.

## Theorems

* `Step.stands`, `Run.stands`: Each step leads on along the script.
* `Run.completes`: The handshake can always be brought to its end.
* `Run.agrees`: What the replica has got when the handshake succeeds, and that it does.
-/

namespace KeyValue

open Framer Handshake Wire

/-- A replica that introduces itself to a master, amid the other connections of the master. -/
structure Greeting where
  crowd : Crowd
  /-- What the master has heard of the replica. -/
  heard : Bytes := []
  /-- What has arrived at the replica. -/
  arrived : Bytes := []
  /-- The resync is announced, and the link is not registered yet. -/
  enrolling : Bool := false

namespace Greeting

/-- The replica has connected. -/
def start (crowd : Crowd) : Greeting :=
  { crowd := crowd.put (Connection.opened crowd.engine).1 (Connection.opened crowd.engine).2 }

section Steps

variable (port : UInt16) (link : Nat)

/-- What happens next, and how many moves of the two sides it is. -/
inductive Step : Greeting → Nat → Greeting → Prop where
  /-- Bytes that the replica said come in at the master. -/
  | hear {greeting : Greeting} {connection : Connection} {events : List Event} {framer : Framer}
      (chunk coming : Bytes) (hchunk : chunk ≠ [])
      (hserved : greeting.crowd.served link = some connection)
      (hsent : (Handshake.run port greeting.arrived).sent = greeting.heard ++ (chunk ++ coming))
      (habsorb : connection.framer.absorb chunk = (events, framer)) :
      Step greeting 1
        { greeting with
          crowd := greeting.crowd.put
            { connection with framer, backlog := connection.backlog ++ events }
            greeting.crowd.engine
          heard := greeting.heard ++ chunk }
  /-- The master handles what it framed, unless this is granted a resync. -/
  | handle {greeting : Greeting} {connection : Connection} {event : Event} {rest : List Event}
      (now : UInt64) (hserved : greeting.crowd.served link = some connection)
      (hidle : connection.suspended = none) (hfree : greeting.enrolling = false)
      (hbacklog : connection.backlog = event :: rest)
      (hgranted : connection.granted greeting.crowd.engine event = []) :
      Step greeting 1
        { greeting with
          crowd := greeting.crowd.put
            ({ connection with backlog := rest }.handle greeting.crowd.engine now event).1
            ({ connection with backlog := rest }.handle greeting.crowd.engine now event).2 }
  /-- A resync is granted, and it is announced. -/
  | announce {greeting : Greeting} {connection : Connection} {command : Command}
      {rest : List Event} {header : Reply} {snapshot : Bytes} {after : Engine} {session : Session}
      (now : UInt64) (hserved : greeting.crowd.served link = some connection)
      (hidle : connection.suspended = none) (hfree : greeting.enrolling = false)
      (hbacklog : connection.backlog = .ok command :: rest)
      (hdispatch : greeting.crowd.engine.dispatch connection.session now command =
        (.answered (.fullResync header snapshot), after, session)) :
      Step greeting 1
        { greeting with
          crowd := greeting.crowd.put { connection with session, backlog := rest }
            (connection.announce after header snapshot)
          enrolling := true }
  /-- The link is registered. -/
  | enroll {greeting : Greeting} {connection : Connection}
      (hserved : greeting.crowd.served link = some connection)
      (henrolling : greeting.enrolling = true) :
      Step greeting 1
        { greeting with
          crowd := greeting.crowd.put (connection.enroll greeting.crowd.engine).1
            (connection.enroll greeting.crowd.engine).2
          enrolling := false }
  /-- Bytes that the master wrote arrive at the replica. -/
  | arrive {greeting : Greeting} (chunk coming : Bytes) (hchunk : chunk ≠ [])
      (hwritten : greeting.crowd.engine.links.written link =
        greeting.arrived ++ (chunk ++ coming)) :
      Step greeting 1 { greeting with arrived := greeting.arrived ++ chunk }
  /-- Others act. -/
  | others {greeting : Greeting} {granted : List Nat} {after : Crowd}
      (h : Crowd.Step greeting.crowd granted after)
      (hsame : after.served link = greeting.crowd.served link) :
      Step greeting 0 { greeting with crowd := after }

/-- Any number of steps, with the number of moves. -/
inductive Run (first : Greeting) : Nat → Greeting → Prop where
  | start : Run first 0 first
  | step {moves more : Nat} {before after : Greeting} (h : Run first moves before)
      (h' : Step port link before more after) : Run first (moves + more) after

end Steps

/-- What a connection makes of what it has heard, with the parts that are answered and those that
    are not: what it has framed, and is going to frame with what is still to come, is the next
    part. -/
structure Hears (connection : Connection) (heard : Bytes) (answered later : List Part) : Prop where
  idle : connection.suspended = none
  closed : connection.session.transaction = .closed
  frames : ∃ position unread coming events,
    connection.framer = framerAt position unread ∧ look position unread = .more ∧
    Carries position (unread ++ coming) events ∧
    connection.backlog ++ events = (later.take 1).map (.ok ·.command) ∧
    heard ++ coming = (answered ++ later.take 1).flatMap (·.command.raw)

namespace Hears

variable {connection next : Connection} {heard : Bytes} {answered later : List Part} {part : Part}

theorem congr (h : Hears connection heard answered later)
    (hsuspended : next.suspended = connection.suspended)
    (htransaction : next.session.transaction = connection.session.transaction)
    (hframer : next.framer = connection.framer) (hbacklog : next.backlog = connection.backlog) :
    Hears next heard answered later :=
  ⟨hsuspended.trans h.idle, htransaction.trans h.closed, hframer ▸ hbacklog ▸ h.frames⟩

/-- A connection that has heard nothing. -/
theorem opened (engine : Engine)
    (h : Carries .start part.command.raw [.ok part.command]) :
    Hears (Connection.opened engine).1 [] [] (part :: later) := by
  refine ⟨rfl, rfl, .start, [], part.command.raw, [.ok part.command], rfl, rfl, h, rfl, ?_⟩
  simp

/-- More is heard. -/
theorem absorb {chunk : Bytes} {events : List Event} {framer : Framer}
    (h : Hears connection heard answered later)
    (hchunk : heard ++ chunk <+: (answered ++ later.take 1).flatMap (·.command.raw))
    (habsorb : connection.framer.absorb chunk = (events, framer)) :
    Hears { connection with framer, backlog := connection.backlog ++ events } (heard ++ chunk)
      answered later := by
  rcases h.frames with ⟨position, unread, coming, all, hframer, -, hcarries, hbacklog, hheard⟩
  rw [← hheard, List.prefix_append_right_inj] at hchunk
  rcases hchunk with ⟨rest, rfl⟩
  rw [← List.append_assoc] at hcarries
  rcases hcarries.absorb with ⟨found, after, last, left, rfl, hfound, hmore, hcarries⟩
  rw [hframer, hfound] at habsorb
  obtain ⟨rfl, rfl⟩ := Prod.mk.inj habsorb
  refine ⟨h.idle, h.closed, last, left, rest, after, rfl, hmore, hcarries, ?_, ?_⟩
  · rw [List.append_assoc, hbacklog]
  · rw [List.append_assoc, hheard]

/-- What is framed first is the next part, and nothing is framed after it. When it is answered, the
    connection is ready for the part behind it. -/
theorem answers {event : Event} {rest : List Event} (h : Hears connection heard answered later)
    (hlater : ∀ part ∈ later, Carries .start part.command.raw [.ok part.command])
    (hbacklog : connection.backlog = event :: rest) :
    ∃ part remaining, later = part :: remaining ∧ event = .ok part.command ∧
      Hears { connection with backlog := rest } heard (answered ++ [part]) remaining := by
  rcases h.frames with ⟨position, unread, coming, events, hframer, hmore, hcarries, hframed, hheard⟩
  rw [hbacklog] at hframed
  rcases later with _ | ⟨part, remaining⟩
  · simp at hframed
  · simp only [List.take_succ_cons, List.take_zero, List.map_cons, List.map_nil, List.cons_append,
      List.cons.injEq, List.append_eq_nil_iff] at hframed hheard
    rcases hframed with ⟨hevent, rfl, rfl⟩
    have hnext : Carries .start ((remaining.take 1).flatMap (·.command.raw))
        ((remaining.take 1).map (.ok ·.command)) := .flatMap fun next hmem =>
      hlater next (List.mem_cons_of_mem _ (List.mem_of_mem_take hmem))
    refine ⟨part, remaining, rfl, hevent, h.idle, h.closed, position, unread,
      coming ++ (remaining.take 1).flatMap (·.command.raw), _, hframer, hmore, ?_, rfl, ?_⟩
    · rw [← List.append_assoc]
      exact hcarries.append hnext
    · rw [← List.append_assoc, hheard, ← List.flatMap_append]

/-- When nothing is framed, the next part was not heard to its end. -/
theorem unheard (h : Hears connection heard answered (part :: later))
    (hbacklog : connection.backlog = []) :
    ∃ coming, coming ≠ [] ∧
      heard ++ coming = (answered ++ [part]).flatMap (·.command.raw) := by
  rcases h.frames with ⟨position, unread, coming, events, -, hmore, hcarries, hframed, hheard⟩
  refine ⟨coming, ?_, hheard⟩
  rintro rfl
  rw [List.append_nil] at hcarries
  rw [hbacklog, hcarries.finished hmore] at hframed
  simp at hframed

end Hears

/-- Where the two are: parts are still to be answered; or all are, and the link is about to be
    registered; or it is registered, and commands follow. -/
inductive Stage (later : List Part) (count : Nat) (commands : List Command) (enrolling : Bool) :
    Prop where
  | asks (hlater : later ≠ []) (hcount : count = 0) (hcommands : commands = [])
      (henrolling : enrolling = false)
  | announced (hlater : later = []) (hcount : count = 0) (hcommands : commands = [])
      (henrolling : enrolling = true)
  | follows (hlater : later = []) (hcount : count = 1) (henrolling : enrolling = false)

/-- The two stand at a point of the script, and the commands that followed it are whole. -/
structure Along (port : UInt16) (link : Nat) (resync : Resync) (log : List Nat)
    (answered later : List Part) (commands : List Command) (greeting : Greeting) : Prop where
  script : Part.script port resync = answered ++ later
  books : Crowd.Books log greeting.crowd
  framed : greeting.crowd.Framed
  announced : greeting.crowd.engine.announced = some (resync.replicationId, resync.offset)
  hears : ∃ connection, greeting.crowd.served link = some connection ∧
    Hears connection greeting.heard answered later
  stage : Stage later (log.count link) commands greeting.enrolling
  written : greeting.crowd.engine.links.written link =
    answered.flatMap (·.answer) ++ commands.flatMap (·.raw)
  whole : ∀ command ∈ commands, command.Framed
  arrived : greeting.arrived <+: greeting.crowd.engine.links.written link
  heard : greeting.heard <+: (Handshake.run port greeting.arrived).sent

/-- As many moves as there are bytes to hear and to arrive and parts to answer, and one more, when
    the link is registered. -/
def moveLimit (lines : List Line) : Nat :=
  (requests lines).length + (answers lines).length + lines.length + 1

namespace Along

variable {port : UInt16} {link : Nat} {resync : Resync} {log : List Nat}
  {answered later : List Part} {commands : List Command} {greeting : Greeting}

theorem hears_of_served (h : Along port link resync log answered later commands greeting)
    {connection : Connection} (hserved : greeting.crowd.served link = some connection) :
    Hears connection greeting.heard answered later := by
  rcases h.hears with ⟨other, hother, hears⟩
  obtain rfl := Option.some.inj (hserved.symm.trans hother)
  exact hears

-- When no part is left, all answers are written, with what follows.
theorem written_all (h : Along port link resync log answered [] commands greeting) :
    greeting.crowd.engine.links.written link =
      answers (lines (exchanges port) resync) ++ commands.flatMap (·.raw) := by
  rw [h.written, ← Part.script_lines, Part.answers_lines, h.script, List.append_nil]

-- What is written is the beginning of all answers, or all of them with what follows.
theorem written_begins (h : Along port link resync log answered later commands greeting) :
    greeting.crowd.engine.links.written link <+:
      answers (lines (exchanges port) resync) ++ commands.flatMap (·.raw) := by
  rcases h.stage with ⟨-, -, rfl, -⟩ | ⟨rfl, -, -, -⟩ | ⟨rfl, -, -⟩
  · rw [h.written, ← Part.script_lines, Part.answers_lines, h.script, List.flatMap_append,
      List.flatMap_nil, List.append_nil, List.append_nil]
    exact List.prefix_append _ _
  all_goals exact h.written_all ▸ List.prefix_refl _

/-- What is behind the answers is the commands that followed. -/
theorem behind_answers (h : Along port link resync log answered later commands greeting)
    {rest : Bytes} (hwritten : greeting.crowd.engine.links.written link =
      answers (lines (exchanges port) resync) ++ rest) : rest = commands.flatMap (·.raw) := by
  have hbegins := h.written_begins
  rcases h.stage with ⟨-, -, rfl, -⟩ | ⟨rfl, -, -, -⟩ | ⟨rfl, -, -⟩
  · rw [hwritten, List.prefix_append_right_inj, List.flatMap_nil, List.prefix_nil] at hbegins
    exact hbegins
  all_goals exact List.append_cancel_left (hwritten.symm.trans h.written_all)

/-- What the replica says when all that is written has arrived: the next part, and nothing after
    it. -/
theorem said_written (h : Along port link resync log answered later commands greeting) :
    said (lines (exchanges port) resync) (greeting.crowd.engine.links.written link) =
      (answered ++ later.take 1).flatMap (·.command.raw) := by
  have hscript := h.script
  rw [h.written, ← Part.script_lines, h.script, List.map_append, ← Part.answers_lines, said_append,
    Part.requests_lines, List.flatMap_append]
  rcases h.stage with ⟨hlater, -, rfl, -⟩ | ⟨rfl, -, -, -⟩ | ⟨rfl, -, -⟩
  · rcases List.exists_cons_of_ne_nil hlater with ⟨part, rest, rfl⟩
    have hanswer : part.answer ≠ [] :=
      Part.answer_ne_nil (hscript ▸ List.mem_append_right _ List.mem_cons_self)
    simp [said, Part.line, hanswer]
  all_goals rfl

section Replica

variable (hreadable : resync.Readable)
include hreadable

/-- The replica has said as much as it could with what has arrived, and has succeeded if all answers
    have arrived, and only then. -/
theorem run_arrived (h : Along port link resync log answered later commands greeting)
    {arrived : Bytes} (harrived : arrived <+: greeting.crowd.engine.links.written link) :
    (Handshake.run port arrived).sent = said (lines (exchanges port) resync) arrived ∧
      ((∃ found, (Handshake.run port arrived).outcome = .ok found) →
        answers (lines (exchanges port) resync) <+: arrived) ∧
      (answers (lines (exchanges port) resync) <+: arrived →
        (Handshake.run port arrived).outcome = .ok resync ∧
        arrived = answers (lines (exchanges port) resync) ++
          (Handshake.run port arrived).unread) := by
  refine runFrom_lines hreadable (exchanges port) ?_ (harrived.trans h.written_begins)
  simp only [exchanges, List.forall_mem_cons, List.not_mem_nil, false_implies, implies_true,
    and_true]
  decide

-- When more arrives, the replica has said what it had said, up to the next part.
theorem sent_begins (h : Along port link resync log answered later commands greeting) :
    (Handshake.run port greeting.arrived).sent <+:
      (answered ++ later.take 1).flatMap (·.command.raw) := by
  rw [(h.run_arrived hreadable h.arrived).1, ← h.said_written]
  exact said_mono _ h.arrived

/-- Bytes of the replica come in. -/
theorem hear (h : Along port link resync log answered later commands greeting)
    {connection : Connection} {chunk coming : Bytes} {events : List Event} {framer : Framer}
    (hserved : greeting.crowd.served link = some connection)
    (hsent : (Handshake.run port greeting.arrived).sent = greeting.heard ++ (chunk ++ coming))
    (habsorb : connection.framer.absorb chunk = (events, framer)) :
    Along port link resync log answered later commands
      { greeting with
        crowd := greeting.crowd.put
          { connection with framer, backlog := connection.backlog ++ events }
          greeting.crowd.engine
        heard := greeting.heard ++ chunk } := by
  have hstep := Crowd.Step.arrive chunk hserved habsorb
  have hbooks := hstep.books h.books
  rw [List.append_nil] at hbooks
  have hchunk : greeting.heard ++ chunk <+: (Handshake.run port greeting.arrived).sent := by
    rw [hsent, ← List.append_assoc]
    exact List.prefix_append _ _
  have hears := h.hears_of_served hserved
  rcases h.books.of_served hserved with ⟨rfl, -, -, -⟩
  exact { h with
    books := hbooks
    framed := hstep.framed h.framed
    hears := ⟨_, Crowd.served_put _ _ _,
      hears.absorb (hchunk.trans (h.sent_begins hreadable)) habsorb⟩
    heard := hchunk }

/-- Bytes of the master arrive. -/
theorem arrive (h : Along port link resync log answered later commands greeting)
    {chunk coming : Bytes}
    (hwritten : greeting.crowd.engine.links.written link =
      greeting.arrived ++ (chunk ++ coming)) :
    Along port link resync log answered later commands
      { greeting with arrived := greeting.arrived ++ chunk } := by
  have harrived : greeting.arrived ++ chunk <+: greeting.crowd.engine.links.written link := by
    rw [hwritten, ← List.append_assoc]
    exact List.prefix_append _ _
  have hheard := h.heard
  rw [(h.run_arrived hreadable h.arrived).1] at hheard
  refine { h with arrived := harrived, heard := ?_ }
  rw [(h.run_arrived hreadable harrived).1]
  exact hheard.trans (said_mono _ (List.prefix_append _ _))

end Replica

/-- As long as a part is left, the link is not registered, and nothing follows. -/
theorem asks {part : Part}
    (h : Along port link resync log answered (part :: later) commands greeting) :
    log.count link = 0 ∧ commands = [] ∧ greeting.enrolling = false := by
  rcases h.stage with ⟨-, hcount, hcommands, henrolling⟩ | ⟨hlater, -, -, -⟩ | ⟨hlater, -, -⟩
  · exact ⟨hcount, hcommands, henrolling⟩
  all_goals exact absurd hlater (List.cons_ne_nil _ _)

/-- The next part is answered. -/
theorem advance {part : Part}
    (h : Along port link resync log answered (part :: later) commands greeting)
    {next : Connection} {engine : Engine} {enrolling : Bool}
    (hbooks : Crowd.Books log (greeting.crowd.put next engine))
    (hframed : (greeting.crowd.put next engine).Framed)
    (hannounced : greeting.crowd.engine.SameSetup engine) (hlink : next.link = link)
    (hhears : Hears next greeting.heard (answered ++ [part]) later)
    (hwritten : engine.links.written link = greeting.crowd.engine.links.written link ++ part.answer)
    (hstage : Stage later 0 [] enrolling) :
    Along port link resync log (answered ++ [part]) later commands
      { greeting with crowd := greeting.crowd.put next engine, enrolling } := by
  subst hlink
  rcases h.asks with ⟨hcount, rfl, -⟩
  exact {
    script := by rw [h.script, List.append_assoc, List.singleton_append]
    books := hbooks
    framed := hframed
    announced := hannounced.announced.trans h.announced
    hears := ⟨next, Crowd.served_put _ _ _, hhears⟩
    stage := hcount.symm ▸ hstage
    written := by
      rw [Crowd.put_engine, hwritten, h.written]
      simp
    whole := h.whole
    arrived := h.arrived.trans (hwritten ▸ List.prefix_append _ _)
    heard := h.heard }

theorem carries (h : Along port link resync log answered later commands greeting) :
    ∀ part ∈ later, Carries .start part.command.raw [.ok part.command] :=
  fun _ hmem => Part.carries (h.script ▸ List.mem_append_right answered hmem)

/-- A greeting is handled. -/
theorem handle (h : Along port link resync log answered later commands greeting)
    {connection : Connection} {event : Event} {rest : List Event} (now : UInt64)
    (hserved : greeting.crowd.served link = some connection)
    (hbacklog : connection.backlog = event :: rest)
    (hgranted : connection.granted greeting.crowd.engine event = []) :
    ∃ part remaining, Along port link resync log (answered ++ [part]) remaining commands
      { greeting with
        crowd := greeting.crowd.put
          ({ connection with backlog := rest }.handle greeting.crowd.engine now event).1
          ({ connection with backlog := rest }.handle greeting.crowd.engine now event).2 } := by
  have hears := h.hears_of_served hserved
  have hstep := Crowd.Step.handle now hserved hears.idle hbacklog
  have hbooks := hstep.books h.books
  have hframed := hstep.framed h.framed
  have hsetup := hstep.setup
  rw [hgranted, List.append_nil] at hbooks
  rcases h.books.of_served hserved with ⟨rfl, hopen, -, -⟩
  rcases hears.answers h.carries hbacklog with ⟨part, remaining, rfl, rfl, hanswered⟩
  rcases Part.greeting_or_plea h.script with ⟨hgreeting, hlater⟩ | ⟨rfl, -⟩
  · rcases Connection.handle_greeting { connection with backlog := rest } greeting.crowd.engine
      hears.closed now hgreeting with ⟨after, hhandle, hquiet⟩
    rw [hhandle] at hbooks hframed hsetup ⊢
    refine ⟨part, remaining, h.advance hbooks hframed hsetup rfl hanswered ?_ ?_⟩
    · rw [Connection.write, hquiet.links, Links.written_write, if_pos ⟨rfl, hopen⟩]
    · exact .asks hlater rfl rfl h.asks.2.2
  · -- The request for a resync would be granted.
    simp [Connection.granted, Engine.grants_plea h.announced hears.closed] at hgranted

/-- The resync is announced. -/
theorem announce (hsnapshot : resync.snapshot = Snapshot.empty)
    (h : Along port link resync log answered later commands greeting)
    {connection : Connection} {command : Command} {rest : List Event} {header : Reply}
    {snapshot : Bytes} {after : Engine} {session : Session} (now : UInt64)
    (hserved : greeting.crowd.served link = some connection)
    (hbacklog : connection.backlog = .ok command :: rest)
    (hdispatch : greeting.crowd.engine.dispatch connection.session now command =
      (.answered (.fullResync header snapshot), after, session)) :
    ∃ part remaining, Along port link resync log (answered ++ [part]) remaining commands
      { greeting with
        crowd := greeting.crowd.put { connection with session, backlog := rest }
          (connection.announce after header snapshot)
        enrolling := true } := by
  have hears := h.hears_of_served hserved
  have hsetup := greeting.crowd.engine.dispatch_setup now connection.session command
  rcases h.books.of_served hserved with ⟨rfl, hopen, -, -⟩
  rcases hears.answers h.carries hbacklog with ⟨part, remaining, rfl, hcommand, hanswered⟩
  obtain rfl := Except.ok.inj hcommand
  rcases Part.greeting_or_plea h.script with ⟨hgreeting, -⟩ | ⟨rfl, rfl⟩
  · -- A greeting is answered with a reply.
    rcases greeting.crowd.engine.dispatch_greeting hears.closed now hgreeting with
      ⟨reply, _, hreply, -⟩
    simp [hdispatch] at hreply
  · rcases Engine.dispatch_plea h.announced hsnapshot hears.closed now with
      ⟨_, hplea, hquiet⟩
    rw [hdispatch] at hplea
    simp only [Prod.mk.injEq, Dispatch.answered.injEq, Response.fullResync.injEq] at hplea
    rcases hplea with ⟨⟨rfl, rfl⟩, rfl, rfl⟩
    rw [hdispatch] at hsetup
    have hconnection : ({ connection with backlog := rest } : Connection).Framed := by
      refine (h.framed _ _ hserved).congr rfl ?_
      rw [hbacklog]
      exact List.subset_cons_self _ _
    refine ⟨Part.plea resync, [], h.advance ?_ ?_ ?_ rfl hanswered ?_ (.announced rfl rfl rfl rfl)⟩
    · exact h.books.keeps hserved rfl rfl (hquiet.still.keeps.trans (Engine.write_keeps _ _ _))
    · exact h.framed.put hconnection _
    · exact hsetup.trans ⟨rfl, rfl, rfl⟩
    · rw [Connection.announce, Connection.write, hquiet.links, Links.written_write,
        if_pos ⟨rfl, hopen⟩]
      rfl

/-- The link is registered. -/
theorem enroll (h : Along port link resync log answered later commands greeting)
    {connection : Connection} (hserved : greeting.crowd.served link = some connection)
    (henrolling : greeting.enrolling = true) :
    Along port link resync (log ++ [link]) answered later commands
      { greeting with
        crowd := greeting.crowd.put (connection.enroll greeting.crowd.engine).1
          (connection.enroll greeting.crowd.engine).2
        enrolling := false } := by
  have hears := h.hears_of_served hserved
  rcases h.books.of_served hserved with ⟨rfl, -, -, -⟩
  have henroll := connection.enroll_enrolls (Engine.isSome_of_announced h.announced)
  have hsetup := connection.enroll_setup greeting.crowd.engine
  have hlinks := connection.enroll_links greeting.crowd.engine
  have hlink := congrArg (·.link) henroll.1
  have hbooks := h.books.enrolls hserved hlink
    (congrArg (·.session.replicaId) henroll.1) henroll.2
  have hconnection : (connection.enroll greeting.crowd.engine).1.Framed := by
    rw [henroll.1]
    exact (h.framed _ _ hserved).congr rfl (List.Subset.refl _)
  have hhears :
      Hears (connection.enroll greeting.crowd.engine).1 greeting.heard answered later := by
    rw [henroll.1]
    exact hears.congr rfl rfl rfl rfl
  rcases h.stage with ⟨-, -, -, hnot⟩ | ⟨hlater, hcount, -, -⟩ | ⟨-, -, hnot⟩
  · simp [henrolling] at hnot
  · exact { h with
      books := hbooks
      framed := h.framed.put hconnection _
      announced := hsetup.announced.trans h.announced
      hears := ⟨_, hlink ▸ Crowd.served_put _ _ _, hhears⟩
      stage := .follows hlater (by simp [hcount]) rfl
      written := by rw [Crowd.put_engine, hlinks, h.written]
      arrived := by
        rw [Crowd.put_engine, hlinks]
        exact h.arrived }
  · simp [henrolling] at hnot

-- Frames go to the link only when it is registered, and then once.
theorem receives (h : Along port link resync log answered later commands greeting)
    {after : Engine} (hframes : greeting.crowd.engine.WritesFrames link after) :
    ∃ more : List Command,
      after.links.written link =
        greeting.crowd.engine.links.written link ++ more.flatMap (·.raw) ∧
      (∀ command ∈ more, command.Framed) ∧
      Stage later (log.count link) (commands ++ more) greeting.enrolling := by
  rcases h.hears with ⟨connection, hserved, -⟩
  rcases hframes with ⟨frames, hwritten, hframes⟩
  rw [Engine.copies_eq, (h.books.of_served hserved).2.2.1] at hwritten
  have hnothing (hcount : log.count link = 0) : after.links.written link =
      greeting.crowd.engine.links.written link ++ ([] : List Command).flatMap (·.raw) := by
    rw [hwritten, hcount]
    simp
  rcases h.stage with ⟨-, hcount, -, -⟩ | ⟨-, hcount, -, -⟩ | ⟨hlater, hcount, henrolling⟩
  · exact ⟨[], hnothing hcount, by simp, by simpa using h.stage⟩
  · exact ⟨[], hnothing hcount, by simp, by simpa using h.stage⟩
  · refine ⟨frames.map (·.command), ?_, ?_, .follows hlater hcount henrolling⟩
    · rw [hwritten, hcount, List.flatMap_map]
      simp [Frame.bytes_eq]
    · rw [List.forall_mem_map]
      exact hframes

/-- Others act. -/
theorem others (h : Along port link resync log answered later commands greeting)
    {granted : List Nat} {after : Crowd} (hstep : Crowd.Step greeting.crowd granted after)
    (hsame : after.served link = greeting.crowd.served link) :
    ∃ more, Along port link resync (log ++ granted) answered later (commands ++ more)
      { greeting with crowd := after } := by
  rcases h.hears with ⟨connection, hserved, hears⟩
  rcases hstep.beside h.books h.framed hserved hears.idle (hsame.trans hserved) with
    ⟨hgranted, hframes⟩
  rcases h.receives hframes with ⟨more, hmore, hwhole, hstage⟩
  have hcount : (log ++ granted).count link = log.count link := by
    rw [List.count_append, List.count_eq_zero.mpr hgranted, Nat.add_zero]
  exact ⟨more, { h with
    books := hstep.books h.books
    framed := hstep.framed h.framed
    announced := hstep.setup.announced.trans h.announced
    hears := ⟨connection, hsame.trans hserved, hears⟩
    stage := hcount.symm ▸ hstage
    written := by rw [hmore, h.written, List.append_assoc, ← List.flatMap_append]
    whole := List.forall_mem_append.mpr ⟨h.whole, hwhole⟩
    arrived := h.arrived.trans (hmore ▸ List.prefix_append _ _) }⟩

section Progress

variable (hreadable : resync.Readable)
include hreadable

-- As long as the replica has not succeeded, not all answers have arrived.
theorem not_answered (h : Along port link resync log answered later commands greeting)
    (hnot : ∀ found, (Handshake.run port greeting.arrived).outcome ≠ .ok found) :
    ¬answers (lines (exchanges port) resync) <+: greeting.arrived :=
  fun hall => hnot resync ((h.run_arrived hreadable h.arrived).2.2 hall).1

/-- Until the replica has succeeded, only so many moves were possible. -/
theorem bounded (h : Along port link resync log answered later commands greeting)
    (hnot : ¬answers (lines (exchanges port) resync) <+: greeting.arrived) :
    greeting.heard.length + greeting.arrived.length + answered.length + log.count link ≤
      moveLimit (lines (exchanges port) resync) := by
  have hheard : greeting.heard.length ≤ (requests (lines (exchanges port) resync)).length := by
    refine ((h.heard.trans (h.sent_begins hreadable)).trans ?_).length_le
    rw [← Part.script_lines, Part.requests_lines, h.script]
    refine ⟨(later.drop 1).flatMap (·.command.raw), ?_⟩
    rw [← List.flatMap_append, List.append_assoc, List.take_append_drop]
  have harrived : greeting.arrived.length ≤ (answers (lines (exchanges port) resync)).length := by
    rcases List.prefix_or_prefix_of_prefix (h.arrived.trans h.written_begins)
      (List.prefix_append _ _) with hbefore | hall
    · exact hbefore.length_le
    · exact absurd hall hnot
  have hanswered : answered.length ≤ (lines (exchanges port) resync).length := by
    rw [← Part.script_lines, List.length_map, h.script, List.length_append]
    exact Nat.le_add_right _ _
  have hcount : log.count link ≤ 1 := by
    rcases h.stage with ⟨-, hcount, -, -⟩ | ⟨-, hcount, -, -⟩ | ⟨-, hcount, -⟩ <;> omega
  rw [moveLimit]
  omega

/-- Until the replica has succeeded, one of the two can move. -/
theorem moves (hsnapshot : resync.snapshot = Snapshot.empty)
    (h : Along port link resync log answered later commands greeting)
    (hnot : ¬answers (lines (exchanges port) resync) <+: greeting.arrived) :
    ∃ next, Step port link greeting 1 next := by
  rcases h.hears with ⟨connection, hserved, hears⟩
  rcases h.arrived with ⟨coming, hcoming⟩
  by_cases hempty : coming = []
  · rw [hempty, List.append_nil] at hcoming
    rcases h.stage with ⟨hlater, -, -, hfree⟩ | ⟨-, -, -, henrolling⟩ | ⟨rfl, -, -⟩
    · rcases List.exists_cons_of_ne_nil hlater with ⟨part, rest, rfl⟩
      rcases hbacklog : connection.backlog with _ | ⟨event, framed⟩
      · -- The replica has said more than was heard.
        rcases hears.unheard hbacklog with ⟨unheard, hne, hrest⟩
        have hsent : (Handshake.run port greeting.arrived).sent =
            greeting.heard ++ (unheard ++ []) := by
          rw [(h.run_arrived hreadable h.arrived).1, hcoming, h.said_written, List.append_nil,
            hrest]
          rfl
        exact ⟨_, .hear unheard [] hne hserved hsent rfl⟩
      · rcases hears.answers h.carries hbacklog with ⟨_, _, hsame, rfl, -⟩
        obtain ⟨rfl, -⟩ := List.cons.inj hsame
        rcases Part.greeting_or_plea h.script with ⟨hgreeting, -⟩ | ⟨rfl, -⟩
        · refine ⟨_, .handle 0 hserved hears.idle hfree hbacklog ?_⟩
          exact if_neg (Engine.not_grants_greeting _ hears.closed hgreeting)
        · rcases Engine.dispatch_plea h.announced hsnapshot hears.closed 0 with
            ⟨after, hdispatch, -⟩
          exact ⟨_, .announce 0 hserved hears.idle hfree hbacklog hdispatch⟩
    · exact ⟨_, .enroll hserved henrolling⟩
    · -- All answers have arrived.
      rw [hcoming, h.written_all] at hnot
      exact absurd (List.prefix_append _ _) hnot
  · exact ⟨_, .arrive coming [] hempty (by rw [List.append_nil, hcoming])⟩

end Progress

end Along

section Runs

variable {crowd : Crowd} {log : List Nat} {port : UInt16} {link : Nat} {resync : Resync}

/-- The two are somewhere along the script, with at most as many moves as what was heard, what has
    arrived, what was answered and what was registered account for. -/
def Stands (port : UInt16) (link : Nat) (resync : Resync) (moves : Nat) (greeting : Greeting) :
    Prop :=
  ∃ log answered later commands,
    Along port link resync log answered later commands greeting ∧
      moves ≤ greeting.heard.length + greeting.arrived.length + answered.length + log.count link

/-- A replica has connected, and nothing is said yet. -/
theorem stands_start (hbooks : Crowd.Books log crowd) (hframed : crowd.Framed)
    (hannounced : crowd.engine.announced = some (resync.replicationId, resync.offset)) :
    Stands port crowd.engine.links.all.length resync 0 (start crowd) := by
  have hcount : log.count crowd.engine.links.all.length = 0 :=
    List.count_eq_zero.mpr fun hmem => Nat.lt_irrefl _ (hbooks.known _ hmem)
  refine ⟨log, [], Part.script port resync, [], ?_, Nat.zero_le _⟩
  exact {
    script := rfl
    books := hbooks.connects
    framed := (Crowd.Step.connect crowd).framed hframed
    announced := hannounced
    hears :=
      ⟨_, Crowd.served_put _ _ _, .opened _ (@Part.carries port resync _ List.mem_cons_self)⟩
    stage := .asks (List.cons_ne_nil _ _) hcount rfl rfl
    written := by simp [start, Connection.opened, Links.connect, Links.written]
    whole := by simp
    arrived := List.nil_prefix
    heard := List.nil_prefix }

/-- Each step leads on along the script. -/
theorem Step.stands (hreadable : resync.Readable) (hsnapshot : resync.snapshot = Snapshot.empty)
    {before after : Greeting} {moves more : Nat} (h : Step port link before more after)
    (hstands : Stands port link resync moves before) :
    Stands port link resync (moves + more) after := by
  rcases hstands with ⟨log, answered, later, commands, halong, hmoves⟩
  cases h with
  | hear chunk coming hchunk hserved hsent habsorb =>
      have hpos := List.length_pos_iff.mpr hchunk
      refine ⟨_, _, _, _, halong.hear hreadable hserved hsent habsorb, ?_⟩
      simp only [List.length_append]
      omega
  | handle now hserved hidle hfree hbacklog hgranted =>
      rcases halong.handle now hserved hbacklog hgranted with ⟨part, remaining, hafter⟩
      refine ⟨_, _, _, _, hafter, ?_⟩
      simp only [List.length_append, List.length_singleton]
      omega
  | announce now hserved hidle hfree hbacklog hdispatch =>
      rcases halong.announce hsnapshot now hserved hbacklog hdispatch with
        ⟨part, remaining, hafter⟩
      refine ⟨_, _, _, _, hafter, ?_⟩
      simp only [List.length_append, List.length_singleton]
      omega
  | enroll hserved henrolling =>
      refine ⟨_, _, _, _, halong.enroll hserved henrolling, ?_⟩
      simp only [List.count_append, List.count_singleton_self]
      omega
  | arrive chunk coming hchunk hwritten =>
      have hpos := List.length_pos_iff.mpr hchunk
      refine ⟨_, _, _, _, halong.arrive hreadable hwritten, ?_⟩
      simp only [List.length_append]
      omega
  | others hstep hsame =>
      rcases halong.others hstep hsame with ⟨commands, hafter⟩
      refine ⟨_, _, _, _, hafter, ?_⟩
      simp only [List.count_append]
      omega

theorem Run.trans {first middle last : Greeting} {moves more : Nat}
    (h : Run port link first moves middle) (h' : Run port link middle more last) :
    Run port link first (moves + more) last := by
  induction h' with
  | start => exact h
  | step _ hstep ih => exact Nat.add_assoc _ _ _ ▸ ih.step hstep

theorem Run.stands (hreadable : resync.Readable) (hsnapshot : resync.snapshot = Snapshot.empty)
    {first greeting : Greeting} {moves : Nat} (h : Run port link first moves greeting)
    (hfirst : Stands port link resync 0 first) : Stands port link resync moves greeting := by
  induction h with
  | start => exact hfirst
  | step _ hstep ih => exact hstep.stands hreadable hsnapshot ih

variable {master : Master} {moves : Nat} {greeting : Greeting}
  (hbooks : Crowd.Books log crowd) (hframed : crowd.Framed)
  (hmaster : crowd.engine.role = .master master) (hword : Text.IsWord master.replicationId)
include hbooks hframed hmaster hword

-- What was announced at first is what a run is about.
theorem Run.along
    (h : Run port crowd.engine.links.all.length (Greeting.start crowd) moves greeting) :
    Resync.Readable ⟨master.replicationId, master.offset, Snapshot.empty⟩ ∧
      Stands port crowd.engine.links.all.length
        ⟨master.replicationId, master.offset, Snapshot.empty⟩ moves greeting := by
  have hannounced : crowd.engine.announced = some (master.replicationId, master.offset) := by
    simp [Engine.announced, hmaster, Role.master?, Master.announced]
  have hreadable : Resync.Readable ⟨master.replicationId, master.offset, Snapshot.empty⟩ :=
    ⟨hword, (by decide +kernel : Snapshot.empty.length ≤ maxBulkLength)⟩
  exact ⟨hreadable, h.stands hreadable rfl (stands_start hbooks hframed hannounced)⟩

/-- Whatever has happened, the two can go on to where the handshake succeeds. -/
theorem Run.completes
    (h : Run port crowd.engine.links.all.length (Greeting.start crowd) moves greeting) :
    ∃ more last found, Run port crowd.engine.links.all.length greeting more last ∧
      (Handshake.run port last.arrived).outcome = .ok found := by
  let script := lines (exchanges port) ⟨master.replicationId, master.offset, Snapshot.empty⟩
  -- Each move brings them closer to the limit.
  induction hleft : moveLimit script + 1 - moves using Nat.strong_induction_on
    generalizing moves greeting with
  | _ left ih =>
      by_cases hdone : ∃ found, (Handshake.run port greeting.arrived).outcome = .ok found
      · rcases hdone with ⟨found, hfound⟩
        exact ⟨0, greeting, found, .start, hfound⟩
      · rcases h.along hbooks hframed hmaster hword with
          ⟨hreadable, log, answered, later, commands, halong, hmoves⟩
        have hopen := halong.not_answered hreadable (not_exists.mp hdone)
        rcases halong.moves hreadable rfl hopen with ⟨next, hstep⟩
        have hbounded : moves ≤ moveLimit script :=
          hmoves.trans (halong.bounded hreadable hopen)
        rcases ih _ (by omega) (h.step hstep) rfl with ⟨more, last, found, hrun, hfound⟩
        exact ⟨_, last, found, (Run.start.step hstep).trans hrun, hfound⟩

/-- A replica introduces itself to a master over a new connection, in pieces of any length, while
    other connections do as they like. If the handshake succeeds, the replica has the id and the
    offset of the master and the snapshot that the master sent; and the bytes left unread are those
    that the master sent behind the snapshot, which are whole commands from the first byte on. The
    handshake does succeed: until then one of the two can move, and there is a limit to the moves
    that they can make. -/
theorem Run.agrees
    (h : Run port crowd.engine.links.all.length (Greeting.start crowd) moves greeting) :
    let script := lines (exchanges port)
      ⟨master.replicationId, master.offset, Snapshot.empty⟩
    let result := Handshake.run port greeting.arrived
    (∀ found, result.outcome = .ok found →
      found.replicationId = master.replicationId ∧ found.offset = master.offset ∧
      (∃ header, crowd.engine.resync = .fullResync header found.snapshot) ∧
      greeting.arrived = answers script ++ result.unread ∧
      ∃ (coming : Bytes) (commands : List Command),
        greeting.crowd.engine.links.written crowd.engine.links.all.length =
          greeting.arrived ++ coming ∧
        result.unread ++ coming = commands.flatMap (·.raw) ∧
        Reads .start (result.unread ++ coming) (commands.map .ok) .start []) ∧
    ((∀ found, result.outcome ≠ .ok found) →
      moves ≤ moveLimit script ∧
      ∃ next, Step port crowd.engine.links.all.length greeting 1 next) := by
  rcases h.along hbooks hframed hmaster hword with
    ⟨hreadable, _, answered, later, commands, halong, hmoves⟩
  rcases halong.run_arrived hreadable halong.arrived with ⟨-, hfound, hall⟩
  refine ⟨fun found hok => ?_, fun hnot => ?_⟩
  · rcases hall (hfound ⟨found, hok⟩) with ⟨hresync, hunread⟩
    obtain rfl := Except.ok.inj (hok.symm.trans hresync)
    rcases halong.arrived with ⟨coming, hcoming⟩
    have hrest : (Handshake.run port greeting.arrived).unread ++ coming =
        commands.flatMap (·.raw) := by
      refine halong.behind_answers ?_
      rw [← hcoming, ← List.append_assoc, ← hunread]
    refine ⟨rfl, rfl, ⟨_, by rw [Engine.resync, hmaster]⟩, hunread, coming, commands, hcoming.symm,
      hrest, ?_⟩
    rw [hrest]
    exact reads_frames commands halong.whole
  · have hopen := halong.not_answered hreadable hnot
    exact ⟨hmoves.trans (halong.bounded hreadable hopen), halong.moves hreadable rfl hopen⟩

end Runs

/-- A replica that connects to a new master. -/
theorem Run.agrees_alone :
    ∃ moves greeting found,
      Run 6380 0 (Greeting.start (Crowd.start {} .missing "id")) moves greeting ∧
      (Handshake.run 6380 greeting.arrived).outcome = .ok found ∧
      found.replicationId = "id" ∧ found.offset = 0 := by
  have hbooks := Crowd.Books.start {} .missing "id"
  have hframed : (Crowd.start {} .missing "id").Framed := fun _ _ hserved => by
    simp [Crowd.start] at hserved
  have hword : Text.IsWord "id" := ⟨by decide, by simp [Text.isBlank]⟩
  rcases @Run.completes _ _ 6380 _ 0 _ hbooks hframed rfl hword .start with
    ⟨moves, greeting, found, hrun, hfound⟩
  have h := (hrun.agrees hbooks hframed rfl hword).1 found hfound
  exact ⟨moves, greeting, found, hrun, hfound, h.1, h.2.1⟩

end Greeting

end KeyValue
