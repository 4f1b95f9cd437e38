import KeyValue.Proofs.Engine.Answers
import KeyValue.Proofs.Engine.Sparing
import KeyValue.Proofs.Framing.Encoding
import KeyValue.Proofs.Framing.Refusals
import KeyValue.Proofs.Sessions.Handling

/-!
# Conversations with a client

What is written to the link of a client is what the client was replied to, in order, and the client
can tell one reply from the next unless an error quotes a line feed.

A conversation takes small steps: bytes come in, what was framed is handled one by one, a command
that waits looks or gives up, and in between others use the engine. They never write to the link
(`Engine.Spares`). A connection takes such steps and no others (`receive_run`, `wake_run`,
`giveUp_run`).

Without resyncs the link carries the wire forms of the replies and nothing else (`Run.ends`).
Whether they are read back is a matter of each reply by itself. An error that quotes the name of an
unknown command, an option or a subcommand writes it as it is, so one with a line feed is read as
two or more replies (`Run.reply_splits`). When no quoted text has a line feed, the replies are read
back as they were given (`Run.replies_read_back`).

## Main definitions

* `Conversation`: A connection with its engine.
* `Conversation.Step`, `Conversation.Run`: What happens in a conversation, with what was framed and
  what was replied.
* `Framer.Harmless`: What was framed makes no error quote a line feed.
* `Conversation.Ends`: The link carries replies that end where they should.

## Theorems

* `receive_run`, `wake_run`, `giveUp_run`: Connections take these steps.
* `Step.ends`, `Run.ends`: The link carries the replies.
* `Run.replies_read_back`: The replies are read back.
* `Run.reply_splits`: A reply that is read as two.
-/

namespace KeyValue

/-- What was framed makes no error quote a line feed, and asks for no resync. -/
def Framer.Harmless : Framer.Event → Prop
  | .ok command => command.Plain ∧ command.name ≠ .psync
  | .error (.unknownCommand name) => Text.OneLine name
  | .error _ => True

/-- What was framed is replied to with errors of one line. -/
def Framer.Ready : Framer.Event → Prop
  | .ok command => command.Plain ∧ command.name ≠ .psync
  | .error e => e.OneLine

/-- What is replied to something that was framed, before the command waits. -/
def Connection.repliesTo (connection : Connection) (engine : Engine) (now : UInt64) :
    Framer.Event → List Reply
  | .error e => [.ofError e]
  | .ok command =>
    match (engine.dispatch connection.session now command).1 with
    | .answered response => response.replies
    | .waits _ _ => []

/-- A connection with the engine it acts on. -/
structure Conversation where
  connection : Connection
  engine : Engine

namespace Conversation

/-- The conversation on a new link. -/
def opened (engine : Engine) : Conversation :=
  ⟨(Connection.opened engine).1, (Connection.opened engine).2⟩

/-- What happens next in a conversation, with what is framed and what is replied. -/
inductive Step : Conversation → List Framer.Event → List Reply → Conversation → Prop where
  /-- Bytes come in. -/
  | arrive {connection : Connection} {engine : Engine} {events : List Framer.Event}
      {framer : Framer} (chunk : Bytes) (h : connection.framer.absorb chunk = (events, framer)) :
      Step ⟨connection, engine⟩ events []
        ⟨{ connection with framer, backlog := connection.backlog ++ events }, engine⟩
  /-- The next thing that was framed is handled, unless a command waits. -/
  | handle {connection : Connection} {engine : Engine} {event : Framer.Event}
      {rest : List Framer.Event} (now : UInt64) (hidle : connection.suspended = none)
      (h : connection.backlog = event :: rest) :
      Step ⟨connection, engine⟩ [] (connection.repliesTo engine now event)
        ⟨({ connection with backlog := rest }.handle engine now event).1,
          ({ connection with backlog := rest }.handle engine now event).2⟩
  /-- The command that waits looks for a wake-up and finds too little. -/
  | look {connection : Connection} {engine after : Engine} {waiting : Suspended} (now : UInt64)
      (hwaits : connection.suspended = some waiting)
      (h : engine.resume now waiting.pending waiting.index = (none, after)) :
      Step ⟨connection, engine⟩ [] [] ⟨connection, after⟩
  /-- The command that waits answers, since it finds enough or its time is over. -/
  | answer {connection : Connection} {engine after : Engine} {waiting : Suspended}
      {response : Response} (now : UInt64) (hwaits : connection.suspended = some waiting)
      (h : engine.resume now waiting.pending waiting.index = (some response, after) ∨
        engine.giveUp now waiting.pending waiting.index = (response, after)) :
      Step ⟨connection, engine⟩ [] response.replies
        ⟨({ connection with suspended := none }.answer after response).1,
          ({ connection with suspended := none }.answer after response).2⟩
  /-- Others use the engine. -/
  | others {connection : Connection} {engine after : Engine}
      (h : engine.Spares connection.link after) :
      Step ⟨connection, engine⟩ [] [] ⟨connection, after⟩

/-- Any number of steps, with all that was framed and replied. -/
inductive Run : Conversation → List Framer.Event → List Reply → Conversation → Prop where
  | done (state : Conversation) : Run state [] [] state
  | step {before middle after : Conversation} {events later : List Framer.Event}
      {replies further : List Reply} (h : Step before events replies middle)
      (h' : Run middle later further after) :
      Run before (events ++ later) (replies ++ further) after

theorem Run.trans {before middle after : Conversation} {events later : List Framer.Event}
    {replies further : List Reply} (h : Run before events replies middle)
    (h' : Run middle later further after) :
    Run before (events ++ later) (replies ++ further) after := by
  induction h with
  | done => exact h'
  | step hstep _ ih =>
      rw [List.append_assoc, List.append_assoc]
      exact .step hstep (ih h')

variable (connection : Connection) (engine : Engine) (now : UInt64)

/-- What was framed is handled in steps, up to a command that waits. -/
theorem handleAll_run (events : List Framer.Event) :
    ∀ (connection : Connection) (engine : Engine), connection.suspended = none →
      ∃ replies, Run ⟨{ connection with backlog := events }, engine⟩ [] replies
          ⟨(connection.handleAll engine now events).1,
            (connection.handleAll engine now events).2⟩ ∧
        ((connection.handleAll engine now events).1.suspended = none →
          (connection.handleAll engine now events).1.backlog = []) := by
  induction events with
  | nil => exact fun connection engine _ => ⟨[], .done _, fun _ => rfl⟩
  | cons event rest ih =>
      intro connection engine hidle
      have hstep := @Step.handle { connection with backlog := event :: rest } engine event rest now
        hidle rfl
      have hbacklog := connection.handle_backlog engine now event rest
      simp only [hbacklog] at hstep
      simp only [Connection.handleAll]
      split
      · -- The command waits, and what was framed behind it waits as well.
        rename_i hwaits
        refine ⟨_, .step hstep (.done _), ?_⟩
        intro hnone
        rw [hnone] at hwaits
        simp at hwaits
      · rename_i hidle'
        rcases ih (connection.handle engine now event).1 (connection.handle engine now event).2
          (by simpa using hidle') with ⟨replies, hrun, hsettled⟩
        exact ⟨_, .step hstep hrun, hsettled⟩

/-- A connection without a command that waits has handled all that was framed. -/
def Settled (connection : Connection) : Prop :=
  connection.suspended = none → connection.backlog = []

/-- Bytes that come in are framed, and handled in steps. -/
theorem receive_run (chunk : Bytes) (h : Settled connection) :
    ∃ replies, Run ⟨connection, engine⟩ (connection.framer.absorb chunk).1 replies
        ⟨(connection.receive engine now chunk).1, (connection.receive engine now chunk).2⟩ ∧
      Settled (connection.receive engine now chunk).1 := by
  have harrive := @Step.arrive connection engine _ _ chunk rfl
  rw [← List.append_nil (connection.framer.absorb chunk).1]
  unfold Connection.receive
  simp only
  split
  · rename_i hwaits
    refine ⟨_, .step harrive (.done _), ?_⟩
    intro hnone
    simp only at hnone
    simp [hnone] at hwaits
  · rename_i hidle
    have hnone : connection.suspended = none := by simpa using hidle
    rw [h hnone, List.nil_append] at harrive
    rcases handleAll_run now (connection.framer.absorb chunk).1
      { connection with framer := (connection.framer.absorb chunk).2 } engine hnone with
      ⟨replies, hrun, hsettled⟩
    exact ⟨_, .step harrive hrun, hsettled⟩

/-- A command that answers is followed by those behind it. -/
theorem proceed_run {waiting : Suspended} {after : Engine} {response : Response}
    (hwaits : connection.suspended = some waiting)
    (h : engine.resume now waiting.pending waiting.index = (some response, after) ∨
      engine.giveUp now waiting.pending waiting.index = (response, after)) :
    ∃ replies, Run ⟨connection, engine⟩ [] replies
        ⟨(connection.proceed after now response).1, (connection.proceed after now response).2⟩ ∧
      Settled (connection.proceed after now response).1 := by
  have hanswer := Step.answer now hwaits h
  have hidle : ({ connection with suspended := none }.answer after response).1.suspended =
      none := by
    cases response with
    | reply reply => rfl
    | silent => rfl
    | fullResync header snapshot =>
        simp only [Connection.answer, Connection.enroll]
        split <;> rfl
  rcases handleAll_run now _ _ ({ connection with suspended := none }.answer after response).2
    hidle with ⟨replies, hrun, hsettled⟩
  exact ⟨_, .step hanswer hrun, hsettled⟩

/-- A command that waits looks, and goes on if it finds enough. -/
theorem wake_run (h : Settled connection) :
    ∃ replies, Run ⟨connection, engine⟩ [] replies
        ⟨(connection.wake engine now).1, (connection.wake engine now).2⟩ ∧
      Settled (connection.wake engine now).1 := by
  unfold Connection.wake
  rcases hwaits : connection.suspended with _ | waiting
  · exact ⟨[], .done _, h⟩
  · simp only
    rcases hresume : engine.resume now waiting.pending waiting.index with ⟨_ | response, after⟩
    · exact ⟨_, .step (.look now hwaits hresume) (.done _),
        fun hnone => nomatch hnone.symm.trans hwaits⟩
    · exact proceed_run connection engine now hwaits (Or.inl hresume)

/-- A command that waits gives up. -/
theorem giveUp_run (h : Settled connection) :
    ∃ replies, Run ⟨connection, engine⟩ [] replies
        ⟨(connection.giveUp engine now).1, (connection.giveUp engine now).2⟩ ∧
      Settled (connection.giveUp engine now).1 := by
  unfold Connection.giveUp
  rcases hwaits : connection.suspended with _ | waiting
  · exact ⟨[], .done _, h⟩
  · exact proceed_run connection engine now hwaits (Or.inr rfl)

/-- The link carries the replies that were given, and they end where they should. It is the link of
    a client: it is open, and no replica is registered on it. What is still to be handled is such
    that this goes on. -/
structure Ends (state : Conversation) (replies : List Reply) : Prop where
  written : state.engine.links.written state.connection.link = Reply.encodeAll replies
  isOpen : state.engine.links.isOpen state.connection.link = true
  unlinked : state.engine.Unlinked state.connection.link
  framer : ∃ position unread, state.connection.framer = Framer.framerAt position unread
  backlog : ∀ event ∈ state.connection.backlog, Framer.Ready event
  queue : ∀ queued ∈ state.connection.session.transaction.queue, queued.Plain
  replies : ∀ reply ∈ replies, reply.Ends

-- A piece that comes in is framed as events that are ready, if they are harmless.
theorem absorb_ready {framer after : Framer} {events : List Framer.Event} {chunk : Bytes}
    (hframer : ∃ position unread, framer = Framer.framerAt position unread)
    (habsorb : framer.absorb chunk = (events, after))
    (hharmless : ∀ event ∈ events, Framer.Harmless event) :
    (∃ position unread, after = Framer.framerAt position unread) ∧
      ∀ event ∈ events, Framer.Ready event := by
  rcases hframer with ⟨position, unread, rfl⟩
  rcases Framer.absorb_framerAt position unread chunk with ⟨_, last, left, hsame, herrors⟩
  rw [habsorb] at hsame
  obtain ⟨rfl, rfl⟩ := Prod.mk.inj hsame
  refine ⟨⟨last, left, rfl⟩, ?_⟩
  intro event hmem
  have hevent := hharmless event hmem
  cases event with
  | ok command => exact hevent
  | error e =>
      rcases herrors e hmem with ⟨name, rfl⟩ | hline
      · exact Error.unknownCommand_oneLine hevent
      · exact hline

namespace Ends

variable {connection : Connection} {engine after : Engine} {replies : List Reply}

theorem spared (h : Ends ⟨connection, engine⟩ replies)
    (hspares : engine.Spares connection.link after) :
    Ends ⟨connection, after⟩ replies :=
  { h with
    written := hspares.written.trans h.written
    isOpen := hspares.isOpen.trans h.isOpen
    unlinked := hspares.unlinked h.unlinked }

theorem write (h : Ends ⟨connection, engine⟩ replies) {reply : Reply} (hreply : reply.Ends) :
    Ends ⟨connection, connection.write engine reply.encode⟩ (replies ++ [reply]) := by
  have hwritten := engine.links.written_write connection.link connection.link reply.encode
  rw [if_pos ⟨rfl, h.isOpen⟩, h.written] at hwritten
  refine { h with
    written := ?_
    isOpen := (engine.links.isOpen_write connection.link connection.link reply.encode).trans
      h.isOpen
    unlinked := h.unlinked
    replies := ?_ }
  · rw [Reply.encodeAll_append, Reply.encodeAll, Reply.encodeAll, List.append_nil]
    exact hwritten
  · intro other hmem
    rcases List.mem_append.mp hmem with hgiven | hlast
    · exact h.replies other hgiven
    · rw [List.mem_singleton.mp hlast]
      exact hreply

/-- A response that ends where it should is written to the link. -/
theorem answer (h : Ends ⟨connection, engine⟩ replies) {response : Response}
    (hresponse : response.Ends) :
    Ends ⟨(connection.answer engine response).1, (connection.answer engine response).2⟩
      (replies ++ response.replies) := by
  cases response with
  | reply reply => exact h.write (hresponse reply List.mem_cons_self)
  | silent =>
      rw [Response.replies, List.append_nil]
      exact h
  | fullResync header snapshot =>
      -- A snapshot has no end of its own.
      exact absurd (hresponse (.snapshot snapshot) (by simp [Response.replies])) fun h => h

end Ends

/-- A step keeps the link as it should be, with what was replied behind what was there. -/
theorem Step.ends {before after : Conversation} {events : List Framer.Event}
    {given replies : List Reply} (h : Step before events replies after) (hends : before.Ends given)
    (hharmless : ∀ event ∈ events, Framer.Harmless event) : after.Ends (given ++ replies) := by
  cases h with
  | arrive chunk habsorb =>
      rcases absorb_ready hends.framer habsorb hharmless with ⟨hframer, hready⟩
      rw [List.append_nil]
      refine { hends with framer := hframer, backlog := ?_ }
      intro event hmem
      rcases List.mem_append.mp hmem with hbefore | hnew
      · exact hends.backlog event hbefore
      · exact hready event hnew
  | @handle connection engine event rest now hidle hbacklog =>
      have hready := hends.backlog event (hbacklog ▸ List.mem_cons_self)
      have hrest : Ends ⟨{ connection with backlog := rest }, engine⟩ given :=
        { hends with
          backlog := fun other hmem =>
            hends.backlog other (hbacklog ▸ List.mem_cons_of_mem _ hmem) }
      cases event with
      | error e => exact hrest.write (Reply.ofError_ends hready)
      | ok command =>
          have hspares := Engine.dispatch_spares hrest.unlinked connection.session now command
          have hanswer := engine.dispatch_ends now connection.session hready.1 hready.2 hends.queue
          have hqueue : ∀ queued ∈
              (engine.dispatch connection.session now command).2.2.transaction.queue,
              queued.Plain := by
            intro queued hmem
            rcases engine.dispatch_queue now connection.session command hmem with hbefore | rfl
            · exact hends.queue queued hbefore
            · exact hready.1
          simp only [Connection.handle, Connection.repliesTo]
          rcases hdispatch : engine.dispatch connection.session now command with
            ⟨response | ⟨pending, index⟩, later, session⟩
          · rw [hdispatch] at hspares hanswer hqueue
            have hlater : Ends ⟨{ connection with backlog := rest, session }, later⟩ given :=
              { hrest.spared hspares with queue := hqueue }
            exact hlater.answer hanswer
          · rw [hdispatch] at hspares hqueue
            rw [List.append_nil]
            exact { hrest.spared hspares with queue := hqueue }
  | @look connection engine later waiting now hwaits hresume =>
      have hspares := engine.resume_spares now waiting.pending waiting.index connection.link
      rw [hresume] at hspares
      rw [List.append_nil]
      exact hends.spared hspares
  | @answer connection engine later waiting response now hwaits hanswer =>
      have hidle : Ends ⟨{ connection with suspended := none }, engine⟩ given := { hends with }
      rcases hanswer with hresume | hgiveUp
      · have hspares := engine.resume_spares now waiting.pending waiting.index connection.link
        rw [hresume] at hspares
        exact (hidle.spared hspares).answer
          (engine.resume_ends now waiting.pending waiting.index (by rw [hresume]))
      · have hspares := engine.giveUp_spares now waiting.pending waiting.index connection.link
        have hresponse := engine.giveUp_ends now waiting.pending waiting.index
        rw [hgiveUp] at hspares hresponse
        exact (hidle.spared hspares).answer hresponse
  | others hspares =>
      rw [List.append_nil]
      exact hends.spared hspares

/-- A conversation keeps the link as it should be. -/
theorem Run.ends {before after : Conversation} {events : List Framer.Event}
    {replies : List Reply} (h : Run before events replies after) :
    ∀ {given : List Reply}, before.Ends given → (∀ event ∈ events, Framer.Harmless event) →
      after.Ends (given ++ replies) := by
  induction h with
  | done =>
      intro given hends _
      rwa [List.append_nil]
  | step hstep _ ih =>
      intro given hends hharmless
      rw [List.forall_mem_append] at hharmless
      rw [← List.append_assoc]
      exact ih (hstep.ends hends hharmless.1) hharmless.2

-- A new link is open, and nothing is written to it.
theorem opened_ends {engine : Engine}
    (hpeers : ∀ peer ∈ engine.peers, peer.link < engine.links.all.length) :
    (opened engine).Ends [] := by
  refine ⟨?_, ?_, ?_, ⟨.start, [], rfl⟩, by simp [opened, Connection.opened], ?_, by simp⟩
  · simp [opened, Connection.opened, Links.connect, Links.written, Reply.encodeAll]
  · simp [opened, Connection.opened, Links.connect, Links.isOpen]
  · intro peer hmem
    exact Nat.ne_of_lt (hpeers peer hmem)
  · simp [opened, Connection.opened, Transaction.queue]

/-- If no text that an error quotes has a line feed, no resync is asked for and no reply has a
    length that is refused, then the bytes on the link are read back as what the client was replied
    to: the same replies, in the same order, and nothing behind them. -/
theorem Run.replies_read_back {engine : Engine} {after : Conversation}
    {events : List Framer.Event} {replies : List Reply}
    (h : Run (opened engine) events replies after)
    (hpeers : ∀ peer ∈ engine.peers, peer.link < engine.links.all.length)
    (hharmless : ∀ event ∈ events, Framer.Harmless event)
    (hfits : ∀ reply ∈ replies, reply.All Reply.Fits) :
    Reply.readAll (after.engine.links.written after.connection.link) =
      (replies, .connectionClosed) := by
  have hends := h.ends (opened_ends hpeers) hharmless
  rw [List.nil_append] at hends
  rw [hends.written]
  exact Reply.readAll_encodeAll fun reply hmem => (hfits reply hmem).and (hends.replies reply hmem)

-- The first bytes on a new link are refused.
theorem refused_run (engine : Engine) (chunk : Bytes) {e : Error}
    (h : Framer.empty.absorb chunk = ([.error e], .empty)) :
    Run (opened engine) [.error e] [.ofError e]
      ⟨(opened engine).connection,
        (opened engine).connection.write (opened engine).engine (Reply.ofError e).encode⟩ := by
  have hhandle := @Step.handle { (opened engine).connection with backlog := [.error e] }
    (opened engine).engine (.error e) [] 0 rfl rfl
  exact .step (.arrive chunk h) (.step hhandle (.done _))

/-- A name that ends in a carriage return is quoted as it is, and the reply is read back. -/
theorem Run.replies_read_back_unknown :
    let engine := Engine.start {} .missing "id"
    let reply := Reply.ofError (.unknownCommand "A\r")
    ∃ events after, Run (opened engine) events [reply] after ∧
      (∀ event ∈ events, Framer.Harmless event) ∧ reply.All Reply.Fits ∧
      Reply.readAll (after.engine.links.written after.connection.link) =
        ([reply], .connectionClosed) := by
  intro engine reply
  have hrun := refused_run engine (Framer.encoded [[65, 13]])
    (e := .unknownCommand "A\r") (by decide +kernel)
  have hharmless : ∀ event ∈ ([.error (.unknownCommand "A\r")] : List Framer.Event),
      Framer.Harmless event := by
    intro event hmem
    rw [List.mem_singleton.mp hmem]
    exact (by decide : Text.OneLine "A\r")
  have hfits : ∀ other ∈ [reply], other.All Reply.Fits := by
    intro other hmem
    rw [List.mem_singleton.mp hmem]
    exact trivial
  exact ⟨_, _, hrun, hharmless, hfits reply List.mem_cons_self,
    hrun.replies_read_back (by decide) hharmless hfits⟩

/-- The name of an unknown command can hold a line end and a line of its own. It is quoted as it is,
    and the one reply is read as two. -/
theorem Run.reply_splits :
    let engine := Engine.start {} .missing "id"
    let reply := Reply.ofError (.unknownCommand "A\r\n+OK")
    ∃ events after, Run (opened engine) events [reply] after ∧
      (∀ command, .ok command ∉ events) ∧ reply.All Reply.Fits ∧
      Reply.readAll (after.engine.links.written after.connection.link) =
        ([.error "ERR unknown command 'A", .simple "OK'"], .connectionClosed) := by
  intro engine reply
  have hrun := refused_run engine (Framer.encoded [[65, 13, 10, 43, 79, 75]])
    (e := .unknownCommand "A\r\n+OK") (by decide +kernel)
  refine ⟨_, _, hrun, by simp, trivial, ?_⟩
  refine Eq.trans (congrArg Reply.readAll ?_) (Reply.readAll_encodeAll (by decide))
  decide +kernel

end Conversation

end KeyValue
