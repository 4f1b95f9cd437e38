import KeyValue.Proofs.Engine.Answers
import KeyValue.Proofs.Engine.Posting
import KeyValue.Proofs.Framing.Refusals
import KeyValue.Proofs.Sessions.Handling

/-!
# Commands sent without waiting for answers

A client may send commands without waiting for the answers. Each of them is answered once and in
order, however the stream is cut.

`Engine.Served` says what that means: the commands run one after another, each has one reply, or
none if it is an acknowledgement that is not queued, and what is no command has one error. What
becomes of the replies is left open. A connection writes them to its link, one by one, and does
this with all that its framer hands out (`receiveAll_served`). On a link without a replica they can
as well be collected first and written all at once (`Served.unposted`).

No piece matters beyond the times at which it completes commands, since these are the times at which
they run.

## Main definitions

* `Command.Acknowledges`: The word of a replica that has no answer.
* `Engine.Served`: What was framed is served in order.
* `Engine.isPrompt`: Whether no command waits.

## Theorems

* `Engine.dispatch_due`: Which commands have an answer.
* `Engine.served_of_isPrompt`: Commands that do not wait are all served.
* `Engine.Served.split`, `Engine.Served.unposted`: Serving in two parts, and without writing.
* `Connection.receiveAll_served`: A connection serves what its framer hands out.
* `Connection.receiveAll_serves`: What a client receives for a stream.
* `Connection.receive_queues_acknowledgement`: An acknowledgement that is answered.
-/

namespace KeyValue

/-- The command is the acknowledgement of a replica. -/
def Command.Acknowledges (command : Command) : Prop :=
  command.name = .replconf ∧ ∃ option ∈ command.args.head?, option.toLower = "ack"

/-- The response is a reply if one is due, and else nothing. -/
def Response.Suits (due : Prop) : Response → Prop
  | .reply _ => due
  | .silent => ¬due
  | .fullResync _ _ => False

/-- A command that does not wait is answered as is due. -/
def Dispatch.Suits (due : Prop) : Dispatch → Prop
  | .answered response => response.Suits due
  | .waits _ _ => True

namespace Engine

section Due

variable (engine : Engine) (now : UInt64)

/-- The request is the acknowledgement of a replica. -/
def Acknowledging : Request → Prop
  | .replication option _ => option.toLower = "ack"
  | _ => False

-- Only one command carries the words of replicas.
theorem acknowledging_iff {command : Command} {request : Request}
    (h : Request.ofCommand command = .ok request) :
    Acknowledging request ↔ command.Acknowledges := by
  obtain ⟨name, args, raw⟩ := command
  cases name <;> rcases args with _ | ⟨a, _ | ⟨b, _ | ⟨c, _ | ⟨d, args⟩⟩⟩⟩ <;>
    simp [Request.ofCommand] at h <;> subst h <;> simp [Acknowledging, Command.Acknowledges]

theorem converse_due (replicaId : Option Nat) (option : String) (arguments : List String) :
    (engine.converse replicaId option arguments).1.Suits (option.toLower ≠ "ack") := by
  simp only [converse]
  split
  · rename_i hack
    split <;> exact fun hother => hother hack
  · rename_i hother
    split
    · exact hother
    · split <;> exact hother

theorem perform_due (session : Session) (index : Option Nat) (command : Command)
    {request : Request} (hresync : request ≠ .resync) :
    (engine.perform session now index command request).1.Suits ¬Acknowledging request := by
  cases request with
  | runTransaction =>
      simp only [perform]
      cases session.transaction <;> exact not_false
  | resync => exact absurd rfl hresync
  | replication option arguments => exact engine.converse_due session.replicaId option arguments
  | beginTransaction => exact not_false
  | dropTransaction => exact not_false
  | _ =>
      simp only [perform]
      split
      · exact not_false
      · trivial

theorem handle_due (session : Session) (index : Option Nat) {command : Command}
    (hname : command.name ≠ .psync) :
    (engine.handle session now index command).1.Suits
      ¬(command.Acknowledges ∧ session.transaction = .closed) := by
  unfold handle
  cases hread : Request.ofCommand command with
  | error e =>
      -- An acknowledgement has its option, so it is a request.
      rintro ⟨⟨hreplconf, option, hoption, _⟩, _⟩
      obtain ⟨name, args, raw⟩ := command
      obtain rfl : name = .replconf := hreplconf
      cases args with
      | nil => simp at hoption
      | cons option arguments => simp [Request.ofCommand] at hread
  | ok request =>
      simp only
      split
      · rename_i hopen
        have hqueued : ¬(command.Acknowledges ∧ session.transaction = .closed) := by
          rintro ⟨_, hclosed⟩
          simp [hclosed, Transaction.isOpen] at hopen
        split <;> exact hqueued
      · rename_i hrun
        have hresync : request ≠ .resync := by
          rintro rfl
          exact hname (Request.name_eq hread)
        -- In an open transaction only the commands that control it are run.
        have hclosed : command.Acknowledges → session.transaction = .closed := by
          rintro ⟨hreplconf, _⟩
          cases htransaction : session.transaction with
          | closed => rfl
          | opened queue => simp [htransaction, hreplconf, Transaction.isOpen,
              CommandName.isTransactionControl] at hrun
        rw [and_iff_left_of_imp hclosed, ← acknowledging_iff hread]
        exact engine.perform_due now session index command hresync

/-- A command other than a resync that does not wait has one reply, or none if it is an
    acknowledgement outside of a transaction. -/
theorem dispatch_due (session : Session) {command : Command} (hname : command.name ≠ .psync) :
    (engine.dispatch session now command).1.Suits
      ¬(command.Acknowledges ∧ session.transaction = .closed) := by
  have hhandle := handle_due (engine.record command).2 now session (engine.record command).1 hname
  unfold dispatch
  simp only
  split
  · rename_i hhandled
    rwa [hhandled] at hhandle
  · trivial

end Due

section Serving

variable (put : Engine → Bytes → Engine)

/-- What was framed is served in order, each command at its time. `put` is what becomes of the bytes
    of a reply before the next command runs. -/
inductive Served : Engine → Session → List (UInt64 × Framer.Event) → List Reply → Engine →
    Session → Prop where
  | done (engine : Engine) (session : Session) : Served engine session [] [] engine session
  /-- A command has the reply that dispatching it gives. -/
  | replied {engine after last : Engine} {session next final : Session} {now : UInt64}
      {command : Command} {reply : Reply} {events : List (UInt64 × Framer.Event)}
      {replies : List Reply} (hdue : ¬(command.Acknowledges ∧ session.transaction = .closed))
      (hdispatch : engine.dispatch session now command = (.answered (.reply reply), after, next))
      (hrest : Served (put after reply.encode) next events replies last final) :
      Served engine session ((now, .ok command) :: events) (reply :: replies) last final
  /-- An acknowledgement that is not queued has no reply. -/
  | acknowledged {engine after last : Engine} {session next final : Session} {now : UInt64}
      {command : Command} {events : List (UInt64 × Framer.Event)} {replies : List Reply}
      (hacknowledges : command.Acknowledges) (hclosed : session.transaction = .closed)
      (hdispatch : engine.dispatch session now command = (.answered .silent, after, next))
      (hrest : Served after next events replies last final) :
      Served engine session ((now, .ok command) :: events) replies last final
  /-- An unknown command has its error. -/
  | unknown {engine last : Engine} {session final : Session} {now : UInt64} {name : String}
      {events : List (UInt64 × Framer.Event)} {replies : List Reply}
      (hrest : Served (put engine (Reply.ofError (.unknownCommand name)).encode) session events
        replies last final) :
      Served engine session ((now, .error (.unknownCommand name)) :: events)
        (.ofError (.unknownCommand name) :: replies) last final

/-- Whether none of the commands waits if they run one after another. -/
def isPrompt : Engine → Session → List (UInt64 × Framer.Event) → Bool
  | _, _, [] => true
  | engine, session, (_, .error e) :: events =>
    isPrompt (put engine (Reply.ofError e).encode) session events
  | engine, session, (now, .ok command) :: events =>
    match engine.dispatch session now command with
    | (.answered (.reply reply), engine, session) =>
      isPrompt (put engine reply.encode) session events
    | (.answered _, engine, session) => isPrompt engine session events
    | (.waits _ _, _, _) => false

variable {put}

/-- Commands that do not wait are all served, if none of them asks for a resync. -/
theorem served_of_isPrompt {events : List (UInt64 × Framer.Event)}
    (hsync : ∀ command, .ok command ∈ events.map (·.2) → command.name ≠ .psync)
    (herrors : ∀ e, .error e ∈ events.map (·.2) → ∃ name, e = .unknownCommand name) :
    ∀ {engine : Engine} {session : Session}, isPrompt put engine session events = true →
      ∃ replies last final, Served put engine session events replies last final := by
  induction events with
  | nil => exact fun _ => ⟨[], _, _, .done _ _⟩
  | cons event rest ih =>
      intro engine session hprompt
      have ih := @ih (fun command hmem => hsync command (List.mem_cons_of_mem _ hmem))
        (fun e hmem => herrors e (List.mem_cons_of_mem _ hmem))
      rcases event with ⟨now, e | command⟩
      · rcases herrors e List.mem_cons_self with ⟨name, rfl⟩
        rcases ih hprompt with ⟨replies, last, final, hrest⟩
        exact ⟨_, last, final, .unknown hrest⟩
      · have hdue := engine.dispatch_due now session (hsync command List.mem_cons_self)
        rcases hdispatch : engine.dispatch session now command with
          ⟨(reply | _ | _) | ⟨pending, index⟩, after, next⟩ <;>
        simp only [isPrompt, hdispatch] at hprompt <;> rw [hdispatch] at hdue
        · rcases ih hprompt with ⟨replies, last, final, hrest⟩
          exact ⟨_, last, final, .replied hdue hdispatch hrest⟩
        · rcases ih hprompt with ⟨replies, last, final, hrest⟩
          rcases Classical.not_not.mp hdue with ⟨hacknowledges, hclosed⟩
          exact ⟨_, last, final, .acknowledged hacknowledges hclosed hdispatch hrest⟩
        · exact hdue.elim
        · exact absurd hprompt Bool.false_ne_true

namespace Served

variable {engine last : Engine} {session final : Session}
  {events later : List (UInt64 × Framer.Event)} {replies : List Reply}

/-- What is served can be split where its events are. -/
theorem split (h : Served put engine session (events ++ later) replies last final) :
    ∃ before after middle next, replies = before ++ after ∧
      Served put engine session events before middle next ∧
      Served put middle next later after last final := by
  induction events generalizing engine session replies with
  | nil => exact ⟨[], replies, engine, session, rfl, .done _ _, h⟩
  | cons event rest ih =>
      cases h with
      | replied hdue hdispatch hrest =>
          rcases ih hrest with ⟨before, after, middle, next, rfl, hbefore, hafter⟩
          exact ⟨_, after, middle, next, rfl, .replied hdue hdispatch hbefore, hafter⟩
      | acknowledged hacknowledges hclosed hdispatch hrest =>
          rcases ih hrest with ⟨before, after, middle, next, rfl, hbefore, hafter⟩
          exact ⟨_, after, middle, next, rfl, .acknowledged hacknowledges hclosed hdispatch hbefore,
            hafter⟩
      | unknown hrest =>
          rcases ih hrest with ⟨before, after, middle, next, rfl, hbefore, hafter⟩
          exact ⟨_, after, middle, next, rfl, .unknown hbefore, hafter⟩

/-- On a link without a replica the replies can be written all at once in the end. -/
theorem unposted {link : Nat} {session final : Session} {posted last : Engine}
    {events : List (UInt64 × Framer.Event)} {replies : List Reply}
    (h : Served (post · link) posted session events replies last final) :
    ∀ {engine : Engine} {bytes : Bytes}, posted = engine.post link bytes → engine.Unlinked link →
      ∃ after, Served (fun engine _ => engine) engine session events replies after final ∧
        last = after.post link (bytes ++ Reply.encodeAll replies) ∧ Spares link engine after := by
  induction h with
  | done =>
      rintro engine bytes rfl hlink
      refine ⟨engine, .done _ _, ?_, .refl link engine⟩
      rw [Reply.encodeAll, List.append_nil]
  | @replied _ _ _ session next final now command reply _ _ hdue hdispatch _ ih =>
      rintro engine bytes rfl hlink
      have hspares := dispatch_spares hlink session now command
      rw [dispatch_post bytes now hlink] at hdispatch
      rcases hran : engine.dispatch session now command with ⟨response, after, next⟩
      simp only [hran, Prod.mk.injEq] at hdispatch hspares
      obtain ⟨rfl, rfl, rfl⟩ := hdispatch
      rcases ih (post_post _ _ _ _) (hspares.unlinked hlink) with ⟨last, hserved, rfl, hlast⟩
      refine ⟨last, .replied hdue hran hserved, ?_, hspares.trans hlast⟩
      rw [Reply.encodeAll, List.append_assoc]
  | @acknowledged _ _ _ session next final now command _ _ hacknowledges hclosed hdispatch _ ih =>
      rintro engine bytes rfl hlink
      have hspares := dispatch_spares hlink session now command
      rw [dispatch_post bytes now hlink] at hdispatch
      rcases hran : engine.dispatch session now command with ⟨response, after, next⟩
      simp only [hran, Prod.mk.injEq] at hdispatch hspares
      obtain ⟨rfl, rfl, rfl⟩ := hdispatch
      rcases ih rfl (hspares.unlinked hlink) with ⟨last, hserved, rfl, hlast⟩
      exact ⟨last, .acknowledged hacknowledges hclosed hran hserved, rfl, hspares.trans hlast⟩
  | unknown _ ih =>
      rintro engine bytes rfl hlink
      rcases ih (post_post _ _ _ _) hlink with ⟨last, hserved, rfl, hlast⟩
      refine ⟨last, .unknown hserved, ?_, hlast⟩
      rw [Reply.encodeAll, List.append_assoc]

end Served

end Serving

end Engine

namespace Connection

open Engine (post Served isPrompt)

variable {connection : Connection} {engine last : Engine} {final : Session} {replies : List Reply}

/-- A connection serves what it handles. -/
theorem handleAll_served {now : UInt64} {events : List Framer.Event}
    (hidle : connection.suspended = none)
    (h : Served (post · connection.link) engine connection.session (events.map (now, ·)) replies
      last final) :
    connection.handleAll engine now events =
      ({ connection with session := final, backlog := [] }, last) := by
  induction events generalizing connection engine replies with
  | nil =>
      cases h
      rfl
  | cons event rest ih =>
      -- Each event leaves the connection as it was, up to its session, and so no command waits.
      have hgoes : ¬connection.suspended.isSome = true := by simp [hidle]
      cases h with
      | replied hdue hdispatch hrest =>
          rename_i after next command reply later
          have hhandle : connection.handle engine now (.ok command) =
              ({ connection with session := next }, after.post connection.link reply.encode) := by
            simp only [handle, hdispatch, answer, write, post]
          simp only [handleAll, hhandle]
          rw [if_neg hgoes]
          exact @ih { connection with session := next } _ _ hidle hrest
      | acknowledged hacknowledges hclosed hdispatch hrest =>
          rename_i after next command
          have hhandle : connection.handle engine now (.ok command) =
              ({ connection with session := next }, after) := by
            simp only [handle, hdispatch, answer]
          simp only [handleAll, hhandle]
          rw [if_neg hgoes]
          exact @ih { connection with session := next } _ _ hidle hrest
      | unknown hrest =>
          rename_i name later
          have hhandle : connection.handle engine now (.error (.unknownCommand name)) =
              (connection, engine.post connection.link
                (Reply.ofError (.unknownCommand name)).encode) := rfl
          simp only [handleAll, hhandle]
          rw [if_neg hgoes]
          exact ih hidle hrest

/-- A connection serves what its framer hands out for the pieces that come in. -/
theorem receiveAll_served {arrivals : List (UInt64 × Bytes)} (hidle : connection.suspended = none)
    (hbacklog : connection.backlog = [])
    (h : Served (post · connection.link) engine connection.session
      (connection.framer.absorbAll arrivals).1 replies last final) :
    connection.receiveAll engine arrivals =
      ({ connection with
          session := final, framer := (connection.framer.absorbAll arrivals).2 }, last) := by
  induction arrivals generalizing connection engine replies with
  | nil =>
      cases h
      rfl
  | cons arrival rest ih =>
      rcases arrival with ⟨now, chunk⟩
      obtain ⟨link, session, framer, suspended, backlog⟩ := connection
      obtain rfl : suspended = none := hidle
      obtain rfl : backlog = [] := hbacklog
      simp only [Framer.absorbAll] at h ⊢
      rcases h.split with ⟨before, after, middle, next, rfl, hbefore, hafter⟩
      have hhandle := @handleAll_served { link, session, framer := (framer.absorb chunk).2 } _ _ _ _
        _ _ rfl hbefore
      simp only [receiveAll, receive, Option.isSome_none, Bool.false_eq_true, if_false, hhandle]
      exact @ih { link, session := next, framer := (framer.absorb chunk).2 } _ _ rfl rfl hafter

/-- A client sends a stream of commands, none of which waits or asks for a resync, in pieces of any
    kind; the stream may also name unknown commands and end within a command, but no frame is
    refused. All that is framed is served in order, with one reply each, except that an
    acknowledgement has none unless it is queued; the link receives these replies and nothing else,
    unless it is also the link of a replica. The pieces do not matter to what is left behind, except
    for the times at which they complete commands. -/
theorem receiveAll_serves {arrivals : List (UInt64 × Bytes)}
    (hframer : connection.framer = .empty) (hidle : connection.suspended = none)
    (hbacklog : connection.backlog = []) (hopen : engine.links.isOpen connection.link = true)
    (hshort : Framer.ShortLines .start (arrivals.flatMap (·.2)))
    (hframes : ∀ e, .error e ∈ (Framer.empty.drain (arrivals.flatMap (·.2))).1 →
      e.isProtocol = false)
    (hsync : ∀ command, .ok command ∈ (Framer.empty.drain (arrivals.flatMap (·.2))).1 →
      command.name ≠ .psync)
    (hprompt : isPrompt (post · connection.link) engine connection.session
      (Framer.empty.absorbAll arrivals).1 = true) :
    (Framer.empty.absorbAll arrivals).1.map (·.2) =
        (Framer.empty.drain (arrivals.flatMap (·.2))).1 ∧
      ∃ replies last final,
        Served (post · connection.link) engine connection.session
            (Framer.empty.absorbAll arrivals).1 replies last final ∧
          (∀ others : List (UInt64 × Bytes), others.flatMap (·.2) = arrivals.flatMap (·.2) →
            (Framer.empty.absorbAll others).1 = (Framer.empty.absorbAll arrivals).1 →
            connection.receiveAll engine others =
              ({ connection with
                  session := final,
                  framer := (Framer.empty.drain (arrivals.flatMap (·.2))).2 }, last)) ∧
          (engine.Unlinked connection.link →
            ∃ after, Served (fun engine _ => engine) engine connection.session
                (Framer.empty.absorbAll arrivals).1 replies after final ∧
              last = after.post connection.link (Reply.encodeAll replies) ∧
              last.links.written connection.link =
                engine.links.written connection.link ++ Reply.encodeAll replies) := by
  have hevents := (Framer.absorbAll_drain arrivals hshort hframes).1
  -- No error but an unknown command is framed on the way to where the stream ends.
  have herrors : ∀ e, .error e ∈ (Framer.empty.absorbAll arrivals).1.map (·.2) →
      ∃ name, e = .unknownCommand name := by
    rcases Framer.drain_reads hframes with ⟨_, _, hreads, _⟩
    rw [hevents]
    exact fun e hmem => hreads.error_unknown hmem
  have hsync' : ∀ command, .ok command ∈ (Framer.empty.absorbAll arrivals).1.map (·.2) →
      command.name ≠ .psync := by
    rw [hevents]
    exact hsync
  rcases Engine.served_of_isPrompt hsync' herrors hprompt with ⟨replies, last, final, hserved⟩
  refine ⟨hevents, replies, last, final, hserved, ?_, ?_⟩
  · intro others hstream htimes
    rw [← hstream] at hshort hframes ⊢
    rw [← htimes, ← hframer] at hserved
    rw [receiveAll_served hidle hbacklog hserved, hframer,
      (Framer.absorbAll_drain others hshort hframes).2]
  · intro hlink
    rcases hserved.unposted (engine.post_nil connection.link).symm hlink with
      ⟨after, hquiet, rfl, hspares⟩
    rw [List.nil_append]
    refine ⟨after, hquiet, rfl, ?_⟩
    have hwritten := after.links.written_write connection.link connection.link
      (Reply.encodeAll replies)
    rw [if_pos ⟨rfl, hspares.isOpen.trans hopen⟩, hspares.written] at hwritten
    exact hwritten

/-- A client sends an unknown command and a transaction, and the beginning of another command; all of
    it comes in at once, or in two pieces. -/
theorem receiveAll_serves_pieces :
    let connection := (opened (Engine.start {} .missing "id")).1
    let engine := (opened (Engine.start {} .missing "id")).2
    let stream := Text.bytes "PING\r\nNOPE\r\nMULTI\r\nINCR k\r\nEXEC\r\nGE"
    let pieces : List (UInt64 × Bytes) := [(7, stream.take 14), (7, stream.drop 14)]
    ∃ replies last final,
      Served (post · connection.link) engine {} (Framer.empty.absorbAll pieces).1 replies last
          final ∧
        connection.receiveAll engine pieces =
          ({ connection with session := final, framer := ⟨Text.bytes "GE", .idle⟩ }, last) ∧
        connection.receiveAll engine [(7, stream)] =
          ({ connection with session := final, framer := ⟨Text.bytes "GE", .idle⟩ }, last) := by
  intro connection engine stream pieces
  have hstream : pieces.flatMap (·.2) = stream := by
    simp only [pieces, List.flatMap_cons, List.flatMap_nil, List.append_nil, List.take_append_drop]
  have hevents : (Framer.empty.drain stream).1 =
      [.ok ⟨.ping, [], Text.bytes "PING\r\n"⟩, .error (.unknownCommand "NOPE"),
        .ok ⟨.multi, [], Text.bytes "MULTI\r\n"⟩, .ok ⟨.incr, ["k"], Text.bytes "INCR k\r\n"⟩,
        .ok ⟨.exec, [], Text.bytes "EXEC\r\n"⟩] := by decide +kernel
  have hrest : (Framer.empty.drain stream).2 = ⟨Text.bytes "GE", .idle⟩ := by decide +kernel
  have htimes : (Framer.empty.absorbAll [(7, stream)]).1 = (Framer.empty.absorbAll pieces).1 := by
    decide +kernel
  have hprompt : isPrompt (post · connection.link) engine connection.session
      (Framer.empty.absorbAll pieces).1 = true := by decide +kernel
  have hopen : engine.links.isOpen connection.link = true := rfl
  rcases (receiveAll_serves rfl rfl rfl hopen (.of_length_le _ (by rw [hstream]; decide +kernel))
    (by
      rw [hstream, hevents]
      simp [Error.isProtocol])
    (by
      rw [hstream, hevents]
      simp)
    hprompt).2 with ⟨replies, last, final, hserved, hsame, _⟩
  rw [hstream, hrest] at hsame
  exact ⟨replies, last, final, hserved, hsame _ hstream rfl, hsame [(7, stream)] (by simp) htimes⟩

/-- In a transaction an acknowledgement is queued, and that is answered. -/
theorem receive_queues_acknowledgement :
    let connection := (opened (Engine.start {} .missing "id")).1
    let engine := (opened (Engine.start {} .missing "id")).2
    let acknowledgement : Command :=
      ⟨.replconf, ["ACK", "0"], Text.bytes "REPLCONF ACK 0\r\n"⟩
    let chunk := Text.bytes "MULTI\r\n" ++ acknowledgement.raw
    (Framer.empty.absorb chunk).1 =
        [.ok ⟨.multi, [], Text.bytes "MULTI\r\n"⟩, .ok acknowledgement] ∧
      acknowledgement.Acknowledges ∧
      (connection.receive engine 7 chunk).2.links.written connection.link =
        Reply.ok.encode ++ (Reply.simple "QUEUED").encode := by
  refine ⟨by decide +kernel, ⟨rfl, "ACK", rfl, by decide +kernel⟩, by decide +kernel⟩

end Connection

end KeyValue
