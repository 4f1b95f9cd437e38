import KeyValue.Proofs.Engine.Heeding
import KeyValue.Proofs.Framing.Carrying
import KeyValue.Proofs.Replication.Replaying
import KeyValue.Proofs.Text.Words
import Mathlib.Data.List.Basic
import Mathlib.Data.List.Induction

/-!
# What a replica reports

A replica counts the bytes of the commands that come in from its master, whether they succeed or
not, and reports the count whenever it is asked.

The count moves on after a command was applied, so a report tells the bytes of all commands before
the one that asks, those that ask included (`askedAfter`). What cannot be framed and lines that are
blank count for nothing. Nothing else is written back, and neither the pieces in which the bytes
come in nor what the clients of the replica do make a difference (`Follower.run_reports`).

## Main definitions

* `Command.asksOffset`: The command asks for a report.
* `Framer.commandsOf`, `Command.lengthOf`: The commands that were framed, and their bytes.
* `Command.askedAfter`: The numbers that are to be reported.
* `Replica.counted`, `Replica.reports`: A replica that has applied commands, and its reports.
* `Follower.written`: What is written back to the master.

## Theorems

* `Clients.take_replica`: Clients leave the state of a replica alone.
* `Following.applyAll_reports`: Applying commands.
* `Follower.run_reports`: A stream that comes in, in any pieces.
* `Follower.reports_offsets`: What is reported on a stream from a fresh framer on.
-/

namespace KeyValue

namespace Command

/-- The command asks a replica for its offset. -/
def asksOffset (command : Command) : Bool :=
  command.name == .replconf && command.args.head?.any (Text.sameWord · "getack")

/-- The number of bytes of commands. -/
def lengthOf : List Command → Nat
  | [] => 0
  | command :: rest => command.raw.length + lengthOf rest

/-- For each command that asks for the offset, the number of bytes of the commands before it. -/
def askedAfter (commands : List Command) : List Nat :=
  commands.zipIdx.filterMap fun (command, place) =>
    if command.asksOffset then some (lengthOf (commands.take place)) else none

theorem lengthOf_append (before after : List Command) :
    lengthOf (before ++ after) = lengthOf before + lengthOf after := by
  induction before with
  | nil => exact (Nat.zero_add _).symm
  | cons command rest ih => rw [List.cons_append, lengthOf, lengthOf, ih, Nat.add_assoc]

/-- The bytes of some commands are as many as their forms have in a row. -/
theorem lengthOf_eq (commands : List Command) :
    lengthOf commands = (commands.flatMap (·.raw)).length := by
  induction commands with
  | nil => rfl
  | cons command rest ih => rw [lengthOf, ih, List.flatMap_cons, List.length_append]

-- One command more asks for what was counted before it.
theorem askedAfter_concat (commands : List Command) (command : Command) :
    askedAfter (commands ++ [command]) =
      askedAfter commands ++ if command.asksOffset then [lengthOf commands] else [] := by
  unfold askedAfter
  rw [List.zipIdx_append, List.filterMap_append]
  congr 1
  · refine List.filterMap_congr fun ⟨other, place⟩ hmem => ?_
    have hplace : place < commands.length := by
      simpa using (List.mem_zipIdx hmem).2.1
    simp only [List.take_append_of_le_length hplace.le]
  · split <;> simp_all

-- There is one number for each command that asks.
theorem length_askedAfter (commands : List Command) :
    (askedAfter commands).length = commands.countP (·.asksOffset) := by
  induction commands using List.reverseRecOn with
  | nil => rfl
  | append_singleton before command ih =>
      rw [askedAfter_concat, List.length_append, ih, List.countP_append, List.countP_singleton]
      split <;> rfl

end Command

open Command

namespace Replica

/-- A replica that has applied commands. -/
def counted (replica : Replica) (commands : List Command) : Replica :=
  replica.advance (UInt64.ofNat (lengthOf commands))

/-- The report of an offset. -/
def report (offset : UInt64) : Bytes :=
  (Reply.bulkTexts ["REPLCONF", "ACK", Decimal.ofUInt64 offset]).encode

/-- A report for each of these numbers of bytes. -/
def reports (replica : Replica) (lengths : List Nat) : Bytes :=
  lengths.flatMap fun length => report (replica.offset + UInt64.ofNat length)

end Replica

namespace Framer

/-- The commands that were framed. -/
def commandsOf (events : List Event) : List Command := events.filterMap Except.toOption

theorem commandsOf_append (events later : List Event) :
    commandsOf (events ++ later) = commandsOf events ++ commandsOf later :=
  List.filterMap_append

theorem commandsOf_ok (commands : List Command) : commandsOf (commands.map .ok) = commands := by
  induction commands with
  | nil => rfl
  | cons command rest ih => exact congrArg (command :: ·) ih

/-- The commands among some events are those that were framed. -/
theorem mem_commandsOf {events : List Event} {command : Command} :
    command ∈ commandsOf events ↔ .ok command ∈ events := by
  unfold commandsOf
  rw [List.mem_filterMap]
  constructor
  · rintro ⟨_ | found, hmem, hfound⟩
    · simp [Except.toOption] at hfound
    · rwa [← Option.some.inj hfound]
  · exact fun hmem => ⟨_, hmem, rfl⟩

/-- The bytes of the commands that were framed are in the bytes that were read, in order, and so are
    those that are left. -/
theorem Reads.sublist {position last : Position} {bytes left : Bytes} {events : List Event}
    (h : Reads position bytes events last left) :
    ((commandsOf events).flatMap (·.raw) ++ (last.read ++ left)).Sublist
      (position.read ++ bytes) := by
  induction h with
  | here => exact .refl _
  | @move position next _ bytes rest _ _ hlook _ ih =>
      rcases look_moved_consumes hlook with ⟨used, -, rfl, -, hread | ⟨rfl, rfl⟩⟩
      · rwa [hread, List.append_assoc] at ih
      · -- A blank line is dropped.
        exact ih.trans (List.sublist_append_right used rest)
  | @event position _ bytes rest _ event _ hlook _ ih =>
      rcases look_found_consumes hlook with ⟨used, -, rfl, -, name, args, hevent⟩
      rw [← List.append_assoc position.read]
      cases event with
      | error e => exact ih.trans (List.sublist_append_right _ rest)
      | ok command =>
          have hraw := eventOf_raw hevent.symm
          have hcommands : ∀ later : List Event, (commandsOf (.ok command :: later)).flatMap (·.raw) =
              command.raw ++ (commandsOf later).flatMap (·.raw) := fun _ => rfl
          rw [hcommands, hraw, List.append_assoc]
          exact ih.append_left _

end Framer

open Framer

namespace Engine

variable {engine : Engine} {replica : Replica} (h : engine.role = .replica replica) (now : UInt64)
include h

/-- A replica has no state of a master that could change. -/
theorem updateMaster_replica (update : Master → Master) : engine.updateMaster update = engine := by
  unfold updateMaster
  rw [h]

-- A replica has no history to conclude in.
theorem conclude_replica (index : Option Nat) (response : Response) :
    engine.conclude index response = engine := by
  cases index with
  | none => rfl
  | some index => exact updateMaster_replica h _

/-- No command of a client changes the state of a replica. -/
theorem dispatch_replica (session : Session) (command : Command) :
    (engine.dispatch session now command).2.1.role = .replica replica := by
  have hrecord : engine.record command = (none, engine) := by
    unfold record
    rw [h]
  have hasks : ∀ wait ms, engine.route session none command ≠ .asks wait ms := by
    intro wait ms hroute
    rcases route_asks hroute with ⟨wanted, timeout, -, -, hwait⟩
    simp [waitOf, h] at hwait
  have hheeds : ¬engine.Heeds session command := by
    rintro ⟨id, master, -, hmaster, -⟩
    simp only [h, reduceCtorEq] at hmaster
  have hhandle := (handle_role now hasks hheeds).trans h
  unfold dispatch
  simp only [hrecord]
  split
  · rename_i hhandled
    rw [hhandled] at hhandle
    rw [conclude_replica hhandle]
    exact hhandle
  · rename_i hhandled
    rwa [hhandled] at hhandle

/-- A command that waited does not change the state of a replica either. -/
theorem resume_replica (pending : Pending) (index : Option Nat) :
    (engine.resume now pending index).2.role = .replica replica := by
  have hpoll : (engine.poll now pending.waiting).2.role = .replica replica := by
    cases pending.waiting with
    | entries reader cursors count => exact (poll_role engine now reader cursors count).trans h
    | acks wait =>
        simp only [poll, h]
  unfold resume
  split
  · rename_i hpolled
    rwa [hpolled] at hpoll
  · rename_i result after hpolled
    rw [hpolled] at hpoll
    simp only [conclude_replica hpoll]
    exact hpoll

theorem giveUp_replica (pending : Pending) (index : Option Nat) :
    (engine.giveUp now pending index).2.role = .replica replica := by
  have hexpire : (engine.expire now pending.waiting).2.role = .replica replica := by
    cases pending.waiting with
    | entries reader cursors count => exact (expire_role engine now reader cursors count).trans h
    | acks wait => simp only [expire, h]
  unfold giveUp
  simp only [conclude_replica hexpire, hexpire]

/-- Applying a command leaves the state of a replica alone, and a command that asks for the offset is
    answered with it. -/
theorem apply_replica (command : Command) :
    (engine.apply now command).1 =
        (if command.asksOffset then
          some (.bulkTexts ["REPLCONF", "ACK", Decimal.ofUInt64 replica.offset]) else none) ∧
      (engine.apply now command).2.role = .replica replica := by
  have hrun : (engine.runCommand now command).2.role = .replica replica := by
    rcases engine.runCommand_frame now command with ⟨keyspace, readers, hrun⟩
    rw [hrun, h]
  rcases command with ⟨name, args, raw⟩
  cases name with
  | replconf =>
      cases args with
      | nil => exact ⟨rfl, h⟩
      | cons option rest => simp [apply, asksOffset, acknowledgement, h]
  | _ => first
    | exact ⟨rfl, h⟩
    | exact ⟨rfl, hrun⟩

end Engine

/-- The clients of a replica leave its state alone. -/
theorem Clients.take_replica {clients : Clients} {replica : Replica}
    (h : clients.engine.role = .replica replica) (turn : Turn) :
    (clients.take turn).engine.role = .replica replica := by
  have hchanges :=
    @take_changes clients (fun before after =>
        before.role = .replica replica → after.role = .replica replica) (fun _ hsame => hsame)
      (fun session now command hrole => Engine.dispatch_replica hrole now session command)
      (fun now pending index hrole => Engine.resume_replica hrole now pending index)
      (fun now pending index hrole => Engine.giveUp_replica hrole now pending index) turn
  exact hchanges h

namespace Following

/-- A command that comes in is counted after it was applied. -/
theorem applyEvent_counted {engine : Engine} {replica : Replica} {done : List Command}
    (h : engine.role = .replica (replica.counted done)) (now : UInt64) (command : Command) :
    replica.reports (askedAfter done) ++ (applyEvent engine now (.ok command)).1 =
        replica.reports (askedAfter (done ++ [command])) ∧
      (applyEvent engine now (.ok command)).2.role =
        .replica (replica.counted (done ++ [command])) := by
  rcases Engine.apply_replica h now command with ⟨hanswer, hrole⟩
  constructor
  · rw [askedAfter_concat, Replica.reports, Replica.reports, List.flatMap_append]
    congr 1
    simp only [applyEvent, hanswer]
    by_cases hasks : command.asksOffset = true
    · simp [hasks, Replica.report, Replica.counted, Replica.advance]
    · simp [hasks]
  · simp only [applyEvent, Engine.updateReplica, hrole, Replica.counted, Replica.advance,
      lengthOf_append, UInt64.ofNat_add, UInt64.add_assoc]
    simp [lengthOf]

theorem receive_of_absorb {framer after : Framer} {engine : Engine} {now : UInt64} {chunk : Bytes}
    {events : List Event} (h : framer.absorb chunk = (events, after)) :
    receive ⟨framer⟩ engine now chunk =
      ((applyAll engine now events).1, ⟨after⟩, (applyAll engine now events).2) := by
  simp only [receive, h]

/-- Commands that come in are counted, and reports are written back for those that ask. -/
theorem applyAll_reports (now : UInt64) (events : List Event) :
    ∀ {engine : Engine} {replica : Replica} {done : List Command},
      engine.role = .replica (replica.counted done) →
      replica.reports (askedAfter done) ++ (applyAll engine now events).1 =
          replica.reports (askedAfter (done ++ commandsOf events)) ∧
        (applyAll engine now events).2.role =
          .replica (replica.counted (done ++ commandsOf events)) := by
  induction events with
  | nil =>
      intro engine replica done h
      simp only [commandsOf, List.filterMap_nil, List.append_nil]
      exact ⟨List.append_nil _, h⟩
  | cons event rest ih =>
      intro engine replica done h
      cases event with
      | error e => exact ih h
      | ok command =>
          rcases applyEvent_counted h now command with ⟨hwritten, hrole⟩
          rcases ih hrole with ⟨hreports, hfinal⟩
          have hcommands : done ++ commandsOf (.ok command :: rest) =
              done ++ [command] ++ commandsOf rest := by
            simp [commandsOf, Except.toOption]
          rw [hcommands]
          refine ⟨?_, hfinal⟩
          rw [← hreports, ← hwritten, List.append_assoc]
          rfl

end Following

namespace Follower

/-- What is written back to the master. -/
def written (follower : Follower) : List Arrival → Bytes
  | [] => []
  | .turn turn :: rest => (follower.take (.turn turn)).written rest
  | .bytes now chunk :: rest =>
    (follower.following.receive follower.clients.engine now chunk).1 ++
      (follower.take (.bytes now chunk)).written rest

/-- A stream that comes in, in pieces, from where a framer rests on: the commands are counted, and
    reports are written back for those that ask. -/
theorem run_reports {replica : Replica} {final : Position} {remaining : Bytes}
    (hends : look final remaining = .more) (arrivals : List Arrival) :
    ∀ {follower : Follower} {position : Position} {unread : Bytes} {done : List Command}
      {events : List Event}, follower.following = ⟨framerAt position unread⟩ →
      look position unread = .more →
      follower.clients.engine.role = .replica (replica.counted done) →
      Reads position (unread ++ arrivals.flatMap (·.chunk)) events final remaining →
      ShortLines position (unread ++ arrivals.flatMap (·.chunk)) →
      replica.reports (askedAfter done) ++ follower.written arrivals =
          replica.reports (askedAfter (done ++ commandsOf events)) ∧
        (follower.run arrivals).clients.engine.role =
          .replica (replica.counted (done ++ commandsOf events)) := by
  induction arrivals with
  | nil =>
      intro follower position unread done events _ hmore hrole hreads _
      -- Nothing is to come, and the bytes at hand lead nowhere.
      rw [List.flatMap_nil, List.append_nil] at hreads
      rcases (Reads.here position unread).unique (Or.inl hmore) hreads (Or.inl hends) with
        ⟨rfl, -, -⟩
      simp only [commandsOf, List.filterMap_nil, List.append_nil]
      exact ⟨List.append_nil _, hrole⟩
  | cons arrival rest ih =>
      intro follower position unread done events hfollowing hmore hrole hreads hshort
      cases arrival with
      | turn turn =>
          have hturn := Clients.take_replica hrole turn
          exact @ih (follower.take (.turn turn)) _ _ _ _ hfollowing hmore hturn hreads hshort
      | bytes now chunk =>
          rw [List.flatMap_cons, ← List.append_assoc] at hreads hshort
          rcases hreads.absorb hends hshort with
            ⟨before, after, last, left, rfl, habsorb, hmore', hreads', hshort'⟩
          rcases Following.applyAll_reports now before hrole with ⟨hwritten, hrole'⟩
          have hreceive : follower.following.receive follower.clients.engine now chunk =
              ((Following.applyAll follower.clients.engine now before).1, ⟨framerAt last left⟩,
                (Following.applyAll follower.clients.engine now before).2) := by
            rw [hfollowing]
            exact Following.receive_of_absorb habsorb
          have htake : follower.take (.bytes now chunk) =
              ⟨{ follower.clients with
                  engine := (Following.applyAll follower.clients.engine now before).2 },
                ⟨framerAt last left⟩⟩ := by
            simp only [take, hreceive]
          rcases @ih (follower.take (.bytes now chunk)) last left (done ++ commandsOf before) after
            (by rw [htake]) hmore' (by rw [htake]; exact hrole') hreads' hshort' with
            ⟨hreports, hfinal⟩
          rw [commandsOf_append, ← List.append_assoc]
          refine ⟨?_, hfinal⟩
          rw [← hreports, ← hwritten, written, hreceive, List.append_assoc]

/-- A replica that is sent a stream which is not refused, in any pieces, writes back one report for
    each command that asks for it, in order. A report tells the bytes of all commands before that
    one, and in the end the bytes of all commands are counted. These are all bytes of the stream
    exactly if it is made up of commands. -/
theorem reports_offsets {follower : Follower} {replica : Replica} {arrivals : List Arrival}
    (hframer : follower.following.framer = .empty)
    (hrole : follower.clients.engine.role = .replica replica)
    (hshort : ShortLines .start (arrivals.flatMap (·.chunk)))
    (hframes : ∀ e, .error e ∈ (Framer.empty.drain (arrivals.flatMap (·.chunk))).1 →
      e.isProtocol = false) :
    let stream := arrivals.flatMap (·.chunk)
    let commands := commandsOf (Framer.empty.drain stream).1
    follower.written arrivals = ((askedAfter commands).flatMap fun length =>
        (Reply.bulkTexts ["REPLCONF", "ACK",
          Decimal.ofUInt64 (replica.offset + UInt64.ofNat length)]).encode) ∧
      (askedAfter commands).length = commands.countP (·.asksOffset) ∧
      (follower.run arrivals).clients.engine.role =
        .replica { replica with offset := replica.offset + UInt64.ofNat (lengthOf commands) } ∧
      (lengthOf commands = stream.length ↔ ∃ frames : List Command,
        (∀ frame ∈ frames, frame.Framed) ∧ stream = frames.flatMap (·.raw)) := by
  intro stream commands
  rcases drain_reads hframes with ⟨last, left, hreads, hmore, -⟩
  have hcounted : follower.clients.engine.role = .replica (replica.counted []) := by
    rw [hrole, Replica.counted, Replica.advance]
    simp [lengthOf]
  have hfollowing : follower.following = ⟨framerAt .start []⟩ := by
    rcases hfollowing : follower.following with ⟨framer⟩
    rw [hfollowing] at hframer
    exact congrArg Following.mk hframer
  rcases run_reports hmore arrivals hfollowing rfl hcounted hreads hshort with ⟨hwritten, hfinal⟩
  refine ⟨hwritten, length_askedAfter commands, hfinal, ?_⟩
  constructor
  · intro hlength
    -- The bytes of the commands are a part of the stream, so if none is missing they are all.
    have hpart := (List.sublist_append_left _ _).trans hreads.sublist
    rw [lengthOf_eq] at hlength
    refine ⟨commands, fun command hmem => ?_, (hpart.eq_of_length hlength).symm⟩
    exact (hreads.framed (.here _ _)).2 command (mem_commandsOf.mp hmem)
  · rintro ⟨frames, hframed, hstream⟩
    have hframes := reads_frames frames hframed
    rw [← hstream] at hframes
    rcases hreads.unique (Or.inl hmore) hframes (Or.inl rfl) with ⟨hevents, -, -⟩
    have hcommands : commands = frames := by
      rw [← commandsOf_ok frames, ← hevents]
    rw [hcommands, lengthOf_eq, hstream]

/-- A command that fails, a command that asks, an unknown one and one more that asks come in with the
    beginning of another one, in two pieces; a client gets a key in between. -/
theorem reports_offsets_twice :
    let replica : Replica := { master := ⟨"master", 6379⟩ }
    let follower : Follower :=
      { clients := { engine := { config := {}, role := .replica replica } } }
    let stream := Text.bytes "SET\r\nREPLCONF GETACK *\r\nNOPE\r\nREPLCONF getack *\r\nPI"
    let arrivals : List Arrival := [.bytes 7 (stream.take 9),
      .turn (.command 0 8 (.ofParts .get ["k"])), .bytes 9 (stream.drop 9)]
    follower.written arrivals = (Reply.bulkTexts ["REPLCONF", "ACK", "5"]).encode ++
        (Reply.bulkTexts ["REPLCONF", "ACK", "24"]).encode ∧
      (follower.run arrivals).clients.engine.role = .replica { replica with offset := 43 } := by
  intro replica follower stream arrivals
  have hstream : arrivals.flatMap (·.chunk) = stream := by decide +kernel
  have hevents : (Framer.empty.drain stream).1 =
      [.ok ⟨.set, [], Text.bytes "SET\r\n"⟩,
        .ok ⟨.replconf, ["GETACK", "*"], Text.bytes "REPLCONF GETACK *\r\n"⟩,
        .error (.unknownCommand "NOPE"),
        .ok ⟨.replconf, ["getack", "*"], Text.bytes "REPLCONF getack *\r\n"⟩] := by decide +kernel
  have hcommands : commandsOf (Framer.empty.drain stream).1 =
      [⟨.set, [], Text.bytes "SET\r\n"⟩,
        ⟨.replconf, ["GETACK", "*"], Text.bytes "REPLCONF GETACK *\r\n"⟩,
        ⟨.replconf, ["getack", "*"], Text.bytes "REPLCONF getack *\r\n"⟩] := by
    rw [hevents]
    rfl
  have hasks : ∀ option raw, option.toList.map Char.toLower = "getack".toList →
      asksOffset ⟨.replconf, [option, "*"], raw⟩ = true :=
    fun option raw h => Text.sameWord_iff.mpr (h.trans (by decide))
  have hthree : ∀ first second third : Command, first.asksOffset = false →
      second.asksOffset = true → third.asksOffset = true → askedAfter [first, second, third] =
        [first.raw.length, first.raw.length + second.raw.length] := by
    intro first second third hfirst hsecond hthird
    simp [askedAfter, hfirst, hsecond, hthird, lengthOf]
  have hasked : askedAfter (commandsOf (Framer.empty.drain stream).1) = [5, 24] := by
    rw [hcommands, hthree _ _ _ rfl (hasks _ _ (by decide)) (hasks _ _ (by decide))]
    decide +kernel
  have hlength : lengthOf (commandsOf (Framer.empty.drain stream).1) = 43 := by
    rw [hcommands]
    decide +kernel
  have hframes : ∀ e, .error e ∈ (Framer.empty.drain (arrivals.flatMap (·.chunk))).1 →
      e.isProtocol = false := by
    rw [hstream, hevents]
    simp [Error.isProtocol]
  have hshort : ShortLines .start (arrivals.flatMap (·.chunk)) :=
    .of_length_le _ (by rw [hstream]; decide +kernel)
  rcases @reports_offsets follower replica arrivals rfl rfl hshort hframes with
    ⟨hwritten, -, hrole, -⟩
  rw [hstream, hasked] at hwritten
  rw [hstream, hlength] at hrole
  have htexts : Decimal.ofUInt64 (replica.offset + UInt64.ofNat 5) = "5" ∧
      Decimal.ofUInt64 (replica.offset + UInt64.ofNat 24) = "24" := by decide +kernel
  simp only [List.flatMap_cons, List.flatMap_nil, List.append_nil, htexts] at hwritten
  exact ⟨hwritten, hrole⟩

end Follower

end KeyValue
