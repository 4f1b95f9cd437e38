import KeyValue.Proofs.Engine.Direct
import KeyValue.Proofs.Sessions.Transacting
import KeyValue.Proofs.Text.Words

/-!
# Queues and commands of their own

A queue that is run without anybody in between does what its commands do when a session sends them
one after the other at the same times. Most of them are run at once in both places
(`Command.Immediate`), so each comes to the same, and what is done around it cannot be seen by those
behind it (`dispatchAll_immediate`).

A read that may block does not wait in a queue. It is answered as if it had not been given the time
to block (`run_withoutBlock`). And what belongs to a connection is refused there
(`runCommand_of_connection`).

## Main definitions

* `Command.Immediate`: The commands that neither wait nor belong to a connection.
* `StreamRead.withoutBlock`: The arguments of a read without the time to block.
* `Engine.runTimed`: The commands of a queue are run, each at its own time.
* `Threads.RunsAlone`: A client runs its queue with nothing of others in between.

## Theorems

* `dispatchAll_immediate`: Commands that are sent one after the other.
* `dispatchAll_queued`: Commands that are queued.
* `RunsAlone.timed`, `runsAlone_at`: What a client does that runs its queue alone.
* `run_withoutBlock`, `runCommand_of_connection`: What is different in a queue.
* `runs_queue_as_sent`: A queue is run as its commands are when they are sent.
-/

namespace KeyValue

/-- A command that neither waits, nor belongs to the connection it comes from. -/
def Command.Immediate (command : Command) : Prop :=
  command.name ∉ [.wait, .psync, .replconf] ∧
    ∀ arguments read, Request.ofCommand command = .ok (.readStreams arguments) →
      StreamRead.ofArguments {} arguments = .ok read → read.block = none

-- Such a command is run at once if it can be queued.
theorem Command.Immediate.immediate {command : Command} {request : Request} (h : command.Immediate)
    (hrequest : Request.ofCommand command = .ok request)
    (hcontrol : command.name.isTransactionControl = false) : request.Immediate := by
  rcases h with ⟨hname, hread⟩
  rw [Request.name_eq hrequest] at hname hcontrol
  cases request with
  | readStreams arguments => exact fun read => hread arguments read hrequest
  | beginTransaction | runTransaction | dropTransaction => cases hcontrol
  | waitForReplicas | resync | replication => simp [Request.name] at hname
  | _ => exact trivial

namespace StreamRead

/-- The arguments of a read without the time to block. -/
def withoutBlock : List String → List String
  | option :: value :: rest =>
    if Text.sameWord option "STREAMS" then option :: value :: rest
    else if Text.sameWord option "BLOCK" then withoutBlock rest
    else option :: value :: withoutBlock rest
  | words => words

/-- Each time to block that is given is a number. -/
def BlocksValid : List String → Prop
  | option :: value :: rest =>
    Text.sameWord option "STREAMS" = true ∨
      (Text.sameWord option "BLOCK" = true → (Decimal.uint64? value).isSome = true) ∧
        BlocksValid rest
  | _ => True

/-- Without the time to block the arguments ask for the same read, or are refused for the same
    reason. -/
theorem ofArguments_withoutBlock (words : List String) :
    BlocksValid words → ∀ read : StreamRead,
      ofArguments { read with block := none } (withoutBlock words) =
        (ofArguments read words).map ({ · with block := none }) := by
  induction words using withoutBlock.induct with
  | case1 option value rest hstreams =>
      intro _ read
      simp only [withoutBlock, hstreams, if_true, ofArguments]
      cases startsOf (value :: rest) <;> rfl
  | case2 option value rest hstreams hblock ih =>
      intro hvalid read
      have hother : ¬ Text.sameWord option "COUNT" = true := by
        intro hcount
        rw [Text.sameWord_iff] at hblock hcount
        exact absurd (hblock.symm.trans hcount) (by decide)
      rcases hvalid.resolve_left hstreams with ⟨hnumber, hrest⟩
      rcases Option.isSome_iff_exists.mp (hnumber hblock) with ⟨ms, hms⟩
      simp only [withoutBlock, ofArguments, hstreams, hblock, hother, hms, Bool.false_eq_true,
        if_false, if_true]
      exact ih hrest { read with block := some ms }
  | case3 option value rest hstreams hblock ih =>
      intro hvalid read
      rcases hvalid.resolve_left hstreams with ⟨-, hrest⟩
      simp only [withoutBlock, ofArguments, hstreams, hblock, Bool.false_eq_true, if_false]
      by_cases hcount : Text.sameWord option "COUNT" = true
      · simp only [hcount, if_true]
        cases Decimal.count? value with
        | none => rfl
        | some count => exact ih hrest { read with count }
      · simp only [hcount, Bool.false_eq_true, if_false, Except.map]
  | case4 words hshort =>
      intro _ read
      -- There is one word at most.
      rcases words with _ | ⟨option, _ | ⟨value, rest⟩⟩
      · rfl
      · simp only [withoutBlock, ofArguments]
        split <;> rfl
      · exact absurd rfl (hshort option value rest)

end StreamRead

namespace Engine

/-- Commands are run one after the other without waiting, each at its own time. -/
def runTimed (engine : Engine) : List (UInt64 × Command) → List Reply × Engine
  | [] => ([], engine)
  | (now, command) :: rest =>
    let (reply, engine) := engine.runCommand now command
    let (replies, engine) := engine.runTimed rest
    (reply :: replies, engine)

theorem runTimed_same (now : UInt64) (queue : List Command) :
    ∀ engine : Engine, engine.runTimed (queue.map (now, ·)) = engine.runQueue now queue := by
  induction queue with
  | nil => exact fun _ => rfl
  | cons command rest ih =>
      intro engine
      simp only [List.map_cons, runTimed, runQueue, ih]

theorem length_runTimed (timed : List (UInt64 × Command)) :
    ∀ engine : Engine, (engine.runTimed timed).1.length = timed.length := by
  induction timed with
  | nil => exact fun _ => rfl
  | cons entry rest ih => exact fun engine => congrArg (· + 1) (ih _)

theorem runTimed_append (earlier later : List (UInt64 × Command)) :
    ∀ engine : Engine, engine.runTimed (earlier ++ later) =
      ((engine.runTimed earlier).1 ++ ((engine.runTimed earlier).2.runTimed later).1,
        ((engine.runTimed earlier).2.runTimed later).2) := by
  induction earlier with
  | nil => exact fun _ => rfl
  | cons entry rest ih =>
      intro engine
      simp only [List.cons_append, runTimed, ih]

/-- A command is run on what those before it leave, and has its reply at its place. -/
theorem runTimed_at (engine : Engine) (earlier later : List (UInt64 × Command)) (now : UInt64)
    (command : Command) :
    (engine.runTimed (earlier ++ (now, command) :: later)).1[earlier.length]? =
        some ((engine.runTimed earlier).2.runCommand now command).1 ∧
      (engine.runTimed (earlier ++ [(now, command)])).2 =
        ((engine.runTimed earlier).2.runCommand now command).2 := by
  have hlength := length_runTimed earlier engine
  rw [runTimed_append, runTimed_append, List.getElem?_append_right (Nat.le_of_eq hlength), hlength,
    Nat.sub_self]
  exact ⟨rfl, rfl⟩

theorem Alike.runTimed (timed : List (UInt64 × Command)) :
    ∀ {a b : Engine}, a.Alike b → (a.runTimed timed).1 = (b.runTimed timed).1 ∧
      (a.runTimed timed).2.Alike (b.runTimed timed).2 := by
  induction timed with
  | nil => exact fun h => ⟨rfl, h⟩
  | cons entry rest ih =>
      rcases entry with ⟨now, command⟩
      intro a b h
      have hfirst := h.runCommand now command
      have hrest := ih hfirst.2
      exact ⟨congrArg₂ List.cons hfirst.1 hrest.1, hrest.2⟩

section Sending

variable {session : Session}

/-- Commands that are run at once, sent one after the other, are answered as if they were run in a
    queue, and leave behind what the queue does. -/
theorem dispatchAll_immediate (hclosed : session.transaction = .closed)
    {timed : List (UInt64 × Command)}
    (himmediate : ∀ command ∈ timed.map (·.2), ∃ request,
      Request.ofCommand command = .ok request ∧ request.Immediate) :
    ∀ {engine other : Engine}, engine.Alike other → ∃ after,
      engine.dispatchAll session timed =
        ((other.runTimed timed).1.map (.answered <| .reply ·), after, session) ∧
      after.Alike (other.runTimed timed).2 := by
  induction timed with
  | nil => exact fun halike => ⟨_, rfl, halike⟩
  | cons entry rest ih =>
      rcases entry with ⟨now, command⟩
      intro engine other halike
      rw [List.map_cons, List.forall_mem_cons] at himmediate
      rcases himmediate with ⟨⟨request, hrequest, hfirst⟩, hrest⟩
      rcases engine.dispatch_immediate now hrequest hfirst hclosed with ⟨middle, hdispatch, hmiddle⟩
      have hrun := halike.run now request
      rcases ih hrest (hmiddle.trans hrun.2) with ⟨after, hall, hafter⟩
      refine ⟨after, ?_, ?_⟩
      · simp only [dispatchAll, hdispatch, hall, runTimed, runCommand, hrequest, List.map_cons,
          hrun.1, Response.ofExcept]
      · simp only [runTimed, runCommand, hrequest]
        exact hafter

/-- A command that is answered as queued is in the queue from then on, and nothing else has
    happened. It is a request, and controls no transaction. -/
theorem dispatch_eq_queued {engine : Engine} {now : UInt64} {command : Command}
    (h : (engine.dispatch session now command).1 = .queued) :
    (∃ after, engine.dispatch session now command =
        (.queued, after, { session with
          transaction := .opened (session.transaction.queue ++ [command]) }) ∧
      after.Alike engine) ∧
    command.name.isTransactionControl = false ∧
      ∃ request, Request.ofCommand command = .ok request := by
  have hquiet := (engine.record_alike command)
  rcases hhandle : (engine.record command).2.handle session now (engine.record command).1 command
    with ⟨response | _, handled, session'⟩
  · rw [engine.dispatch_of_handle now hhandle] at h ⊢
    obtain rfl : response = .reply (.simple "QUEUED") := Dispatch.answered.inj h
    rcases handle_queued hhandle with ⟨queue, hopened, rfl, rfl⟩
    refine ⟨⟨_, by rw [hopened]; rfl, (conclude_alike _ _ _).trans hquiet⟩, ?_⟩
    cases hrequest : Request.ofCommand command with
    | error e => simp [handle_refused hrequest, Response.refusal, Reply.ofError] at hhandle
    | ok request =>
        refine ⟨?_, request, rfl⟩
        -- A command that controls a transaction does not make the queue longer.
        by_contra hcontrol
        rw [Bool.not_eq_false] at hcontrol
        rw [handle_of_control hrequest hcontrol] at hhandle
        have htransaction := congrArg (·.2.2.transaction) hhandle
        rcases Request.eq_of_isTransactionControl hrequest hcontrol with rfl | rfl | rfl <;>
          simp [perform, hopened, Transaction.begin, Transaction.take, Transaction.discard,
            Transaction.queue] at htransaction
  · simp [dispatch, hhandle, Dispatch.queued] at h

/-- Commands that are all answered as queued are the rest of the queue, and nothing else has
    happened. -/
theorem dispatchAll_queued {timed : List (UInt64 × Command)} :
    ∀ {engine : Engine} {session : Session} {queue : List Command},
      session.transaction = .opened queue →
      (engine.dispatchAll session timed).1 = timed.map (fun _ => .queued) →
      (∃ after, (engine.dispatchAll session timed).2 =
          (after, { session with transaction := .opened (queue ++ timed.map (·.2)) }) ∧
        after.Alike engine) ∧
      ∀ command ∈ timed.map (·.2), command.name.isTransactionControl = false ∧
        ∃ request, Request.ofCommand command = .ok request := by
  induction timed with
  | nil =>
      intro engine session queue hopened _
      refine ⟨⟨engine, ?_, .refl engine⟩, by simp⟩
      rw [List.map_nil, List.append_nil, ← hopened]
      rfl
  | cons entry rest ih =>
      rcases entry with ⟨now, command⟩
      intro engine session queue hopened hall
      simp only [dispatchAll, List.map_cons, List.cons.injEq] at hall
      rcases dispatch_eq_queued hall.1 with ⟨⟨middle, hdispatch, hmiddle⟩, hcommand⟩
      rw [hdispatch, hopened] at hall
      rcases ih rfl hall.2 with ⟨⟨after, hafter, halike⟩, hcommands⟩
      rw [List.append_assoc, List.singleton_append] at hafter
      rw [List.map_cons, List.forall_mem_cons]
      refine ⟨⟨after, Eq.trans ?_ hafter, halike.trans hmiddle⟩, hcommand, hcommands⟩
      rw [dispatchAll, hdispatch, hopened]

/-- Opening a transaction does nothing else. -/
theorem dispatch_begin (engine : Engine) (now : UInt64) (hclosed : session.transaction = .closed)
    {multi : Command} (hmulti : Request.ofCommand multi = .ok .beginTransaction) :
    ∃ after, engine.dispatch session now multi =
        (.answered (.reply .ok), after, { session with transaction := .opened [] }) ∧
      after.Alike engine := by
  have hhandle : (engine.record multi).2.handle session now (engine.record multi).1 multi = _ :=
    handle_of_closed hmulti hclosed
  simp only [perform, hclosed, Transaction.begin, Transaction.queue] at hhandle
  exact ⟨_, engine.dispatch_of_handle now hhandle,
    (conclude_alike _ _ _).trans (engine.record_alike multi)⟩

/-- A transaction is opened, and commands are queued. -/
theorem dispatchAll_begin {engine opened : Engine} {inside : Session} {multi : Command}
    {opening : UInt64} {sent : List (UInt64 × Command)} (hclosed : session.transaction = .closed)
    (hmulti : Request.ofCommand multi = .ok .beginTransaction)
    (hqueued : engine.dispatchAll session ((opening, multi) :: sent) =
      (.answered (.reply .ok) :: sent.map (fun _ => .queued), opened, inside)) :
    inside = { session with transaction := .opened (sent.map (·.2)) } ∧ opened.Alike engine ∧
      ∀ command ∈ sent.map (·.2), command.name.isTransactionControl = false ∧
        ∃ request, Request.ofCommand command = .ok request := by
  rcases engine.dispatch_begin opening hclosed hmulti with ⟨middle, hdispatch, hmiddle⟩
  simp only [dispatchAll, hdispatch, Prod.mk.injEq, List.cons.injEq, true_and] at hqueued
  rcases hqueued with ⟨hanswers, hopened, hinside⟩
  rcases dispatchAll_queued rfl hanswers with ⟨⟨after, hafter, halike⟩, hcommands⟩
  obtain rfl : opened = after := hopened.symm.trans (congrArg (·.1) hafter)
  exact ⟨hinside.symm.trans (congrArg (·.2) hafter), halike.trans hmiddle, hcommands⟩

/-- Running a queue is answered with the replies to its commands, and closes the transaction. -/
theorem dispatch_runs (engine : Engine) (now : UInt64) {queue : List Command}
    (hopened : session.transaction = .opened queue) {exec : Command}
    (hexec : Request.ofCommand exec = .ok .runTransaction) :
    ∃ after, engine.dispatch session now exec =
        (.answered (.reply (.array (engine.runTimed (queue.map (now, ·))).1)), after,
          { session with transaction := .closed }) ∧
      after.Alike (engine.runTimed (queue.map (now, ·))).2 := by
  have hroute : (engine.record exec).2.route session (engine.record exec).1 exec =
      .runs queue := by
    simp only [route, hexec, hopened]
  have hhandle : (engine.record exec).2.handle session now (engine.record exec).1 exec = _ :=
    handle_of_runs hroute
  have hrecorded := (engine.record_alike exec).runTimed (queue.map (now, ·))
  rw [← runTimed_same, hrecorded.1] at hhandle
  exact ⟨_, engine.dispatch_of_handle now hhandle, (conclude_alike _ _ _).trans hrecorded.2⟩

end Sending

section Differing

variable {command : Command} {arguments : List String}

/-- A read that does not wait takes no notice of the time to block. -/
theorem run_withoutBlock (engine : Engine) (now : UInt64)
    (hvalid : StreamRead.BlocksValid arguments) :
    engine.run now (.readStreams (StreamRead.withoutBlock arguments)) =
      engine.run now (.readStreams arguments) := by
  have hread := StreamRead.ofArguments_withoutBlock arguments hvalid {}
  simp only [run, openRead, hread]
  cases StreamRead.ofArguments {} arguments with
  | error e => rfl
  | ok read =>
      simp only [Except.map, withKeyspace]
      rcases Cursor.resolveAll engine.keyspace now read.starts with ⟨_ | cursors, keyspace⟩ <;> rfl

theorem immediate_withoutBlock (hvalid : StreamRead.BlocksValid arguments) :
    (Request.readStreams (StreamRead.withoutBlock arguments)).Immediate := by
  intro read hread
  rw [StreamRead.ofArguments_withoutBlock arguments hvalid {}] at hread
  cases hblocking : StreamRead.ofArguments {} arguments with
  | error e => simp only [hblocking, Except.map, reduceCtorEq] at hread
  | ok blocking =>
      rw [hblocking] at hread
      rw [← Except.ok.inj hread]

/-- A read that may block is answered in a queue as the same read is without the time to block, also
    if a session sends that. It does not become a reader. -/
theorem runCommand_blocking {session : Session} (hclosed : session.transaction = .closed)
    (hcommand : Request.ofCommand command = .ok (.readStreams arguments))
    (hvalid : StreamRead.BlocksValid arguments) (engine : Engine) (now : UInt64) :
    (engine.runCommand now command).1 =
        .ofExcept (engine.run now (.readStreams (StreamRead.withoutBlock arguments))).1 ∧
      (engine.runCommand now command).2.readers = engine.readers ∧
      ∀ plain, Request.ofCommand plain = .ok (.readStreams (StreamRead.withoutBlock arguments)) →
        ∃ last, engine.dispatch session now plain =
            (.answered (.reply (engine.runCommand now command).1), last, session) ∧
          last.Alike (engine.runCommand now command).2 := by
  simp only [runCommand, hcommand, engine.run_withoutBlock now hvalid, true_and]
  constructor
  · rcases @run_read engine now (.readStreams arguments) rfl with ⟨keyspace, -, hread⟩
    rw [hread]
  · intro plain hplain
    have hdispatch := engine.dispatch_immediate now hplain (immediate_withoutBlock hvalid) hclosed
    rw [engine.run_withoutBlock now hvalid] at hdispatch
    exact hdispatch

/-- What belongs to the connection it comes from is refused in a queue, and nothing happens. -/
theorem runCommand_of_connection {request : Request}
    (hrequest : Request.ofCommand command = .ok request)
    (hname : command.name = .psync ∨ command.name = .replconf) (engine : Engine) (now : UInt64) :
    engine.runCommand now command = (.ofError (notAllowedHere command.name), engine) := by
  simp only [runCommand, hrequest]
  rw [Request.name_eq hrequest] at hname ⊢
  cases request <;> simp [Request.name] at hname <;> rfl

end Differing

end Engine

namespace Threads

variable {first last : Threads} {client : Nat} {index : Option Nat} {queue rest : List Command}
  {replies : List Reply}

/-- A client runs its queue from the start to the end, and no other thread does anything. -/
def RunsAlone (client : Nat) (queue : List Command) (replies : List Reply) (first last : Threads) :
    Prop :=
  ∃ during, Telling first (.began client queue :: (during ++ [.finished client replies])) last ∧
    ∀ event ∈ during, ∃ command reply, event = .ran client command reply

theorem Telling.eq_of_nil (h : Telling first [] last) : first = last := by
  generalize hnil : ([] : List Event) = none at h
  cases h with
  | done => rfl
  | step => simp at hnil

theorem Telling.uncons {event : Event} {later : List Event}
    (h : Telling first (event :: later) last) :
    ∃ next, Tells first event next ∧ Telling next later last := by
  rcases @Telling.split first last event [] later h with ⟨middle, next, hnone, hstep, hrest⟩
  obtain rfl := hnone.eq_of_nil
  exact ⟨next, hstep, hrest⟩

/-- A client that runs the rest of its queue alone does so at some times. -/
theorem Telling.runs_rest {during : List Event} {last : Threads} {all : List Reply} :
    ∀ {first : Threads} {rest : List Command} {replies : List Reply},
      first.task client = .runs rest replies index →
      (∀ event ∈ during, ∃ command reply, event = .ran client command reply) →
      Telling first (during ++ [.finished client all]) last →
      ∃ times : List UInt64, times.length = rest.length ∧
        all = replies ++ (first.engine.runTimed (times.zip rest)).1 ∧
        last.engine = (first.engine.runTimed (times.zip rest)).2 ∧
        last.task client = .handled index (.reply (.array all)) := by
  induction during with
  | nil =>
      intro first rest replies htask _ h
      rcases h.uncons with ⟨next, hfinished, hdone⟩
      obtain rfl := hdone.eq_of_nil
      cases hfinished with
      | finished htask' =>
          rcases Task.runs.inj (htask.symm.trans htask') with ⟨rfl, rfl, rfl⟩
          exact ⟨[], rfl, (List.append_nil _).symm, rfl, go_task ..⟩
  | cons event during ih =>
      intro first rest replies htask hran h
      rw [List.forall_mem_cons] at hran
      rcases hran with ⟨⟨command, reply, rfl⟩, hran⟩
      rcases h.uncons with ⟨next, hstep, hlater⟩
      cases hstep with
      | ran now htask' hlock =>
          rcases Task.runs.inj (htask.symm.trans htask') with ⟨rfl, rfl, rfl⟩
          rcases ih (go_task ..) hran hlater with ⟨times, hlength, hall, hengine, hlast⟩
          refine ⟨now :: times, by simp [hlength], ?_, hengine, hlast⟩
          rw [hall, List.append_assoc]
          rfl

/-- The rest of a queue can be run at any times. -/
theorem Telling.runs_at (times : List UInt64) :
    ∀ {first : Threads} {rest : List Command} {replies : List Reply},
      first.task client = .runs rest replies index → first.lock = .free →
      times.length = rest.length →
      ∃ during last, Telling first
          (during ++ [.finished client (replies ++ (first.engine.runTimed (times.zip rest)).1)])
          last ∧
        ∀ event ∈ during, ∃ command reply, event = .ran client command reply := by
  induction times with
  | nil =>
      intro first rest replies htask _ hlength
      obtain rfl : rest = [] := List.eq_nil_of_length_eq_zero hlength.symm
      simp only [List.zip_nil_left, Engine.runTimed, List.append_nil]
      exact ⟨[], _, .step .done (.finished htask), by simp⟩
  | cons now times ih =>
      intro first rest replies htask hlock hlength
      rcases rest with _ | ⟨command, rest⟩
      · simp at hlength
      · have hstep : Tells first _ _ := .ran now htask fun _ => hlock
        rcases ih (go_task first client _ _) hlock (Nat.succ.inj hlength) with
          ⟨during, last, hlater, hran⟩
        rw [List.append_assoc] at hlater
        refine ⟨_ :: during, last, (Telling.step .done hstep).append hlater, ?_⟩
        rw [List.forall_mem_cons]
        exact ⟨⟨_, _, rfl⟩, hran⟩

/-- A client that runs its queue alone does what the queue does at some times. -/
theorem RunsAlone.timed (h : RunsAlone client queue replies first last) :
    ∃ times : List UInt64, times.length = queue.length ∧
      replies = (first.engine.runTimed (times.zip queue)).1 ∧
      last.engine = (first.engine.runTimed (times.zip queue)).2 ∧
      ∃ index, last.task client = .handled index (.reply (.array replies)) := by
  rcases h with ⟨during, htelling, hran⟩
  rcases htelling.uncons with ⟨next, hbegan, hlater⟩
  cases hbegan with
  | began htask hroute =>
      rcases Telling.runs_rest (go_task ..) hran hlater with
        ⟨times, hlength, hall, hengine, hlast⟩
      exact ⟨times, hlength, hall, hengine, _, hlast⟩

/-- A client can run its queue alone at any times, if nobody holds the lock for writes. -/
theorem runsAlone_at {exec : Command} (htask : first.task client = .recorded exec index)
    (hexec : Request.ofCommand exec = .ok .runTransaction)
    (hopened : (first.session client).transaction = .opened queue) (hlock : first.lock = .free)
    {times : List UInt64} (hlength : times.length = queue.length) :
    ∃ last, RunsAlone client queue (first.engine.runTimed (times.zip queue)).1 first last := by
  have hroute : first.engine.route (first.session client) index exec = .runs queue := by
    simp only [Engine.route, hexec, hopened]
  have hbegan : Tells first _ _ := .began htask hroute
  have hruns := go_task
    { first with
      session := Function.update first.session client
        { first.session client with transaction := .closed } }
    client first.engine (.runs queue [] index)
  rcases Telling.runs_at times hruns hlock hlength with ⟨during, last, hlater, hran⟩
  exact ⟨last, during, (Telling.step .done hbegan).append hlater, hran⟩

end Threads

namespace Engine

open Threads

/-- A queue is run as its commands are when they are sent.

    Whatever queue a session has been answered that its commands are queued in, running it is
    answered at once, with the replies to the commands as they are run one after the other: at the
    time of the command that runs the queue, or in a run of its thread with nothing of others in
    between, at times of their own, which may be any. If no command of the queue waits or belongs to
    a connection, the same commands sent by a session without a transaction at the same times are
    answered these replies, and leave behind the same keyspace and the same readers, of which the
    same are woken.

    In any queue, a read that may block is answered what the same read is without the time to block,
    and makes no reader. What belongs to a connection is refused, and nothing happens. -/
theorem runs_queue_as_sent {engine opened : Engine} {session inside : Session}
    (hclosed : session.transaction = .closed) {multi exec : Command}
    (hmulti : Request.ofCommand multi = .ok .beginTransaction)
    (hexec : Request.ofCommand exec = .ok .runTransaction) {opening : UInt64}
    {sent : List (UInt64 × Command)}
    (hqueued : engine.dispatchAll session ((opening, multi) :: sent) =
      (.answered (.reply .ok) :: sent.map (fun _ => .queued), opened, inside)) :
    let queue := sent.map (·.2)
    (∀ now, ∃ after, opened.dispatch inside now exec =
        (.answered (.reply (.array (opened.runTimed (queue.map (now, ·))).1)), after, session) ∧
      after.Alike (opened.runTimed (queue.map (now, ·))).2) ∧
    (∀ client (first : Threads), first.engine.Alike opened → first.session client = inside →
      (∀ replies last, RunsAlone client queue replies first last →
        ∃ times : List UInt64, times.length = queue.length ∧
          replies = (opened.runTimed (times.zip queue)).1 ∧
          last.engine.Alike (opened.runTimed (times.zip queue)).2 ∧
          ∃ index, last.task client = .handled index (.reply (.array replies))) ∧
      ∀ index (times : List UInt64), first.task client = .recorded exec index →
        first.lock = .free → times.length = queue.length →
        ∃ last, RunsAlone client queue (opened.runTimed (times.zip queue)).1 first last) ∧
    ∀ timed : List (UInt64 × Command), timed.map (·.2) = queue →
      ∀ direct : Session, direct.transaction = .closed →
        ((∀ command ∈ queue, command.Immediate) → ∃ last, engine.dispatchAll direct timed =
            ((opened.runTimed timed).1.map (.answered <| .reply ·), last, direct) ∧
          last.Alike (opened.runTimed timed).2) ∧
        ∀ earlier now command later, timed = earlier ++ (now, command) :: later →
          let middle := (opened.runTimed earlier).2
          let after := (opened.runTimed (earlier ++ [(now, command)])).2
          ∃ reply, (opened.runTimed timed).1[earlier.length]? = some reply ∧
            (∀ arguments, Request.ofCommand command = .ok (.readStreams arguments) →
              StreamRead.BlocksValid arguments →
              reply = .ofExcept
                (middle.run now (.readStreams (StreamRead.withoutBlock arguments))).1 ∧
              after.readers = middle.readers ∧
              ∀ plain, Request.ofCommand plain =
                  .ok (.readStreams (StreamRead.withoutBlock arguments)) →
                ∃ last, middle.dispatch direct now plain =
                    (.answered (.reply reply), last, direct) ∧ last.Alike after) ∧
            (command.name = .psync ∨ command.name = .replconf →
              reply = .ofError (notAllowedHere command.name) ∧ after = middle) := by
  intro queue
  rcases dispatchAll_begin hclosed hmulti hqueued with ⟨hinside, halike, hcommands⟩
  have hopened : inside.transaction = .opened queue := by rw [hinside]
  refine ⟨fun now => ?_, ?_, ?_⟩
  · rcases opened.dispatch_runs now hopened hexec with ⟨after, hdispatch, hafter⟩
    have hback : { inside with transaction := .closed } = session := by
      rw [hinside, ← hclosed]
    rw [hback] at hdispatch
    exact ⟨after, hdispatch, hafter⟩
  · intro client first hfirst hsession
    constructor
    · intro replies last halone
      rcases halone.timed with ⟨times, hlength, hreplies, hlast, htask⟩
      have hsame := hfirst.runTimed (times.zip queue)
      rw [← hreplies, ← hlast] at hsame
      exact ⟨times, hlength, hsame.1, hsame.2, htask⟩
    · intro index times htask hlock hlength
      rw [← (hfirst.runTimed (times.zip queue)).1]
      exact runsAlone_at htask hexec (hsession ▸ hopened) hlock hlength
  · intro timed htimed direct hdirect
    constructor
    · intro hplain
      refine dispatchAll_immediate hdirect ?_ halike.symm
      rw [htimed]
      intro command hcommand
      rcases hcommands command hcommand with ⟨hcontrol, request, hrequest⟩
      exact ⟨request, hrequest, (hplain command hcommand).immediate hrequest hcontrol⟩
    · rintro earlier now command later rfl middle after
      obtain ⟨hreply, hafter⟩ : (opened.runTimed (earlier ++ (now, command) :: later)).1[
            earlier.length]? = some (middle.runCommand now command).1 ∧
          after = (middle.runCommand now command).2 :=
        opened.runTimed_at earlier later now command
      rw [hafter]
      refine ⟨_, hreply, fun arguments hrequest hvalid =>
        runCommand_blocking hdirect hrequest hvalid middle now, fun hname => ?_⟩
      have hmem : command ∈ queue := by
        rw [← htimed]
        simp
      rcases (hcommands command hmem).2 with ⟨request, hrequest⟩
      rw [runCommand_of_connection hrequest hname middle now]
      exact ⟨rfl, rfl⟩

/-- A number is written and incremented in a queue, and by a session. In another queue a read that
    may block is answered as one that may not, and a request for a resync is refused. -/
theorem runs_queue_as_sent_of_two :
    let engine := start {} .missing "id"
    let multi := Command.ofParts .multi []
    let exec := Command.ofParts .exec []
    let set := Command.ofParts .set ["k", "41"]
    let increment := Command.ofParts .incr ["k"]
    let read := Command.ofParts .xread ["block", "0", "streams", "s", "0"]
    let resync := Command.ofParts .psync ["?", "-1"]
    (∃ opened inside after last,
      engine.dispatchAll {} [(4, multi), (5, set), (6, increment)] =
        ([.answered (.reply .ok), .queued, .queued], opened, inside) ∧
      opened.dispatch inside 9 exec =
        (.answered (.reply (.array [.ok, .integer 42])), after, {}) ∧
      engine.dispatchAll {} [(9, set), (9, increment)] =
        ([.answered (.reply .ok), .answered (.reply (.integer 42))], last, {}) ∧
      last.Alike after) ∧
    ∃ opened inside after reply,
      engine.dispatchAll {} [(4, multi), (5, read), (6, resync)] =
        ([.answered (.reply .ok), .queued, .queued], opened, inside) ∧
      opened.dispatch inside 9 exec =
        (.answered (.reply (.array [reply, .ofError (notAllowedHere .psync)])), after, {}) ∧
      (opened.dispatch {} 9 (.ofParts .xread ["streams", "s", "0"])).1 =
        .answered (.reply reply) ∧
      after.readers = opened.readers := by
  intro engine multi exec set increment read resync
  constructor
  · have hqueued : engine.dispatchAll {} ((4, multi) :: [(5, set), (6, increment)]) =
        (.answered (.reply .ok) :: [(5, set), (6, increment)].map (fun _ => .queued), _, _) := rfl
    have h := @runs_queue_as_sent engine _ {} _ rfl multi exec rfl rfl _ _ hqueued
    have hplain : ∀ command ∈ [set, increment], command.Immediate := by
      simp only [List.forall_mem_cons, List.not_mem_nil, false_imp_iff, implies_true, and_true]
      exact ⟨⟨by decide, fun _ _ h => nomatch h⟩, ⟨by decide, fun _ _ h => nomatch h⟩⟩
    rcases h.1 9 with ⟨after, hexec, hafter⟩
    rcases (h.2.2 [(9, set), (9, increment)] rfl {} rfl).1 hplain with ⟨last, hsent, hlast⟩
    exact ⟨_, _, after, last, hqueued, hexec, hsent, hlast.trans hafter.symm⟩
  · obtain ⟨opened, inside, hqueued⟩ : ∃ opened inside,
        engine.dispatchAll {} ((4, multi) :: [(5, read), (6, resync)]) =
          (.answered (.reply .ok) :: [(5, read), (6, resync)].map (fun _ => .queued), opened,
            inside) := ⟨_, _, rfl⟩
    have h := @runs_queue_as_sent engine _ {} _ rfl multi exec rfl rfl _ _ hqueued
    have hstreams : Text.sameWord "streams" "STREAMS" = true := Text.sameWord_iff.mpr (by decide)
    have hother : ¬ Text.sameWord "block" "STREAMS" = true := by
      rw [Text.sameWord_iff]
      decide
    have hwithout : StreamRead.withoutBlock ["block", "0", "streams", "s", "0"] =
        ["streams", "s", "0"] := by
      rw [StreamRead.withoutBlock, if_neg hother, if_pos (Text.sameWord_iff.mpr (by decide)),
        StreamRead.withoutBlock, if_pos hstreams]
    have hplaces := (h.2.2 [(9, read), (9, resync)] rfl {} rfl).2
    have hpair : ∀ earlier later, (opened.runTimed [(9, earlier), (9, later)]).1 =
        [(opened.runCommand 9 earlier).1,
          ((opened.runCommand 9 earlier).2.runCommand 9 later).1] := fun _ _ => rfl
    rcases h.1 9 with ⟨after, hexec, hafter⟩
    rcases hplaces [] 9 read [(9, resync)] rfl with ⟨reply, hreply, hblocking, -⟩
    rcases hplaces [(9, read)] 9 resync [] rfl with ⟨refusal, hrefusal, -, hrefused⟩
    rw [hpair] at hreply hrefusal
    rcases hblocking _ rfl (.inr ⟨fun _ => rfl, .inl hstreams⟩) with ⟨-, hreaders, hdirect⟩
    rcases hdirect (.ofParts .xread ["streams", "s", "0"]) (by rw [hwithout]; rfl) with
      ⟨last, hlast, -⟩
    obtain ⟨hrefusal', hsame⟩ : refusal = .ofError (notAllowedHere .psync) ∧ _ :=
      hrefused (.inl rfl)
    refine ⟨opened, inside, after, reply, hqueued, ?_, congrArg (·.1) hlast, ?_⟩
    · simp only [List.map_cons, List.map_nil, hpair] at hexec
      simp only [List.length_nil, List.length_singleton, List.getElem?_cons_zero,
        List.getElem?_cons_succ, Option.some.injEq] at hreply hrefusal
      rw [hexec, hreply, hrefusal, hrefusal']
    · rw [hafter.readers]
      exact (congrArg (·.readers) hsame).trans hreaders

end Engine

end KeyValue
