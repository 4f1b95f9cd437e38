import KeyValue.Proofs.Engine.Dispatching
import Mathlib.Logic.Function.Basic

/-!
# Clients served at the same time

Each client is served by a thread of its own, and the threads run in any interleaving.

A command is recorded, handled and answered. A write that is run at once takes the lock for writes,
changes the keyspace, forwards its bytes to one replica after the other, and gives the lock back;
between any two of these steps other threads run. The queue of a transaction takes the lock once
for each write in it. A request to wait asks one replica after the other, without the lock. While
somebody forwards or asks, no replica comes or goes, but links may break at any time.

The steps of one command, with nothing in between, do what `Engine.dispatch` does
(`Leads.dispatch`).

What a client is answered is not written to its link here, so a link holds only what it receives
as that of a replica.

## Main definitions

* `Frame`: What a replica is sent as a whole.
* `Task`, `WriteLock`: Where a thread is, and who holds the lock for writes.
* `Threads`: The engine with the threads.
* `Mark`: What can be seen of a step.
* `Threads.Step`, `Threads.Run`: A step of some thread, and any number of steps.

## Theorems

* `Leads.deliver_all`, `Leads.ask_all`: One replica after the other.
* `Leads.dispatch`: The steps of one command.
-/

namespace KeyValue

/-- What a replica is sent as a whole. -/
inductive Frame where
  /-- The request for an acknowledgement. -/
  | ask
  /-- A write, in the bytes it came in. -/
  | write (command : Command)
  deriving DecidableEq

namespace Frame

def bytes : Frame → Bytes
  | ask => Master.ackRequest
  | write command => command.raw

/-- The write that the frame is. -/
def writes : Frame → List Command
  | ask => []
  | write command => [command]

end Frame

/-- A write that was run at once. -/
structure Write where
  client : Nat
  command : Command
  /-- Its place in the history. -/
  index : Option Nat
  result : Except Error Reply

/-- Who holds the lock for writes. -/
inductive WriteLock where
  | free
  /-- The write has changed the keyspace, or failed. -/
  | ran (write : Write)
  /-- The write succeeded, and these replicas have not been sent its bytes. -/
  | forwards (write : Write) (left : List Peer)

/-- Where the thread of a client is. -/
inductive Task where
  /-- It waits for a command. -/
  | idle
  | recorded (command : Command) (index : Option Nat)
  /-- It holds the lock for writes. -/
  | writes
  /-- It runs the rest of a queue. -/
  | runs (rest : List Command) (replies : List Reply) (index : Option Nat)
  /-- It has taken the place for a waiting client. -/
  | installed (pending : Pending) (index : Option Nat)
  /-- It asks for acknowledgements; these replicas have not been asked. -/
  | asks (pending : Pending) (index : Option Nat) (left : List Peer)
  | waits (pending : Pending) (index : Option Nat)
  /-- It knows the response to a write that it ran at once. -/
  | wrote (command : Command) (index : Option Nat) (response : Response)
  /-- It knows the response to some other command. -/
  | handled (index : Option Nat) (response : Response)

/-- Where a thread is with a command that was handled. -/
def Task.ofDispatch (index : Option Nat) : Dispatch → Task
  | .answered response => .handled index response
  | .waits pending index => .waits pending index

/-- Where a thread is when its command was answered, or waits. -/
def Task.answered : Dispatch → Task
  | .answered _ => .idle
  | .waits pending index => .waits pending index

/-- What can be seen of a step. -/
inductive Mark where
  | nothing
  /-- A write that is run at once has changed the keyspace, or failed. -/
  | ran (client : Nat) (command : Command) (response : Response)
  /-- A write starts to be forwarded. -/
  | forwarded (command : Command)
  | delivered (peer : Peer) (frame : Frame)
  /-- A write that was run at once is answered. -/
  | replied (client : Nat) (command : Command) (response : Response)
  | registered (peer : Peer)

/-- The engine with the threads that serve its clients. -/
structure Threads where
  engine : Engine
  session : Nat → Session := fun _ => {}
  task : Nat → Task := fun _ => .idle
  lock : WriteLock := .free

namespace Threads

/-- A thread changes the engine and goes on with another task. -/
def go (threads : Threads) (client : Nat) (engine : Engine) (task : Task) : Threads :=
  { threads with engine, task := Function.update threads.task client task }

/-- Somebody sends a frame to a replica. -/
def send (threads : Threads) (peer : Peer) (frame : Frame) : Engine :=
  { threads.engine with links := threads.engine.links.write peer.link frame.bytes }

/-- What can be seen of that: nothing if the link is closed. -/
def sent (threads : Threads) (peer : Peer) (frame : Frame) : Mark :=
  if threads.engine.links.isOpen peer.link = true then .delivered peer frame else .nothing

/-- Nobody forwards or asks. -/
def Unsending (threads : Threads) : Prop :=
  (∀ write left, threads.lock ≠ .forwards write left) ∧
    ∀ client pending index left, threads.task client ≠ .asks pending index left

/-- A step of some thread. -/
inductive Step : Threads → Mark → Threads → Prop
  | record {threads : Threads} {client : Nat} (command : Command)
      (htask : threads.task client = .idle) :
      Step threads .nothing
        (threads.go client (threads.engine.record command).2
          (.recorded command (threads.engine.record command).1))
  /-- A quick command is handled. -/
  | handle {threads : Threads} {client : Nat} {command : Command} {index : Option Nat}
      {dispatch : Dispatch} {engine : Engine} {session : Session} (now : UInt64)
      (htask : threads.task client = .recorded command index)
      (hroute : threads.engine.route (threads.session client) index command = .quick)
      (hhandle : threads.engine.handle (threads.session client) now index command =
        (dispatch, engine, session)) :
      Step threads .nothing
        ({ threads with session := Function.update threads.session client session }.go client
          engine (.ofDispatch index dispatch))
  /-- A write takes the lock and changes the keyspace. -/
  | run {threads : Threads} {client : Nat} {command : Command} {index : Option Nat}
      {request : Request} {result : Except Error Reply} {engine : Engine} (now : UInt64)
      (htask : threads.task client = .recorded command index)
      (hroute : threads.engine.route (threads.session client) index command = .writes request)
      (hlock : threads.lock = .free) (hrun : threads.engine.run now request = (result, engine)) :
      Step threads (.ran client command (.ofExcept result))
        ({ threads with lock := .ran ⟨client, command, index, result⟩ }.go client engine .writes)
  /-- A write that failed gives the lock back. -/
  | fail {threads : Threads} {write : Write} {e : Error} (hlock : threads.lock = .ran write)
      (hresult : write.result = .error e) :
      Step threads .nothing
        ({ threads with lock := .free }.go write.client threads.engine
          (.wrote write.command write.index (.ofExcept write.result)))
  /-- A write that succeeded looks up the replicas. -/
  | forward {threads : Threads} {write : Write} {reply : Reply} (hlock : threads.lock = .ran write)
      (hresult : write.result = .ok reply) :
      Step threads (.forwarded write.command)
        { threads with lock := .forwards write threads.engine.peers }
  /-- The write is sent to the next replica. -/
  | deliver {threads : Threads} {write : Write} {peer : Peer} {left : List Peer}
      (hlock : threads.lock = .forwards write (peer :: left)) :
      Step threads (threads.sent peer (.write write.command))
        { threads with
          engine := threads.send peer (.write write.command), lock := .forwards write left }
  /-- The write was sent to all, and gives the lock back. -/
  | release {threads : Threads} {write : Write} (hlock : threads.lock = .forwards write []) :
      Step threads .nothing
        ({ threads with lock := .free }.go write.client threads.engine
          (.wrote write.command write.index (.ofExcept write.result)))
  | reply {threads : Threads} {client : Nat} {command : Command} {index : Option Nat}
      {response : Response} (htask : threads.task client = .wrote command index response) :
      Step threads (.replied client command response)
        (threads.go client (threads.engine.conclude index response) .idle)
  | conclude {threads : Threads} {client : Nat} {index : Option Nat} {response : Response}
      (htask : threads.task client = .handled index response) :
      Step threads .nothing
        (threads.go client (threads.engine.conclude index response) .idle)
  /-- A request to wait takes the place for a waiting client. -/
  | install {threads : Threads} {client : Nat} {command : Command} {index : Option Nat}
      {wait : AckWait} {timeout : UInt64} (now : UInt64)
      (htask : threads.task client = .recorded command index)
      (hroute : threads.engine.route (threads.session client) index command =
        .asks wait timeout) :
      Step threads .nothing
        (threads.go client (threads.engine.updateMaster (·.install wait))
          (.installed ⟨.acks wait, Engine.deadlineAfter now timeout⟩ index))
  /-- A request to wait looks up the replicas. -/
  | ask {threads : Threads} {client : Nat} {pending : Pending} {index : Option Nat}
      (htask : threads.task client = .installed pending index) :
      Step threads .nothing
        (threads.go client threads.engine (.asks pending index threads.engine.peers))
  /-- The next replica is asked. -/
  | deliverAsk {threads : Threads} {client : Nat} {pending : Pending} {index : Option Nat}
      {peer : Peer} {left : List Peer}
      (htask : threads.task client = .asks pending index (peer :: left)) :
      Step threads (threads.sent peer .ask)
        (threads.go client (threads.send peer .ask) (.asks pending index left))
  /-- All were asked. -/
  | asked {threads : Threads} {client : Nat} {pending : Pending} {index : Option Nat}
      (htask : threads.task client = .asks pending index []) :
      Step threads .nothing (threads.go client threads.engine (.waits pending index))
  /-- A command that waits looks for a wake-up. -/
  | poll {threads : Threads} {client : Nat} {pending : Pending} {index : Option Nat}
      (now : UInt64) (htask : threads.task client = .waits pending index) :
      Step threads .nothing
        (threads.go client (threads.engine.poll now pending.waiting).2
          (match (threads.engine.poll now pending.waiting).1 with
          | none => .waits pending index
          | some result => .handled index (.ofExcept result)))
  /-- The time of a command that waits is over. -/
  | expire {threads : Threads} {client : Nat} {pending : Pending} {index : Option Nat}
      (now : UInt64) (htask : threads.task client = .waits pending index) :
      Step threads .nothing
        (threads.go client (threads.engine.expire now pending.waiting).2
          (.handled index (.ofExcept (threads.engine.expire now pending.waiting).1)))
  /-- A transaction is closed, and its queue is to be run. -/
  | start {threads : Threads} {client : Nat} {command : Command} {index : Option Nat}
      {queue : List Command} (htask : threads.task client = .recorded command index)
      (hroute : threads.engine.route (threads.session client) index command = .runs queue) :
      Step threads .nothing
        ({ threads with
            session := Function.update threads.session client
              { threads.session client with transaction := .closed } }.go client threads.engine
          (.runs queue [] index))
  /-- The next command of a queue is run; a write takes the lock for that. -/
  | runNext {threads : Threads} {client : Nat} {command : Command} {rest : List Command}
      {replies : List Reply} {index : Option Nat} (now : UInt64)
      (htask : threads.task client = .runs (command :: rest) replies index)
      (hlock : command.name.kind = .write → threads.lock = .free) :
      Step threads .nothing
        (threads.go client (threads.engine.runCommand now command).2
          (.runs rest (replies ++ [(threads.engine.runCommand now command).1]) index))
  /-- All commands of a queue were run. -/
  | finish {threads : Threads} {client : Nat} {replies : List Reply} {index : Option Nat}
      (htask : threads.task client = .runs [] replies index) :
      Step threads .nothing
        (threads.go client threads.engine (.handled index (.reply (.array replies))))
  /-- A link is opened. -/
  | connect {threads : Threads} :
      Step threads .nothing
        { threads with
          engine := { threads.engine with links := threads.engine.links.connect.2 } }
  /-- A link breaks, or is closed. -/
  | close {threads : Threads} (link : Nat) :
      Step threads .nothing
        { threads with
          engine := { threads.engine with links := threads.engine.links.close link } }
  /-- A link is registered as that of a replica. -/
  | register {threads : Threads} {client link : Nat} {master : Master}
      (hrole : threads.engine.role = .master master)
      (hlink : link < threads.engine.links.all.length) (hunsending : threads.Unsending) :
      Step threads (.registered ⟨master.nextPeerId, link⟩)
        { threads with
          engine := { threads.engine with role := .master (master.register link).2 }
          session := Function.update threads.session client
            { threads.session client with replicaId := some master.nextPeerId } }
  /-- A replica is forgotten. -/
  | remove {threads : Threads} (id : Nat) (hunsending : threads.Unsending) :
      Step threads .nothing
        { threads with engine := threads.engine.updateMaster (·.remove id) }

/-- Any number of steps, with what can be seen of them. -/
inductive Run : Threads → List Mark → Threads → Prop
  | done (threads : Threads) : Run threads [] threads
  | step {before middle after : Threads} {mark : Mark} {log : List Mark}
      (h : Step before mark middle) (rest : Run middle log after) :
      Run before (mark :: log) after

/-- The threads of a server that starts. -/
def start (config : Config) (file : Snapshot.File) (replicationId : String) : Threads :=
  { engine := .start config file replicationId }

theorem go_go (threads : Threads) (client : Nat) (engine engine' : Engine) (task task' : Task) :
    (threads.go client engine task).go client engine' task' = threads.go client engine' task' := by
  simp only [go, Function.update_idem]

theorem go_task (threads : Threads) (client : Nat) (engine : Engine) (task : Task) :
    (threads.go client engine task).task client = task :=
  Function.update_self ..

/-- A thread that only changes its task to what it was does nothing. -/
theorem go_self (threads : Threads) (client : Nat) (task : Task)
    (h : threads.task client = task) : threads.go client threads.engine task = threads := by
  subst h
  simp only [go, Function.update_eq_self]

theorem Run.append {before middle after : Threads} {log later : List Mark}
    (h : Run before log middle) (h' : Run middle later after) :
    Run before (log ++ later) after := by
  induction h with
  | done _ => exact h'
  | step hstep _ ih => exact .step hstep (ih h')

/-- Some steps lead from one state to another. -/
def Leads (before after : Threads) : Prop := ∃ log, Run before log after

namespace Leads

theorem refl (threads : Threads) : Leads threads threads := ⟨[], .done threads⟩

theorem step {before middle after : Threads} {mark : Mark} (h : Step before mark middle)
    (h' : Leads middle after) : Leads before after := by
  rcases h' with ⟨log, hrun⟩
  exact ⟨mark :: log, .step h hrun⟩

theorem trans {before middle after : Threads} (h : Leads before middle)
    (h' : Leads middle after) : Leads before after := by
  rcases h with ⟨log, hrun⟩
  rcases h' with ⟨later, hrun'⟩
  exact ⟨log ++ later, hrun.append hrun'⟩

theorem next {before middle after : Threads} {mark : Mark} (h : Leads before middle)
    (h' : Step middle mark after) : Leads before after :=
  h.trans (.step h' (.refl after))

/-- A command that was handled can be concluded. -/
theorem conclude {before threads : Threads} {client : Nat} {engine : Engine}
    {index : Option Nat} {response : Response}
    (h : Leads before (threads.go client engine (.handled index response))) :
    Leads before (threads.go client (engine.conclude index response) .idle) := by
  have hlast := h.next (.conclude (go_task ..))
  rw [go_go] at hlast
  exact hlast

/-- A write that was run can be concluded and answered. -/
theorem reply {before threads : Threads} {client : Nat} {engine : Engine} {command : Command}
    {index : Option Nat} {response : Response}
    (h : Leads before (threads.go client engine (.wrote command index response))) :
    Leads before (threads.go client (engine.conclude index response) .idle) := by
  have hlast := h.next (.reply (go_task ..))
  rw [go_go] at hlast
  exact hlast

/-- A write is sent to one replica after the other. -/
theorem deliver_all (write : Write) (left : List Peer) (threads : Threads)
    (hlock : threads.lock = .forwards write left) :
    Leads threads
      { threads with
        engine := { threads.engine with
          links := left.foldl (fun links peer => links.write peer.link write.command.raw)
            threads.engine.links }
        lock := .forwards write [] } := by
  induction left generalizing threads with
  | nil =>
      rw [← hlock]
      exact .refl threads
  | cons peer rest ih => exact .step (.deliver hlock) (ih _ rfl)

/-- One replica after the other is asked. -/
theorem ask_all (client : Nat) (pending : Pending) (index : Option Nat) (left : List Peer)
    (threads : Threads) (htask : threads.task client = .asks pending index left) :
    Leads threads
      (threads.go client
        { threads.engine with
          links := left.foldl (fun links peer => links.write peer.link Master.ackRequest)
            threads.engine.links }
        (.asks pending index [])) := by
  induction left generalizing threads with
  | nil =>
      rw [List.foldl_nil, go_self threads client _ htask]
      exact .refl threads
  | cons peer rest ih =>
      have hrest := ih _
        (go_task threads client (threads.send peer .ask) (.asks pending index rest))
      rw [go_go] at hrest
      exact .step (.deliverAsk htask) hrest

-- The commands of a queue are run one after the other.
theorem run_all (client : Nat) (now : UInt64) (index : Option Nat) (rest : List Command)
    (threads : Threads) (replies : List Reply)
    (htask : threads.task client = .runs rest replies index) (hlock : threads.lock = .free) :
    Leads threads
      (threads.go client (threads.engine.runQueue now rest).2
        (.runs [] (replies ++ (threads.engine.runQueue now rest).1) index)) := by
  induction rest generalizing threads replies with
  | nil =>
      rw [Engine.runQueue, List.append_nil, go_self threads client _ htask]
      exact .refl threads
  | cons command rest ih =>
      have hstep := Step.runNext now htask fun _ => hlock
      have hrest := ih (threads.go client (threads.engine.runCommand now command).2
        (.runs rest (replies ++ [(threads.engine.runCommand now command).1]) index)) _
        (go_task ..) hlock
      rw [go_go, List.append_assoc] at hrest
      exact .step hstep hrest

-- A write that is run at once, with nothing in between.
theorem run_write {threads : Threads} {client : Nat} {command : Command} {index : Option Nat}
    {request : Request} (now : UInt64) (htask : threads.task client = .recorded command index)
    (hroute : threads.engine.route (threads.session client) index command = .writes request)
    (hlock : threads.lock = .free) :
    Leads threads
      (threads.go client (threads.engine.runAndForward now command.raw request)
        (.wrote command index (.ofExcept (threads.engine.run now request).1))) := by
  unfold Engine.runAndForward
  rcases hrun : threads.engine.run now request with ⟨result, engine⟩
  have hran : Leads threads
      ({ threads with lock := .ran ⟨client, command, index, result⟩ }.go client engine .writes) :=
    .step (.run now htask hroute hlock hrun) (.refl _)
  -- The lock is free again, and of the steps in between only the engine and the last task remain.
  have hend : ∀ engine' : Engine,
      ({ threads.go client engine .writes with engine := engine', lock := .free } : Threads).go
        client engine' (.wrote command index (.ofExcept result)) =
      threads.go client engine' (.wrote command index (.ofExcept result)) := by
    intro engine'
    simp only [go, Function.update_idem, ← hlock]
  cases result with
  | error e =>
      have hfailed := hran.next (.fail rfl rfl)
      rw [← hend engine]
      exact hfailed
  | ok reply =>
      have hforwards := hran.next (.forward rfl rfl)
      have hdelivered := hforwards.trans (deliver_all _ engine.peers _ rfl)
      have hreleased := hdelivered.next (.release rfl)
      simp only
      rw [engine.propagate_eq command.raw, ← hend]
      exact hreleased

/-- The steps of one command, with nothing in between, dispatch it. -/
theorem dispatch (threads : Threads) (client : Nat) (now : UInt64) (command : Command)
    (htask : threads.task client = .idle) (hlock : threads.lock = .free) :
    let dispatched := threads.engine.dispatch (threads.session client) now command
    Leads threads
      ({ threads with
          session := Function.update threads.session client dispatched.2.2 }.go client
        dispatched.2.1 (.answered dispatched.1)) := by
  intro dispatched
  have hrecorded := (refl threads).next (.record command htask)
  rcases hrecord : threads.engine.record command with ⟨index, recorded⟩
  rw [hrecord] at hrecorded
  -- What is left of a step is the last task and the sessions; a session may be put back as it was.
  have hend : ∀ (session : Nat → Session) (engine engine' : Engine) (task task' : Task),
      { threads.go client engine task with session }.go client engine' task' =
        { threads with session }.go client engine' task' := by
    intro session engine engine' task task'
    simp only [go, Function.update_idem]
  have hself : ∀ (engine : Engine) (task : Task),
      { threads with
        session := Function.update threads.session client (threads.session client) }.go client
        engine task = threads.go client engine task := by
    intro engine task
    rw [Function.update_eq_self]
  cases hroute : recorded.route (threads.session client) index command with
  | quick =>
      rcases hhandle : recorded.handle (threads.session client) now index command with
        ⟨response | ⟨pending, place⟩, engine, session⟩
      · have hdispatched : dispatched =
            (.answered response, engine.conclude index response, session) := by
          simp only [dispatched, Engine.dispatch, hrecord, hhandle]
        have hhandled := hrecorded.next (.handle now (go_task ..) hroute hhandle)
        rw [hend] at hhandled
        rw [hdispatched]
        exact hhandled.conclude
      · have hdispatched : dispatched = (.waits pending place, engine, session) := by
          simp only [dispatched, Engine.dispatch, hrecord, hhandle]
        have hhandled := hrecorded.next (.handle now (go_task ..) hroute hhandle)
        rw [hend] at hhandled
        rw [hdispatched]
        exact hhandled
  | asks wait timeout =>
      have hdispatched : dispatched =
          (.waits ⟨.acks wait, Engine.deadlineAfter now timeout⟩ index,
            (recorded.updateMaster (·.install wait)).propagate Master.ackRequest,
            threads.session client) := by
        simp only [dispatched, Engine.dispatch, hrecord, Engine.handle_of_asks hroute]
      have hinstalled := hrecorded.next (.install now (go_task ..) hroute)
      have hasks := hinstalled.next (.ask (go_task ..))
      have hall := (hasks.trans (ask_all client _ _ _ _ (go_task ..))).next (.asked (go_task ..))
      simp only [go_go] at hall
      rw [hdispatched, hself, Engine.propagate_eq]
      exact hall
  | writes request =>
      have hdispatched : dispatched =
          (.answered (.ofExcept (recorded.run now request).1),
            (recorded.runAndForward now command.raw request).conclude index
              (.ofExcept (recorded.run now request).1), threads.session client) := by
        simp only [dispatched, Engine.dispatch, hrecord, Engine.handle_of_writes hroute]
      have hwrote := hrecorded.trans (run_write now (go_task ..) hroute hlock)
      rw [go_go] at hwrote
      rw [hdispatched, hself]
      exact hwrote.reply
  | runs queue =>
      have hdispatched : dispatched =
          (.answered (.reply (.array (recorded.runQueue now queue).1)),
            (recorded.runQueue now queue).2.conclude index
              (.reply (.array (recorded.runQueue now queue).1)),
            { threads.session client with transaction := .closed }) := by
        simp only [dispatched, Engine.dispatch, hrecord, Engine.handle_of_runs hroute]
      have hstarted := hrecorded.next (.start (go_task ..) hroute)
      have hall := hstarted.trans (run_all client now index queue _ [] (go_task ..) hlock)
      have hfinished := hall.next (.finish (go_task ..))
      simp only [go_go, hend] at hfinished
      rw [hdispatched]
      exact hfinished.conclude

end Leads

end Threads

end KeyValue
