import KeyValue.Proofs.Engine.Heeding
import Mathlib.Logic.Function.Basic

/-!
# Clients that wait for replicas at the same time

Each client of a master is served by a thread of its own, and the threads run in any interleaving.
Here the two requests that the state of a master heeds are taken apart into steps between which
other threads run.

A client that waits for replicas looks up what to wait for, takes the place for a waiting client,
looks up the replicas and asks one after the other. Then it takes its signals, one by one, and looks
at the count after each, until it finds enough, it has lost the place, or its time is over; it leaves
the place, and is answered. The acknowledgement of a replica is heard if the replica is registered,
and counts later, for whoever has the place then.

All other commands are handled at once here, after they were recorded. What they do to anything but
the state of the master, and what links and timers do, may happen at any other time as well
(`Step.others`). Replicas come and go at any time. The time of a request to wait may be over at any
moment, unless the request waits without a limit.

The steps of one command, with nothing in between, do what `Engine.dispatch` does, and those of a
command that waits what `Engine.resume` and `Engine.giveUp` do (`Leads.dispatch`, `Leads.resume`,
`Leads.giveUp`).

## Main definitions

* `Command.IsTimed`: A request to wait with a limit.
* `Errand`: A recorded command.
* `Stage`: Where a client is with its command.
* `Quorum`: The engine with its clients.
* `Quorum.Mark`: What can be seen of a step.
* `Quorum.Step`, `Quorum.Run`: A step of some client, and any number of steps.

## Theorems

* `Leads.dispatch`, `Leads.resume`, `Leads.giveUp`: The steps of one command.
* `Run.split`: A run up to one of its marks, and on.
-/

namespace KeyValue

/-- The command is a request to wait whose time is limited. -/
def Command.IsTimed (command : Command) : Prop :=
  ∃ wanted timeout count ms, Request.ofCommand command = .ok (.waitForReplicas wanted timeout) ∧
    Engine.waitNumbers wanted timeout = .ok (count, ms) ∧ ms ≠ 0

/-- A recorded command, with its place in the history. -/
structure Errand where
  command : Command
  index : Nat

/-- Where a client is with its command. -/
inductive Stage where
  /-- It has none. -/
  | idle
  | recorded (errand : Errand)
  /-- It has looked up what to wait for. -/
  | aims (errand : Errand) (wait : AckWait)
  /-- It has taken the place for a waiting client. -/
  | installed (errand : Errand) (wait : AckWait)
  /-- It asks for acknowledgements; these replicas have not been asked. -/
  | asks (errand : Errand) (wait : AckWait) (left : List Peer)
  | waits (errand : Errand) (wait : AckWait)
  /-- It has taken a signal, or noticed that it has lost the place. -/
  | woken (errand : Errand) (wait : AckWait) (lost : Bool)
  /-- It has looked at the count for the last time. -/
  | counted (errand : Errand) (wait : AckWait) (acks : Nat)
  /-- It is a replica whose acknowledgement was heard. -/
  | heard (errand : Errand) (id : Nat)
  /-- It waits for entries. -/
  | reads (errand : Errand) (reader : Nat) (cursors : List Cursor) (count : Option Nat)
  /-- It knows the response. -/
  | handled (errand : Errand) (response : Response)

namespace Stage

/-- The command that a client is with. -/
def errand? : Stage → Option Errand
  | idle => none
  | recorded errand => some errand
  | aims errand _ => some errand
  | installed errand _ => some errand
  | asks errand _ _ => some errand
  | waits errand _ => some errand
  | woken errand _ _ => some errand
  | counted errand _ _ => some errand
  | heard errand _ => some errand
  | reads errand _ _ _ => some errand
  | handled errand _ => some errand

/-- Where a client is that waits. -/
def ofWaiting (errand : Errand) : Waiting → Stage
  | .entries reader cursors count => reads errand reader cursors count
  | .acks wait => waits errand wait

/-- Where a client is when its command was dispatched. -/
def ofDispatch (errand : Errand) : Dispatch → Stage
  | .answered _ => idle
  | .waits pending _ => ofWaiting errand pending.waiting

end Stage

/-- The engine with its clients. -/
structure Quorum where
  engine : Engine
  session : Nat → Session := fun _ => {}
  stage : Nat → Stage := fun _ => .idle

namespace Quorum

/-- What can be seen of a step. -/
inductive Mark where
  | nothing
  | recorded (client : Nat) (errand : Errand)
  /-- The client takes the place for a waiting client; acknowledgements count at the target. -/
  | took (client target : Nat)
  /-- The client that waits looks up the replicas: these are registered. -/
  | asks (client target : Nat) (peers : List Peer)
  /-- The client that waits asks a replica. -/
  | asked (client target : Nat) (peer : Peer)
  /-- The client sends the acknowledgement of the replica of this id, which is registered. -/
  | heard (client : Nat) (errand : Errand) (id : Nat)
  /-- An acknowledgement that was heard counts at the target. -/
  | acknowledged (client : Nat) (errand : Errand) (id target : Nat)
  /-- The client that waits looks at the count for the last time. -/
  | counted (client target acks : Nat)
  | answered (client : Nat) (errand : Errand) (response : Response)
  | registered (peer : Peer)
  | removed (id : Nat)

/-- A client changes the engine and goes on to another stage. -/
def go (state : Quorum) (client : Nat) (engine : Engine) (stage : Stage) : Quorum :=
  { state with engine, stage := Function.update state.stage client stage }

/-- A step of some client. -/
inductive Step : Quorum → Mark → Quorum → Prop
  | record {state : Quorum} {client index : Nat} {after : Engine} (command : Command)
      (hstage : state.stage client = .idle)
      (hrecord : state.engine.record command = (some index, after)) :
      Step state (.recorded client ⟨command, index⟩)
        (state.go client after (.recorded ⟨command, index⟩))
  /-- A command that the state of the master does not heed is handled. -/
  | handle {state : Quorum} {client : Nat} {errand : Errand} {response : Response} {after : Engine}
      {session : Session} (now : UInt64) (hstage : state.stage client = .recorded errand)
      (hasks : ∀ wait ms, state.engine.route (state.session client) (some errand.index)
        errand.command ≠ .asks wait ms)
      (hheeds : ¬state.engine.Heeds (state.session client) errand.command)
      (hhandle : state.engine.handle (state.session client) now (some errand.index)
        errand.command = (.answered response, after, session)) :
      Step state .nothing
        ({ state with session := Function.update state.session client session }.go client after
          (.handled errand response))
  /-- Such a command waits for entries. -/
  | block {state : Quorum} {client reader : Nat} {errand : Errand} {cursors : List Cursor}
      {count deadline place : Option Nat} {after : Engine} {session : Session} (now : UInt64)
      (hstage : state.stage client = .recorded errand)
      (hasks : ∀ wait ms, state.engine.route (state.session client) (some errand.index)
        errand.command ≠ .asks wait ms)
      (hheeds : ¬state.engine.Heeds (state.session client) errand.command)
      (hhandle : state.engine.handle (state.session client) now (some errand.index)
        errand.command = (.waits ⟨.entries reader cursors count, deadline⟩ place, after, session)) :
      Step state .nothing
        ({ state with session := Function.update state.session client session }.go client after
          (.reads errand reader cursors count))
  /-- A request to wait looks up what to wait for. -/
  | aim {state : Quorum} {client : Nat} {errand : Errand} {wait : AckWait} {ms : UInt64}
      (hstage : state.stage client = .recorded errand)
      (hroute : state.engine.route (state.session client) (some errand.index) errand.command =
        .asks wait ms) :
      Step state .nothing (state.go client state.engine (.aims errand wait))
  | install {state : Quorum} {client : Nat} {errand : Errand} {wait : AckWait}
      (hstage : state.stage client = .aims errand wait) :
      Step state (.took client wait.target)
        (state.go client (state.engine.updateMaster (·.install wait)) (.installed errand wait))
  /-- The replicas are looked up. -/
  | ask {state : Quorum} {client : Nat} {errand : Errand} {wait : AckWait}
      (hstage : state.stage client = .installed errand wait) :
      Step state (.asks client wait.target state.engine.peers)
        (state.go client state.engine (.asks errand wait state.engine.peers))
  /-- The next replica is asked. -/
  | deliver {state : Quorum} {client : Nat} {errand : Errand} {wait : AckWait} {peer : Peer}
      {left : List Peer} (hstage : state.stage client = .asks errand wait (peer :: left)) :
      Step state (.asked client wait.target peer)
        (state.go client
          { state.engine with
            links := state.engine.links.write peer.link Master.ackRequest }
          (.asks errand wait left))
  /-- All were asked. -/
  | park {state : Quorum} {client : Nat} {errand : Errand} {wait : AckWait}
      (hstage : state.stage client = .asks errand wait []) :
      Step state .nothing (state.go client state.engine (.waits errand wait))
  /-- A client that waits takes a signal. -/
  | wake {state : Quorum} {client signals : Nat} {errand : Errand} {wait : AckWait}
      {master : Master} (hstage : state.stage client = .waits errand wait)
      (hrole : state.engine.role = .master master)
      (hsignals : master.signals? wait = some (signals + 1)) :
      Step state .nothing
        (state.go client (state.engine.updateMaster (·.takeSignal)) (.woken errand wait false))
  /-- A client that waits notices that it has lost the place. -/
  | lose {state : Quorum} {client : Nat} {errand : Errand} {wait : AckWait} {master : Master}
      (hstage : state.stage client = .waits errand wait)
      (hrole : state.engine.role = .master master) (hlost : master.signals? wait = none) :
      Step state .nothing (state.go client state.engine (.woken errand wait true))
  /-- It finds too little, and waits on. -/
  | goOn {state : Quorum} {client : Nat} {errand : Errand} {wait : AckWait} {master : Master}
      (hstage : state.stage client = .woken errand wait false)
      (hrole : state.engine.role = .master master)
      (hfew : master.history.ackCount wait.target < wait.wanted) :
      Step state .nothing (state.go client state.engine (.waits errand wait))
  /-- It finds enough, or no more can come. -/
  | count {state : Quorum} {client : Nat} {errand : Errand} {wait : AckWait} {lost : Bool}
      {master : Master} (hstage : state.stage client = .woken errand wait lost)
      (hrole : state.engine.role = .master master)
      (hdone : wait.wanted ≤ master.history.ackCount wait.target ∨ lost = true) :
      Step state (.counted client wait.target (master.history.ackCount wait.target))
        (state.go client state.engine
          (.counted errand wait (master.history.ackCount wait.target)))
  /-- Its time is over. -/
  | ring {state : Quorum} {client : Nat} {errand : Errand} {wait : AckWait} {master : Master}
      (htimed : errand.command.IsTimed) (hstage : state.stage client = .waits errand wait)
      (hrole : state.engine.role = .master master) :
      Step state (.counted client wait.target (master.history.ackCount wait.target))
        (state.go client state.engine
          (.counted errand wait (master.history.ackCount wait.target)))
  | leave {state : Quorum} {client acks : Nat} {errand : Errand} {wait : AckWait}
      (hstage : state.stage client = .counted errand wait acks) :
      Step state .nothing
        (state.go client (state.engine.updateMaster (·.leave wait))
          (.handled errand (.reply (Engine.countReply acks))))
  /-- The acknowledgement of a registered replica is heard. -/
  | hear {state : Quorum} {client id : Nat} {errand : Errand} {master : Master}
      (hstage : state.stage client = .recorded errand)
      (hspeaks : (state.session client).acknowledgesAs? errand.command = some id)
      (hrole : state.engine.role = .master master) (hadmits : master.admits id = true) :
      Step state (.heard client errand id) (state.go client state.engine (.heard errand id))
  /-- It counts for the client that has the place. -/
  | acknowledge {state : Quorum} {client id : Nat} {errand : Errand} {master : Master}
      {waiter : AckWaiter} (hstage : state.stage client = .heard errand id)
      (hrole : state.engine.role = .master master) (hwaiter : master.waiter = some waiter) :
      Step state (.acknowledged client errand id waiter.target)
        (state.go client (state.engine.updateMaster (·.countAck)) (.handled errand .silent))
  /-- Nobody has the place. -/
  | ignore {state : Quorum} {client id : Nat} {errand : Errand} {master : Master}
      (hstage : state.stage client = .heard errand id)
      (hrole : state.engine.role = .master master) (hwaiter : master.waiter = none) :
      Step state .nothing (state.go client state.engine (.handled errand .silent))
  /-- A client that waits for entries finds none. -/
  | look {state : Quorum} {client reader : Nat} {errand : Errand} {cursors : List Cursor}
      {count : Option Nat} {after : Engine} (now : UInt64)
      (hstage : state.stage client = .reads errand reader cursors count)
      (hpoll : state.engine.poll now (.entries reader cursors count) = (none, after)) :
      Step state .nothing (state.go client after (.reads errand reader cursors count))
  /-- It finds some, or its time is over. -/
  | find {state : Quorum} {client reader : Nat} {errand : Errand} {cursors : List Cursor}
      {count : Option Nat} {result : Except Error Reply} {after : Engine} (now : UInt64)
      (hstage : state.stage client = .reads errand reader cursors count)
      (hfound : state.engine.poll now (.entries reader cursors count) = (some result, after) ∨
        state.engine.expire now (.entries reader cursors count) = (result, after)) :
      Step state .nothing (state.go client after (.handled errand (.ofExcept result)))
  | conclude {state : Quorum} {client : Nat} {errand : Errand} {response : Response}
      (hstage : state.stage client = .handled errand response) :
      Step state (.answered client errand response)
        (state.go client (state.engine.conclude (some errand.index) response) .idle)
  /-- A link is registered as that of a replica. -/
  | register {state : Quorum} {client link : Nat} {master : Master}
      (hrole : state.engine.role = .master master) :
      Step state (.registered ⟨master.nextPeerId, link⟩)
        { state with
          engine := { state.engine with role := .master (master.register link).2 }
          session := Function.update state.session client
            { state.session client with replicaId := some master.nextPeerId } }
  /-- A replica is forgotten. -/
  | remove {state : Quorum} (id : Nat) :
      Step state (.removed id) { state with engine := state.engine.updateMaster (·.remove id) }
  /-- Something else happens to the engine, and the state of the master stays as it is. -/
  | others {state : Quorum} {after : Engine} (h : after.role = state.engine.role) :
      Step state .nothing { state with engine := after }

/-- Any number of steps, with what can be seen of them. -/
inductive Run (before : Quorum) : List Mark → Quorum → Prop
  | done : Run before [] before
  | step {middle after : Quorum} {log : List Mark} {mark : Mark} (h : Run before log middle)
      (h' : Step middle mark after) : Run before (log ++ [mark]) after

/-- The clients of a server that starts. -/
def start (config : Config) (file : Snapshot.File) (replicationId : String) : Quorum :=
  { engine := .start config file replicationId }

namespace Run

variable {before middle after : Quorum} {log later : List Mark} {mark : Mark}

theorem append (h : Run before log middle) (h' : Run middle later after) :
    Run before (log ++ later) after := by
  induction h' with
  | done =>
      rw [List.append_nil]
      exact h
  | step _ hstep ih =>
      rw [← List.append_assoc]
      exact .step ih hstep

/-- A run consists of a run up to one of its marks, the step that leaves the mark, and a run on. -/
theorem split (h : Run before (log ++ mark :: later) after) :
    ∃ middle next, Run before log middle ∧ Step middle mark next ∧ Run next later after := by
  generalize hall : log ++ mark :: later = all at h
  induction h generalizing later with
  | done => simp at hall
  | @step last final log' mark' hrun hstep ih =>
      rcases List.eq_nil_or_concat later with rfl | ⟨initial, final', rfl⟩
      · rcases List.append_inj' hall rfl with ⟨rfl, hmark⟩
        rw [List.singleton_inj] at hmark
        exact ⟨_, _, hrun, hmark ▸ hstep, .done⟩
      · rw [List.concat_eq_append, ← List.cons_append, ← List.append_assoc] at hall
        rcases List.append_inj' hall rfl with ⟨hinitial, hmark⟩
        rw [List.singleton_inj] at hmark
        rcases ih hinitial with ⟨middle, next, hbefore, hmiddle, hafter⟩
        refine ⟨middle, next, hbefore, hmiddle, ?_⟩
        rw [List.concat_eq_append, hmark]
        exact hafter.step hstep

end Run

theorem go_go (state : Quorum) (client : Nat) (engine engine' : Engine) (stage stage' : Stage) :
    (state.go client engine stage).go client engine' stage' = state.go client engine' stage' := by
  simp only [go, Function.update_idem]

theorem go_stage (state : Quorum) (client : Nat) (engine : Engine) (stage : Stage) :
    (state.go client engine stage).stage client = stage :=
  Function.update_self ..

/-- A client that only goes on to the stage where it was does nothing. -/
theorem go_self (state : Quorum) (client : Nat) (stage : Stage)
    (h : state.stage client = stage) : state.go client state.engine stage = state := by
  subst h
  simp only [go, Function.update_eq_self]

/-- Some steps lead from one state to another, and a response is seen on the way, if there is one. -/
def Leads (before : Quorum) (client : Nat) (errand : Errand) (response : Option Response)
    (after : Quorum) : Prop :=
  ∃ log, Run before log after ∧ ∀ given ∈ response, .answered client errand given ∈ log

namespace Leads

variable {before middle after : Quorum} {client : Nat} {errand : Errand}
  {response : Option Response}

theorem refl (state : Quorum) (client : Nat) (errand : Errand) :
    Leads state client errand none state := ⟨[], .done, by simp⟩

theorem trans (h : Leads before client errand none middle)
    (h' : Leads middle client errand response after) :
    Leads before client errand response after := by
  rcases h with ⟨log, hrun, -⟩
  rcases h' with ⟨later, hlater, hgiven⟩
  exact ⟨log ++ later, hrun.append hlater,
    fun given hmem => List.mem_append_right _ (hgiven given hmem)⟩

theorem next {mark : Mark} (h : Leads before client errand none middle)
    (h' : Step middle mark after) : Leads before client errand none after := by
  rcases h with ⟨log, hrun, -⟩
  exact ⟨log ++ [mark], hrun.step h', by simp⟩

theorem conclude {state : Quorum} {engine : Engine} {given : Response}
    (h : Leads before client errand none (state.go client engine (.handled errand given))) :
    Leads before client errand (some given)
      (state.go client (engine.conclude (some errand.index) given) .idle) := by
  rcases h with ⟨log, hrun, -⟩
  have hlast := hrun.step (.conclude (go_stage ..))
  rw [go_go] at hlast
  exact ⟨_, hlast, by simp⟩

/-- One replica after the other is asked. -/
theorem deliver_all (wait : AckWait) (left : List Peer) (state : Quorum)
    (hstage : state.stage client = .asks errand wait left) :
    Leads state client errand none
      (state.go client
        { state.engine with
          links := left.foldl (fun links peer => links.write peer.link Master.ackRequest)
            state.engine.links }
        (.asks errand wait [])) := by
  induction left generalizing state with
  | nil =>
      rw [List.foldl_nil, go_self state client _ hstage]
      exact .refl state client errand
  | cons peer rest ih =>
      have hrest := ih _ (go_stage state client
        { state.engine with links := state.engine.links.write peer.link Master.ackRequest }
        (.asks errand wait rest))
      rw [go_go] at hrest
      exact ((refl state client errand).next (.deliver hstage)).trans hrest

/-- The steps of one command, with nothing in between, dispatch it. -/
theorem dispatch (state : Quorum) (client : Nat) (now : UInt64) (command : Command) {index : Nat}
    {recorded : Engine} (hstage : state.stage client = .idle)
    (hrecord : state.engine.record command = (some index, recorded)) :
    let dispatched := state.engine.dispatch (state.session client) now command
    Leads state client ⟨command, index⟩
      (match dispatched.1 with
      | .answered response => some response
      | .waits _ _ => none)
      ({ state with session := Function.update state.session client dispatched.2.2 }.go client
        dispatched.2.1 (.ofDispatch ⟨command, index⟩ dispatched.1)) := by
  intro dispatched
  have hrecorded := (refl state client ⟨command, index⟩).next (.record command hstage hrecord)
  -- What is left of a step is the last stage and the sessions; a session may be put back as it was.
  have hend : ∀ (session : Nat → Session) (engine engine' : Engine) (stage stage' : Stage),
      { state.go client engine stage with session }.go client engine' stage' =
        { state with session }.go client engine' stage' := by
    intro session engine engine' stage stage'
    simp only [go, Function.update_idem]
  have hself : ∀ (engine : Engine) (stage : Stage),
      { state with
        session := Function.update state.session client (state.session client) }.go client
        engine stage = state.go client engine stage := by
    intro engine stage
    rw [Function.update_eq_self]
  by_cases hasks : ∃ wait ms, recorded.route (state.session client) (some index) command =
      .asks wait ms
  · -- A request to wait goes through all its stages up to the wait.
    rcases hasks with ⟨wait, ms, hroute⟩
    have hdispatched : dispatched =
        (.waits ⟨.acks wait, Engine.deadlineAfter now ms⟩ (some index),
          (recorded.updateMaster (·.install wait)).propagate Master.ackRequest,
          state.session client) := by
      simp only [dispatched, Engine.dispatch, hrecord, Engine.handle_of_asks hroute]
    have haims := hrecorded.next (.aim (go_stage ..) hroute)
    have hasks := (haims.next (.install (go_stage ..))).next (.ask (go_stage ..))
    have hall := (hasks.trans (deliver_all wait _ _ (go_stage ..))).next (.park (go_stage ..))
    simp only [go_go] at hall
    rw [hdispatched, hself, Engine.propagate_eq]
    exact hall
  have hasks : ∀ wait ms, recorded.route (state.session client) (some index) command ≠
      .asks wait ms := fun wait ms hroute => hasks ⟨wait, ms, hroute⟩
  by_cases hheeds : recorded.Heeds (state.session client) command
  · -- An acknowledgement is heard, and counts if somebody has the place.
    rcases hheeds with ⟨id, master, hspeaks, hrole, hadmits⟩
    have hdispatched : dispatched = (.answered .silent,
        (recorded.updateMaster (·.countAck)).conclude (some index) .silent,
          state.session client) := by
      simp only [dispatched, Engine.dispatch, hrecord, Engine.handle_of_acknowledges now hspeaks,
        Engine.updateMaster, hrole, Master.recordAck_eq, hadmits, if_true]
    have hheard := hrecorded.next (.hear (go_stage ..) hspeaks hrole hadmits)
    rw [hdispatched, hself]
    cases hwaiter : master.waiter with
    | none =>
        have hcount : recorded.updateMaster (·.countAck) = recorded := by
          rcases recorded with ⟨config, keyspace, readers, file, role, links⟩
          obtain rfl : role = .master master := hrole
          simp only [Engine.updateMaster, Master.countAck, hwaiter]
        have hhandled := hheard.next (.ignore (go_stage ..) hrole hwaiter)
        simp only [go_go] at hhandled
        rw [hcount]
        exact hhandled.conclude
    | some waiter =>
        have hhandled := hheard.next (.acknowledge (go_stage ..) hrole hwaiter)
        simp only [go_go] at hhandled
        exact hhandled.conclude
  rcases hhandle : recorded.handle (state.session client) now (some index) command with
    ⟨response | ⟨pending, place⟩, engine, session⟩
  · have hdispatched : dispatched =
        (.answered response, engine.conclude (some index) response, session) := by
      simp only [dispatched, Engine.dispatch, hrecord, hhandle]
    have hhandled := hrecorded.next (.handle now (go_stage ..) hasks hheeds hhandle)
    rw [hend] at hhandled
    rw [hdispatched]
    exact hhandled.conclude
  · have hdispatched : dispatched = (.waits pending place, engine, session) := by
      simp only [dispatched, Engine.dispatch, hrecord, hhandle]
    rcases pending with ⟨waiting, deadline⟩
    rcases (Engine.handle_waits now hasks hhandle).1 with ⟨reader, cursors, count, rfl⟩
    have hblocked := hrecorded.next (.block now (go_stage ..) hasks hheeds hhandle)
    rw [hend] at hblocked
    rw [hdispatched]
    exact hblocked

/-- A client that has looked at the count leaves and is answered. -/
theorem answer {state : Quorum} {engine : Engine} {wait : AckWait} {acks : Nat}
    (h : Leads before client errand none (state.go client engine (.counted errand wait acks))) :
    Leads before client errand (some (.reply (Engine.countReply acks)))
      (state.go client
        ((engine.updateMaster (·.leave wait)).conclude (some errand.index)
          (.reply (Engine.countReply acks))) .idle) := by
  have hleft := h.next (.leave (go_stage ..))
  simp only [go_go] at hleft
  exact hleft.conclude

/-- The steps of a command that looks for a wake-up, with nothing in between, resume it. -/
theorem resume (state : Quorum) (client : Nat) (errand : Errand) (now : UInt64) (pending : Pending)
    {master : Master} (hstage : state.stage client = .ofWaiting errand pending.waiting)
    (hrole : state.engine.role = .master master) :
    let resumed := state.engine.resume now pending (some errand.index)
    Leads state client errand resumed.1
      (state.go client resumed.2
        (match resumed.1 with
        | none => .ofWaiting errand pending.waiting
        | some _ => .idle)) := by
  rcases pending with ⟨waiting, deadline⟩
  have hfirst := refl state client errand
  cases waiting with
  | entries reader cursors count =>
      rcases hpoll : state.engine.poll now (.entries reader cursors count) with ⟨_ | result, after⟩
      · simp only [Engine.resume, hpoll]
        exact hfirst.next (.look now hstage hpoll)
      · simp only [Engine.resume, hpoll]
        exact (hfirst.next (.find now hstage (Or.inl hpoll))).conclude
  | acks wait =>
      have hpoll := master.poll_eq wait
      simp only [Engine.resume, Engine.poll, hrole]
      cases hsignals : master.signals? wait with
      | none =>
          -- It has lost the place, and ends with what it has.
          simp only [hsignals] at hpoll
          simp only [hpoll]
          have hwoken := hfirst.next (.lose hstage hrole hsignals)
          have hcounted := hwoken.next (.count (go_stage ..) hrole (Or.inr rfl))
          rw [go_go] at hcounted
          exact hcounted.answer
      | some signals =>
          cases signals with
          | zero =>
              simp only [hsignals] at hpoll
              simp only [hpoll]
              rw [go_self state client _ hstage]
              exact hfirst
          | succ signals =>
              have hwoken := hfirst.next (.wake hstage hrole hsignals)
              have htaken : (state.engine.updateMaster (·.takeSignal)).role =
                  .master master.takeSignal := by
                simp only [Engine.updateMaster, hrole]
              simp only [hsignals] at hpoll
              by_cases henough : wait.wanted ≤ master.history.ackCount wait.target
              · rw [if_pos henough] at hpoll
                simp only [hpoll]
                have hcounted := hwoken.next (.count (go_stage ..) htaken (Or.inl henough))
                rw [go_go] at hcounted
                have hleave : (state.engine.updateMaster (·.takeSignal)).updateMaster
                    (·.leave wait) = state.engine.updateMaster (·.leave wait) := by
                  simp only [Engine.updateMaster, hrole, master.leave_takeSignal hsignals]
                rw [← hleave]
                exact hcounted.answer
              · rw [if_neg henough] at hpoll
                simp only [hpoll]
                have hwaits := hwoken.next (.goOn (go_stage ..) htaken (Nat.not_le.mp henough))
                simp only [go_go, Engine.updateMaster, hrole] at hwaits
                exact hwaits

/-- The steps of a command whose time is over, with nothing in between, give it up. -/
theorem giveUp (state : Quorum) (client : Nat) (errand : Errand) (now : UInt64) (pending : Pending)
    {master : Master} (hstage : state.stage client = .ofWaiting errand pending.waiting)
    (htimed : ∀ wait, pending.waiting = .acks wait → errand.command.IsTimed)
    (hrole : state.engine.role = .master master) :
    let given := state.engine.giveUp now pending (some errand.index)
    Leads state client errand (some given.1) (state.go client given.2 .idle) := by
  rcases pending with ⟨waiting, deadline⟩
  have hfirst := refl state client errand
  cases waiting with
  | entries reader cursors count =>
      exact (hfirst.next (.find now hstage (Or.inr rfl))).conclude
  | acks wait =>
      simp only [Engine.giveUp, Engine.expire, hrole]
      exact (hfirst.next (.ring (htimed wait rfl) hstage hrole)).answer

end Leads

end Quorum

end KeyValue
