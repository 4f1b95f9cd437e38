import KeyValue.Proofs.Engine.Queueing
import KeyValue.Proofs.Replication.Propagation

/-!
# Transactions of clients that are served at the same time

What happens to a transaction is told by events: a command is handled, the queue starts to be run, one
command of it is run, and all were run (`Tells`). The transaction that a client has at any time can be
accounted for by these events alone (`account`), and by those of the client only: a command that is
answered as queued is in the queue, until the queue is run or dropped.

A thread that runs a queue has begun with all of what was queued, and has run the commands before the
rest, each once and in order (`Executes`). What other threads do in between does not matter. This
invariant holds in all runs (`Telling.transacts`), and the rest is read off it.

## Main definitions

* `Threads.Event`, `Threads.Tells`: What happens to transactions in a step.
* `Threads.Telling`: Any number of steps.
* `Threads.account`: The transaction of a client, from what happened.
* `Threads.Executes`, `Threads.Transacts`: The invariant.
* `Threads.Spares`: What a step leaves as it was.
* `Threads.RunsOnce`: What is true of a client's transaction in all runs.

## Theorems

* `Step.tells`, `Run.tells`: Every step tells something, and every run.
* `Tells.transacts`, `Telling.transacts`: Each step keeps the invariant, and each run.
* `Tells.spares`: What each step leaves as it was.
* `Tells.eq_queued`, `Tells.eq_of_moves`: What a client does next.
* `Telling.executes`: A queue that is to be run can be run to its end.
* `Telling.runs_queue_once`: What is queued is run once, in order.
-/

namespace KeyValue

namespace Threads

/-- What happens to transactions in a step. -/
inductive Event where
  | quiet
  /-- A command is handled, other than by running a write or a queue. -/
  | handled (client : Nat) (command : Command) (dispatch : Dispatch)
  /-- The transaction of the client is closed, and its queue is to be run. -/
  | began (client : Nat) (queue : List Command)
  /-- The next command of the queue is run. -/
  | ran (client : Nat) (command : Command) (reply : Reply)
  /-- All commands of the queue were run; these are the replies that the client is answered. -/
  | finished (client : Nat) (replies : List Reply)

namespace Event

/-- A client's command is handled, or its queue starts or ends. -/
def IsTurn (client : Nat) : Event → Prop
  | handled other _ _ => other = client
  | began other _ => other = client
  | finished other _ => other = client
  | _ => False

/-- The command of its queue that a client runs, with the reply. -/
def ranBy (client : Nat) : Event → Option (Command × Reply)
  | ran other command reply => if other = client then some (command, reply) else none
  | _ => none

/-- The transaction of a client after an event. -/
def account (client : Nat) (transaction : Transaction) : Event → Transaction
  | handled other command dispatch =>
    if other = client then transaction.told command dispatch else transaction
  | began other _ => if other = client then .closed else transaction
  | _ => transaction

end Event

/-- The transaction of a client, from what happened. -/
def account (client : Nat) (events : List Event) : Transaction :=
  events.foldl (Event.account client) .closed

/-- The commands of its queues that a client ran, with their replies. -/
def ranIn (client : Nat) (events : List Event) : List (Command × Reply) :=
  events.filterMap (·.ranBy client)

/-- A step, with what happens to transactions. -/
inductive Tells : Threads → Event → Threads → Prop
  /-- No transaction changes, no queue is run, and no command goes on that is neither a write nor waits
      for replicas. -/
  | quiet {before after : Threads} {mark : Mark} (hstep : Step before mark after)
      (hsame : ∀ client, (after.session client).transaction = (before.session client).transaction)
      (hruns : ∀ client rest replies index, after.task client = .runs rest replies index ↔
        before.task client = .runs rest replies index)
      (hstays : ∀ client command index, before.task client = .recorded command index →
        before.engine.route (before.session client) index command = .quick ∨
          (∃ queue, before.engine.route (before.session client) index command = .runs queue) →
            after.task client = .recorded command index) :
      Tells before .quiet after
  | handled {threads : Threads} {client : Nat} {command : Command} {index : Option Nat}
      {dispatch : Dispatch} {engine : Engine} {session : Session} (now : UInt64)
      (htask : threads.task client = .recorded command index)
      (hroute : threads.engine.route (threads.session client) index command = .quick)
      (hhandle : threads.engine.handle (threads.session client) now index command =
        (dispatch, engine, session)) :
      Tells threads (.handled client command dispatch)
        ({ threads with session := Function.update threads.session client session }.go client
          engine (.ofDispatch index dispatch))
  | began {threads : Threads} {client : Nat} {command : Command} {index : Option Nat}
      {queue : List Command} (htask : threads.task client = .recorded command index)
      (hroute : threads.engine.route (threads.session client) index command = .runs queue) :
      Tells threads (.began client queue)
        ({ threads with
            session := Function.update threads.session client
              { threads.session client with transaction := .closed } }.go client threads.engine
          (.runs queue [] index))
  | ran {threads : Threads} {client : Nat} {command : Command} {rest : List Command}
      {replies : List Reply} {index : Option Nat} (now : UInt64)
      (htask : threads.task client = .runs (command :: rest) replies index)
      (hlock : command.name.kind = .write → threads.lock = .free) :
      Tells threads (.ran client command (threads.engine.runCommand now command).1)
        (threads.go client (threads.engine.runCommand now command).2
          (.runs rest (replies ++ [(threads.engine.runCommand now command).1]) index))
  | finished {threads : Threads} {client : Nat} {replies : List Reply} {index : Option Nat}
      (htask : threads.task client = .runs [] replies index) :
      Tells threads (.finished client replies)
        (threads.go client threads.engine (.handled index (.reply (.array replies))))

/-- Any number of steps, with what happens to transactions. -/
inductive Telling (first : Threads) : List Event → Threads → Prop
  | done : Telling first [] first
  | step {middle after : Threads} {events : List Event} {event : Event}
      (h : Telling first events middle) (h' : Tells middle event after) :
      Telling first (events ++ [event]) after

section Steps

variable {before after first middle last : Threads} {mark : Mark} {event : Event}
  {events later : List Event} {client : Nat}

/-- A step with what happens to transactions is a step. -/
theorem Tells.step (h : Tells before event after) : ∃ mark, Step before mark after := by
  cases h with
  | quiet hstep => exact ⟨_, hstep⟩
  | handled now htask hroute hhandle => exact ⟨_, .handle now htask hroute hhandle⟩
  | began htask hroute => exact ⟨_, .start htask hroute⟩
  | ran now htask hlock => exact ⟨_, .runNext now htask hlock⟩
  | finished htask => exact ⟨_, .finish htask⟩

/-- The task has nothing to do with transactions. -/
def Task.IsPlain (threads : Threads) (client : Nat) : Task → Prop
  | .runs _ _ _ => False
  | .recorded command index =>
    threads.engine.route (threads.session client) index command ≠ .quick ∧
      ∀ queue, threads.engine.route (threads.session client) index command ≠ .runs queue
  | _ => True

/-- A thread that has nothing to do with transactions goes on. -/
theorem Tells.quiet_go {task : Task} (hstep : Step before mark after)
    (hafter : after.task = Function.update before.task client task)
    (hsame : ∀ client, (after.session client).transaction = (before.session client).transaction)
    (hold : Task.IsPlain before client (before.task client))
    (hnew : ∀ rest replies index, task ≠ .runs rest replies index) :
    Tells before .quiet after := by
  refine .quiet hstep hsame (fun other rest replies index => ?_)
    fun other command index htask hroute => ?_
  · by_cases hother : other = client
    · subst hother
      rw [hafter, Function.update_self]
      refine ⟨fun hruns => absurd hruns (hnew rest replies index), fun hruns => ?_⟩
      rw [hruns] at hold
      exact hold.elim
    · rw [hafter, Function.update_of_ne hother]
  · by_cases hother : other = client
    · subst hother
      rw [htask] at hold
      rcases hroute with hquick | ⟨queue, hruns⟩
      · exact absurd hquick hold.1
      · exact absurd hruns (hold.2 queue)
    · rwa [hafter, Function.update_of_ne hother]

/-- Nobody goes on. -/
theorem Tells.quiet_still (hstep : Step before mark after) (htask : after.task = before.task)
    (hsame : ∀ client, (after.session client).transaction = (before.session client).transaction) :
    Tells before .quiet after := by
  refine .quiet hstep hsame (fun _ _ _ _ => by rw [htask]) fun _ _ _ hrecorded _ => ?_
  rwa [htask]

/-- A command that is only recorded does nothing to transactions yet. -/
theorem Tells.record (command : Command) (htask : before.task client = .idle) :
    Tells before .quiet (before.go client (before.engine.record command).2
      (.recorded command (before.engine.record command).1)) :=
  .quiet_go (.record command htask) rfl (fun _ => rfl) (by simp [htask, Task.IsPlain]) (by simp)

/-- A command that is concluded does nothing to them any more. -/
theorem Tells.conclude {index : Option Nat} {response : Response}
    (htask : before.task client = .handled index response) :
    Tells before .quiet (before.go client (before.engine.conclude index response) .idle) :=
  .quiet_go (.conclude htask) rfl (fun _ => rfl) (by simp [htask, Task.IsPlain]) (by simp)

/-- A write that is run outside of a transaction does nothing to one. -/
theorem Tells.run {command : Command} {index : Option Nat} {request : Request}
    {result : Except Error Reply} {engine : Engine} (now : UInt64)
    (htask : before.task client = .recorded command index)
    (hroute : before.engine.route (before.session client) index command = .writes request)
    (hlock : before.lock = .free) (hrun : before.engine.run now request = (result, engine)) :
    Tells before .quiet
      ({ before with lock := .ran ⟨client, command, index, result⟩ }.go client engine .writes) :=
  .quiet_go (.run now htask hroute hlock hrun) rfl (fun _ => rfl)
    (by simp [htask, Task.IsPlain, hroute]) (by simp)

/-- Every step tells something. The thread that holds the lock for writes does nothing else. -/
theorem Step.tells (hbusy : before.Busy) (h : Step before mark after) :
    ∃ event, Tells before event after := by
  have hsame : ∀ client, (before.session client).transaction =
      (before.session client).transaction := fun _ => rfl
  cases h with
  | handle now htask hroute hhandle => exact ⟨_, .handled now htask hroute hhandle⟩
  | start htask hroute => exact ⟨_, .began htask hroute⟩
  | runNext now htask hlock => exact ⟨_, .ran now htask hlock⟩
  | finish htask => exact ⟨_, .finished htask⟩
  | record command htask => exact ⟨_, .record command htask⟩
  | run now htask hroute hlock hrun => exact ⟨_, .run now htask hroute hlock hrun⟩
  | fail hlock hresult =>
      have hwrites := hbusy _ (Or.inl hlock)
      exact ⟨_, .quiet_go (.fail hlock hresult) rfl hsame (by simp [hwrites, Task.IsPlain])
        (by simp)⟩
  | release hlock =>
      have hwrites := hbusy _ (Or.inr ⟨_, hlock⟩)
      exact ⟨_, .quiet_go (.release hlock) rfl hsame (by simp [hwrites, Task.IsPlain]) (by simp)⟩
  | reply htask =>
      exact ⟨_, .quiet_go (.reply htask) rfl hsame (by simp [htask, Task.IsPlain]) (by simp)⟩
  | conclude htask => exact ⟨_, .conclude htask⟩
  | install now htask hroute =>
      exact ⟨_, .quiet_go (.install now htask hroute) rfl hsame
        (by simp [htask, Task.IsPlain, hroute]) (by simp)⟩
  | ask htask =>
      exact ⟨_, .quiet_go (.ask htask) rfl hsame (by simp [htask, Task.IsPlain]) (by simp)⟩
  | deliverAsk htask =>
      exact ⟨_, .quiet_go (.deliverAsk htask) rfl hsame (by simp [htask, Task.IsPlain]) (by simp)⟩
  | asked htask =>
      exact ⟨_, .quiet_go (.asked htask) rfl hsame (by simp [htask, Task.IsPlain]) (by simp)⟩
  | poll now htask =>
      refine ⟨_, .quiet_go (.poll now htask) rfl hsame (by simp [htask, Task.IsPlain]) ?_⟩
      intro rest replies index
      split <;> simp
  | expire now htask =>
      exact ⟨_, .quiet_go (.expire now htask) rfl hsame (by simp [htask, Task.IsPlain]) (by simp)⟩
  | forward hlock hresult => exact ⟨_, .quiet_still (.forward hlock hresult) rfl hsame⟩
  | deliver hlock => exact ⟨_, .quiet_still (.deliver hlock) rfl hsame⟩
  | connect => exact ⟨_, .quiet_still .connect rfl hsame⟩
  | close link => exact ⟨_, .quiet_still (.close link) rfl hsame⟩
  | remove id hunsending => exact ⟨_, .quiet_still (.remove id hunsending) rfl hsame⟩
  | @register client link master hrole hlink hunsending =>
      refine ⟨_, .quiet_still (.register hrole hlink hunsending) rfl fun other => ?_⟩
      by_cases hother : other = client
      · subst hother
        simp only [Function.update_self]
      · simp only [Function.update_of_ne hother]

/-- Two runs in a row are one, with all that happened. -/
theorem Telling.append (h : Telling first events middle) (h' : Telling middle later last) :
    Telling first (events ++ later) last := by
  induction h' with
  | done =>
      rw [List.append_nil]
      exact h
  | step _ hstep ih =>
      rw [← List.append_assoc]
      exact .step ih hstep

/-- What happened up to one of the events, the step that it is told of, and what happened after. -/
theorem Telling.split (h : Telling first (events ++ event :: later) last) :
    ∃ middle next, Telling first events middle ∧ Tells middle event next ∧
      Telling next later last := by
  generalize hall : events ++ event :: later = all at h
  induction h generalizing later with
  | done => simp at hall
  | @step middle final events' event' hrun hstep ih =>
      rcases List.eq_nil_or_concat later with rfl | ⟨initial, final', rfl⟩
      · rcases List.append_inj' hall rfl with ⟨rfl, hevent⟩
        rw [List.singleton_inj] at hevent
        exact ⟨_, _, hrun, hevent ▸ hstep, .done⟩
      · rw [List.concat_eq_append, ← List.cons_append, ← List.append_assoc] at hall
        rcases List.append_inj' hall rfl with ⟨hinitial, hevent⟩
        rw [List.singleton_inj] at hevent
        rcases ih hinitial with ⟨middle, next, hbefore, hmiddle, hafter⟩
        refine ⟨middle, next, hbefore, hmiddle, ?_⟩
        rw [List.concat_eq_append, hevent]
        exact hafter.step hstep

/-- Whoever has the lock is busy all the time. -/
theorem Telling.busy (h : Telling first events last) (hfirst : first.Busy) : last.Busy := by
  induction h with
  | done => exact hfirst
  | step _ hstep ih =>
      rcases hstep.step with ⟨mark, hstep⟩
      exact hstep.busy ih

/-- Every run can be told. -/
theorem Run.tells {log : List Mark} (h : Run before log after) (hbusy : before.Busy) :
    ∃ events, Telling before events after := by
  induction h with
  | done threads => exact ⟨[], .done⟩
  | step hstep _ ih =>
      rcases ih (hstep.busy hbusy) with ⟨events, htelling⟩
      rcases hstep.tells hbusy with ⟨event, hevent⟩
      exact ⟨_, (Telling.step .done hevent).append htelling⟩

/-- At the start nobody has the lock. -/
theorem start_busy (config : Config) (file : Snapshot.File) (replicationId : String) :
    (start config file replicationId).Busy := by
  rintro write (hran | ⟨left, hforwards⟩)
  · simp [start] at hran
  · simp [start] at hforwards

end Steps

section Accounts

variable {client : Nat} {events later before during : List Event} {event : Event}
  {transaction : Transaction} {queue : List Command} {command : Command}

/-- An account is kept event by event. -/
theorem account_concat (client : Nat) (events : List Event) (event : Event) :
    account client (events ++ [event]) = event.account client (account client events) := by
  simp only [account, List.foldl_append, List.foldl_cons, List.foldl_nil]

/-- Events of other clients leave the transaction as it is. -/
theorem Event.account_of_not_turn (transaction : Transaction) (h : ¬event.IsTurn client) :
    event.account client transaction = transaction := by
  cases event <;> simp only [IsTurn] at h <;> simp [Event.account, h]

/-- A client keeps its transaction while it is not its turn. -/
theorem account_of_not_turn (h : ∀ event ∈ later, ¬event.IsTurn client) :
    account client (events ++ later) = account client events := by
  induction later generalizing events with
  | nil => rw [List.append_nil]
  | cons event rest ih =>
      rw [List.append_cons, ih fun other hother => h other (List.mem_cons_of_mem _ hother),
        account_concat, event.account_of_not_turn _ (h event List.mem_cons_self)]

/-- What is in the queue was there before, or was answered as queued since. -/
theorem mem_queue_since (later : List Event)
    (h : command ∈ (later.foldl (Event.account client) transaction).queue) :
    command ∈ transaction.queue ∨ .handled client command .queued ∈ later := by
  induction later generalizing transaction with
  | nil => exact Or.inl h
  | cons event rest ih =>
      rcases ih h with hbefore | hsince
      · cases event with
        | handled other told dispatch =>
            simp only [Event.account] at hbefore
            split at hbefore
            · rename_i hother
              subst hother
              rcases Transaction.mem_told hbefore with hold | ⟨rfl, rfl⟩
              · exact Or.inl hold
              · exact Or.inr List.mem_cons_self
            · exact Or.inl hbefore
        | began other queue =>
            simp only [Event.account] at hbefore
            split at hbefore
            · simp [Transaction.queue] at hbefore
            · exact Or.inl hbefore
        | _ => exact Or.inl hbefore
      · exact Or.inr (List.mem_cons_of_mem _ hsince)

/-- What a client ran is collected event by event. -/
theorem ranIn_concat (client : Nat) (events : List Event) (event : Event) :
    ranIn client (events ++ [event]) = ranIn client events ++ (event.ranBy client).toList := by
  simp only [ranIn, List.filterMap_append]
  cases h : event.ranBy client <;> simp [h]

end Accounts

/-- The client has begun to run a queue that was all that it had queued, and has run the commands
    before the rest, with these replies. -/
def Executes (client : Nat) (events : List Event) (rest : List Command) (replies : List Reply) :
    Prop :=
  ∃ before ran during, events = before ++ .began client (ran ++ rest) :: during ∧
    account client before = .opened (ran ++ rest) ∧ (∀ event ∈ during, ¬event.IsTurn client) ∧
    ran.length = replies.length ∧ ranIn client during = ran.zip replies

/-- The transaction of the client, and where its thread is in a queue, agree with what happened. -/
structure Transacts (client : Nat) (events : List Event) (threads : Threads) : Prop where
  transaction : (threads.session client).transaction = account client events
  executes : ∀ rest replies index, threads.task client = .runs rest replies index →
    Executes client events rest replies

section Invariant

variable {client : Nat} {events later : List Event} {event : Event} {first before after last : Threads}
  {rest : List Command} {replies : List Reply}

/-- What others do leaves a client where it is in its queue. -/
theorem Executes.append (h : Executes client events rest replies) (hturn : ¬event.IsTurn client)
    (hran : event.ranBy client = none) : Executes client (events ++ [event]) rest replies := by
  rcases h with ⟨before, ran, during, rfl, haccount, hturns, hlength, hruns⟩
  refine ⟨before, ran, during ++ [event], by simp, haccount, ?_, hlength, ?_⟩
  · intro other hother
    rcases List.mem_append.mp hother with hold | hnew
    · exact hturns other hold
    · rwa [List.mem_singleton.mp hnew]
  · rw [ranIn_concat, hran, hruns, Option.toList_none, List.append_nil]

/-- A command of the queue that is run moves from the rest to what was run, with its reply. -/
theorem Executes.ran {command : Command} {reply : Reply}
    (h : Executes client events (command :: rest) replies) :
    Executes client (events ++ [.ran client command reply]) rest (replies ++ [reply]) := by
  rcases h with ⟨before, ran, during, rfl, haccount, hturns, hlength, hruns⟩
  refine ⟨before, ran ++ [command], during ++ [.ran client command reply], by simp,
    by simpa using haccount, ?_, by simpa using hlength, ?_⟩
  · intro other hother
    rcases List.mem_append.mp hother with hold | hnew
    · exact hturns other hold
    · rw [List.mem_singleton.mp hnew]
      exact id
  · rw [ranIn_concat, hruns, List.zip_append hlength]
    simp [Event.ranBy]

/-- Each step agrees with what it tells. -/
theorem Tells.transacts (h : Transacts client events before) (hstep : Tells before event after) :
    Transacts client (events ++ [event]) after := by
  -- A client that does not move stays where it is in its queue, whatever the others do.
  have hothers : ¬event.IsTurn client → event.ranBy client = none →
      (after.session client).transaction = (before.session client).transaction →
      (∀ rest replies index, after.task client = .runs rest replies index →
        before.task client = .runs rest replies index) →
      Transacts client (events ++ [event]) after := by
    intro hturn hran hsame hruns
    refine ⟨?_, fun rest replies index htask => ?_⟩
    · rw [hsame, h.transaction, account_concat, event.account_of_not_turn _ hturn]
    · exact (h.executes rest replies index (hruns rest replies index htask)).append hturn hran
  cases hstep with
  | quiet hstep hsame hruns hstays =>
      exact hothers id rfl (hsame client) fun rest replies index => (hruns _ _ _ _).mp
  | @handled other command index dispatch engine session now htask hroute hhandle =>
      by_cases hother : other = client
      · subst hother
        have htold := Engine.handle_transaction (fun queue => by simp [hroute]) hhandle
        refine ⟨?_, fun rest replies place hruns => ?_⟩
        · rw [account_concat, ← h.transaction]
          simpa [Threads.go, Event.account] using htold
        · rw [go_task] at hruns
          cases dispatch <;> simp [Task.ofDispatch] at hruns
      · have hne : client ≠ other := Ne.symm hother
        refine hothers hother rfl ?_ fun rest replies place hruns => ?_
        · simp only [Threads.go, Function.update_of_ne hne]
        · simpa only [Threads.go, Function.update_of_ne hne] using hruns
  | @began other command index queue htask hroute =>
      by_cases hother : other = client
      · subst hother
        refine ⟨?_, fun rest replies place hruns => ?_⟩
        · rw [account_concat]
          simp [Threads.go, Event.account]
        · rw [go_task] at hruns
          rcases Task.runs.inj hruns with ⟨rfl, rfl, -⟩
          have hopened := (Engine.route_runs hroute).2
          exact ⟨events, [], [], rfl, h.transaction.symm.trans hopened, by simp, rfl, rfl⟩
      · have hne : client ≠ other := Ne.symm hother
        refine hothers hother rfl ?_ fun rest replies place hruns => ?_
        · simp only [Threads.go, Function.update_of_ne hne]
        · simpa only [Threads.go, Function.update_of_ne hne] using hruns
  | @ran other command rest replies index now htask hlock =>
      by_cases hother : other = client
      · subst hother
        refine ⟨?_, fun rest' replies' place hruns => ?_⟩
        · rw [account_concat]
          exact h.transaction
        · rw [go_task] at hruns
          rcases Task.runs.inj hruns with ⟨rfl, rfl, -⟩
          exact (h.executes _ _ _ htask).ran
      · have hne : client ≠ other := Ne.symm hother
        refine hothers id (if_neg hother) rfl fun rest replies place hruns => ?_
        simpa only [Threads.go, Function.update_of_ne hne] using hruns
  | @finished other replies index htask =>
      by_cases hother : other = client
      · subst hother
        refine ⟨?_, fun rest' replies' place hruns => ?_⟩
        · rw [account_concat]
          exact h.transaction
        · rw [go_task] at hruns
          simp at hruns
      · have hne : client ≠ other := Ne.symm hother
        refine hothers hother rfl rfl fun rest replies place hruns => ?_
        simpa only [Threads.go, Function.update_of_ne hne] using hruns

/-- Whatever happens, a client's transaction and queue are what the events tell. -/
theorem Telling.transacts (h : Telling first events last) (hfirst : Transacts client [] first) :
    Transacts client events last := by
  induction h with
  | done => exact hfirst
  | step _ hstep ih => exact hstep.transacts ih

/-- At the start no transaction is open and no queue is run. -/
theorem start_transacts (config : Config) (file : Snapshot.File) (replicationId : String)
    (client : Nat) : Transacts client [] (start config file replicationId) :=
  ⟨rfl, by simp [start]⟩

end Invariant

/-- What a step leaves as it was, as far as the transaction of a client is concerned. -/
structure Spares (client : Nat) (before : Threads) (event : Event) (after : Threads) : Prop where
  /-- A command that is answered as queued changes nothing but the queue. -/
  queued : ∀ command, event = .handled client command .queued → after.engine = before.engine ∧
    ∃ queue, (before.session client).transaction = .opened queue ∧
      (after.session client).transaction = .opened (queue ++ [command])
  /-- Opening an open transaction changes nothing. -/
  nested : ∀ command dispatch queue, event = .handled client command dispatch →
    Request.ofCommand command = .ok .beginTransaction →
      (before.session client).transaction = .opened queue →
        dispatch = .answered (.reply .ok) ∧ after.engine = before.engine ∧
          after.session = before.session
  /-- Nor does a command with a wrong number of arguments. -/
  refused : ∀ command dispatch e, event = .handled client command dispatch →
    Request.ofCommand command = .error e →
      dispatch = .answered (.refusal e) ∧ after.engine = before.engine ∧
        after.session = before.session
  /-- Nor does running or dropping the queue of a transaction that is not open. -/
  unopened : ∀ command dispatch request, event = .handled client command dispatch →
    Request.ofCommand command = .ok request →
      request = .runTransaction ∨ request = .dropTransaction →
        (before.session client).transaction = .closed →
          (∃ message, dispatch = .answered (.refusal (.transaction message))) ∧
            after.engine = before.engine ∧ after.session = before.session
  /-- Other clients leave the transaction alone. -/
  others : ¬event.IsTurn client →
    (after.session client).transaction = (before.session client).transaction
  /-- A queue that was run is answered with its replies. -/
  answers : ∀ replies, event = .finished client replies →
    ∃ index, after.task client = .handled index (.reply (.array replies))

section Turns

variable {client : Nat} {events : List Event} {event : Event} {first before after last : Threads}
  {command : Command} {index : Option Nat} {queue rest : List Command} {replies : List Reply}

/-- Each step leaves what it should of a client's transaction. -/
theorem Tells.spares (h : Tells before event after) (client : Nat) :
    Spares client before event after := by
  cases h with
  | quiet hstep hsame hruns hstays =>
      exact ⟨by simp, by simp, by simp, by simp, fun _ => hsame client, by simp⟩
  | @began other command index queue htask hroute =>
      refine ⟨by simp, by simp, by simp, by simp, fun hturn => ?_, by simp⟩
      simp only [Threads.go, Function.update_of_ne (Ne.symm hturn)]
  | ran now htask hlock => exact ⟨by simp, by simp, by simp, by simp, fun _ => rfl, by simp⟩
  | @finished other replies index htask =>
      refine ⟨by simp, by simp, by simp, by simp, fun _ => rfl, fun replies' hevent => ?_⟩
      rcases Event.finished.inj hevent with ⟨rfl, rfl⟩
      exact ⟨index, go_task ..⟩
  | @handled other command index dispatch engine session now htask hroute hhandle =>
      -- Where the engine and the session stay, the session is put back as it was.
      have hback : ∀ {dispatch' : Dispatch},
          before.engine.handle (before.session other) now index command =
            (dispatch', before.engine, before.session other) →
          dispatch = dispatch' ∧ engine = before.engine ∧
            Function.update before.session other session = before.session := by
        intro dispatch' hsame
        simp only [hhandle, Prod.mk.injEq] at hsame
        rcases hsame with ⟨rfl, rfl, rfl⟩
        exact ⟨rfl, rfl, Function.update_eq_self ..⟩
      refine ⟨?_, ?_, ?_, ?_, ?_, by simp⟩
      · intro command' hevent
        rcases Event.handled.inj hevent with ⟨rfl, rfl, rfl⟩
        rcases Engine.handle_queued hhandle with ⟨queue, hopened, rfl, rfl⟩
        refine ⟨rfl, queue, hopened, ?_⟩
        simp only [Threads.go, Function.update_self]
      · intro command' dispatch' queue hevent hrequest hopened
        rcases Event.handled.inj hevent with ⟨rfl, rfl, rfl⟩
        exact hback (Engine.handle_of_nested hrequest hopened)
      · intro command' dispatch' e hevent hrequest
        rcases Event.handled.inj hevent with ⟨rfl, rfl, rfl⟩
        exact hback (Engine.handle_refused hrequest)
      · intro command' dispatch' request hevent hrequest hcloses hclosed
        rcases Event.handled.inj hevent with ⟨rfl, rfl, rfl⟩
        rcases Engine.handle_of_unopened hrequest hcloses hclosed with ⟨message, hsame⟩
        rcases hback hsame with ⟨hdispatch, hrest⟩
        exact ⟨⟨message, hdispatch⟩, hrest⟩
      · intro hturn
        simp only [Threads.go, Function.update_of_ne (Ne.symm hturn)]

/-- A client whose command is quick, or runs a queue, does nothing else next. -/
theorem Tells.eq_of_moves (h : Tells before event after)
    (htask : before.task client = .recorded command index)
    (hmoves : after.task client ≠ before.task client) :
    (before.engine.route (before.session client) index command = .quick →
      ∃ dispatch, event = .handled client command dispatch) ∧
    ∀ queue, before.engine.route (before.session client) index command = .runs queue →
      event = .began client queue := by
  -- Whoever moves is the client.
  have howns : ∀ {other : Nat} {task : Task},
      Function.update before.task other task client ≠ before.task client → client = other := by
    intro other task hne
    by_contra hother
    exact hne (Function.update_of_ne hother ..)
  cases h with
  | quiet hstep hsame hruns hstays =>
      have hstill := hstays client command index htask
      exact ⟨fun hquick => absurd ((hstill (Or.inl hquick)).trans htask.symm) hmoves,
        fun queue hqueue => absurd ((hstill (Or.inr ⟨queue, hqueue⟩)).trans htask.symm) hmoves⟩
  | handled now htask' hroute hhandle =>
      obtain rfl := howns hmoves
      rcases Task.recorded.inj (htask.symm.trans htask') with ⟨rfl, rfl⟩
      exact ⟨fun _ => ⟨_, rfl⟩, fun queue hqueue => by simp [hroute] at hqueue⟩
  | began htask' hroute =>
      obtain rfl := howns hmoves
      rcases Task.recorded.inj (htask.symm.trans htask') with ⟨rfl, rfl⟩
      refine ⟨fun hquick => by simp [hroute] at hquick, fun queue hqueue => ?_⟩
      rw [Engine.Route.runs.inj (hroute.symm.trans hqueue)]
  | ran now htask' hlock =>
      obtain rfl := howns hmoves
      simp only [htask, reduceCtorEq] at htask'
  | finished htask' =>
      obtain rfl := howns hmoves
      simp only [htask, reduceCtorEq] at htask'

/-- A write that is being forwarded is sent to the rest, and the lock is given back. -/
theorem Telling.releases_forwards {write : Write} (left : List Peer) (first : Threads)
    (hlock : first.lock = .forwards write left) (hwrites : first.task write.client = .writes) :
    ∃ events next, Telling first events next ∧ next.lock = .free ∧ next.session = first.session ∧
      ∀ client, client ≠ write.client → next.task client = first.task client := by
  induction left generalizing first with
  | nil =>
      have hstep : Tells first .quiet _ :=
        .quiet_go (.release hlock) rfl (fun _ => rfl) (by simp [hwrites, Task.IsPlain]) (by simp)
      exact ⟨_, _, .step .done hstep, rfl, rfl, fun client hne => Function.update_of_ne hne ..⟩
  | cons peer rest ih =>
      have hstep : Tells first .quiet _ := .quiet_still (.deliver hlock) rfl fun _ => rfl
      let sent : Threads :=
        { first with
          engine := first.send peer (.write write.command), lock := .forwards write rest }
      rcases ih sent rfl hwrites with ⟨events, next, htelling, hrest⟩
      exact ⟨_, next, (Telling.step .done hstep).append htelling, hrest⟩

/-- The thread that holds the lock for writes can give it back, and the others stay where they are. -/
theorem Telling.releases (hbusy : first.Busy) :
    ∃ events next, Telling first events next ∧ next.lock = .free ∧ next.session = first.session ∧
      ∀ client, first.task client ≠ .writes → next.task client = first.task client := by
  have hothers : ∀ {write : Write} {client : Nat}, first.task write.client = .writes →
      first.task client ≠ .writes → client ≠ write.client := by
    rintro write client hwrites hne rfl
    exact hne hwrites
  cases hlock : first.lock with
  | free => exact ⟨[], first, .done, hlock, rfl, fun _ _ => rfl⟩
  | ran write =>
      have hwrites := hbusy write (Or.inl hlock)
      cases hresult : write.result with
      | error e =>
          have hstep : Tells first .quiet _ :=
            .quiet_go (.fail hlock hresult) rfl (fun _ => rfl) (by simp [hwrites, Task.IsPlain])
              (by simp)
          exact ⟨_, _, .step .done hstep, rfl, rfl,
            fun client hne => Function.update_of_ne (hothers hwrites hne) ..⟩
      | ok reply =>
          have hstep : Tells first .quiet _ :=
            .quiet_still (.forward hlock hresult) rfl fun _ => rfl
          rcases releases_forwards first.engine.peers
            { first with lock := .forwards write first.engine.peers } rfl hwrites with
            ⟨events, next, htelling, hfree, hsession, htask⟩
          exact ⟨_, next, (Telling.step .done hstep).append htelling, hfree, hsession,
            fun client hne => htask client (hothers hwrites hne)⟩
  | forwards write left =>
      have hwrites := hbusy write (Or.inr ⟨left, hlock⟩)
      rcases releases_forwards left first hlock hwrites with
        ⟨events, next, htelling, hfree, hsession, htask⟩
      exact ⟨_, next, htelling, hfree, hsession,
        fun client hne => htask client (hothers hwrites hne)⟩

/-- With the lock free, a queue is run to its end. -/
theorem Telling.finishes (rest : List Command) (replies : List Reply) (first : Threads)
    (htask : first.task client = .runs rest replies index) (hlock : first.lock = .free) :
    ∃ later more next, Telling first (later ++ [.finished client more]) next := by
  induction rest generalizing first replies with
  | nil => exact ⟨[], replies, _, .step .done (.finished htask)⟩
  | cons command rest ih =>
      have hstep : Tells first _ _ := .ran 0 htask fun _ => hlock
      rcases ih _ _ (go_task ..) hlock with ⟨later, more, next, htelling⟩
      refine ⟨.ran client command (first.engine.runCommand 0 command).1 :: later, more, next, ?_⟩
      exact (Telling.step .done hstep).append htelling

/-- A queue that is to be run can be run to its end. -/
theorem Telling.executes (hbusy : first.Busy)
    (htask : first.task client = .recorded command index)
    (hroute : first.engine.route (first.session client) index command = .runs queue) :
    ∃ later replies next,
      Telling first (.began client queue :: (later ++ [.finished client replies])) next := by
  have hstep : Tells first (.began client queue) _ := .began htask hroute
  have hbegan := Telling.step .done hstep
  have htask' := go_task
    { first with
      session := Function.update first.session client
        { first.session client with transaction := .closed } }
    client first.engine (.runs queue [] index)
  rcases releases (hbegan.busy hbusy) with ⟨events, middle, hreleases, hfree, -, hsame⟩
  have hruns := (hsame client (by rw [htask']; simp)).trans htask'
  rcases finishes queue [] middle hruns hfree with ⟨later, replies, next, hfinishes⟩
  refine ⟨events ++ later, replies, next, ?_⟩
  have hall := (hbegan.append hreleases).append hfinishes
  simpa using hall

/-- In an open transaction the next that a client does is to queue its command, if it has a right
    number of arguments and does not control transactions. -/
theorem Tells.eq_queued {request : Request} (h : Tells before event after)
    (htask : before.task client = .recorded command index)
    (hrequest : Request.ofCommand command = .ok request)
    (hcontrol : command.name.isTransactionControl = false)
    (hopened : (before.session client).transaction = .opened queue)
    (hmoves : after.task client ≠ before.task client) :
    event = .handled client command .queued := by
  have hquick : before.engine.route (before.session client) index command = .quick := by
    cases request with
    | runTransaction => simp [Request.isTransactionControl_of_run hrequest] at hcontrol
    | _ => simp only [Engine.route, hrequest, hopened]
  rcases (h.eq_of_moves htask hmoves).1 hquick with ⟨dispatch, rfl⟩
  cases h with
  | handled now htask' hroute hhandle =>
      simp only [Engine.handle_of_opened hrequest hopened hcontrol, Prod.mk.injEq] at hhandle
      rw [hhandle.1]

/-- The transaction is closed from when its queue starts to be run. -/
theorem Executes.closed (h : Executes client events rest replies) :
    account client events = .closed := by
  rcases h with ⟨before, ran, during, rfl, haccount, hturns, -⟩
  rw [List.append_cons, account_of_not_turn hturns, account_concat]
  simp [Event.account]

/-- A command that is run after the transaction was closed has been queued since. -/
theorem Executes.queued_since {early during : List Event}
    (h : Executes client (early ++ event :: during) (command :: rest) replies)
    (hturn : event.IsTurn client) (hbegan : ∀ queue, event ≠ .began client queue)
    (hclosed : account client (early ++ [event]) = .closed) :
    .handled client command .queued ∈ during := by
  rcases h with ⟨before, ran, middle, hsplit, haccount, hturns, -⟩
  rcases List.append_eq_append_iff.mp hsplit with ⟨between, rfl, hrest⟩ | ⟨between, rfl, hrest⟩
  · rcases between with _ | ⟨first, between⟩
    · exact absurd (List.cons.inj hrest).1 (hbegan _)
    · rcases List.cons.inj hrest with ⟨rfl, rfl⟩
      have hsince : command ∈ (between.foldl (Event.account client) .closed).queue := by
        rw [← hclosed, account, ← List.foldl_append, List.append_assoc, List.singleton_append,
          ← account, haccount]
        simp [Transaction.queue]
      refine List.mem_append_left _ ((mem_queue_since between hsince).resolve_left ?_)
      simp [Transaction.queue]
  · rcases between with _ | ⟨first, between⟩
    · exact absurd (List.cons.inj hrest).1.symm (hbegan _)
    · rcases List.cons.inj hrest with ⟨rfl, rfl⟩
      exact absurd hturn (hturns event (by simp))

end Turns

/-- The queue of the client's transaction is run once, as it was queued. -/
structure RunsOnce (client : Nat) (events : List Event) (last : Threads) : Prop where
  transaction : (last.session client).transaction = account client events
  /-- Each command that is run is the next of a queue that was all that was queued. -/
  ran : ∀ early command reply late, events = early ++ .ran client command reply :: late →
    ∃ rest replies, Executes client early (command :: rest) replies
  /-- The client is answered the replies of a whole queue, and its transaction is closed. -/
  finished : ∀ early replies late, events = early ++ .finished client replies :: late →
    Executes client early [] replies ∧
      account client (early ++ [.finished client replies]) = .closed
  /-- What is dropped is not run. -/
  dropped : ∀ early dropping dispatch during command reply late,
    events = early ++ .handled client dropping dispatch ::
      (during ++ .ran client command reply :: late) →
    dropping.name = .discard → dispatch.status? = some "OK" →
    .handled client command .queued ∈ during
  /-- In an open transaction a command is queued next. -/
  queues : ∀ command request index queue event after,
    last.task client = .recorded command index → Request.ofCommand command = .ok request →
    command.name.isTransactionControl = false → account client events = .opened queue →
    Tells last event after → after.task client ≠ last.task client →
    event = .handled client command .queued
  /-- A queue that is to be run is run next, and can be run to its end. -/
  executes : ∀ command index queue, last.task client = .recorded command index →
    Request.ofCommand command = .ok .runTransaction → account client events = .opened queue →
    (∀ event after, Tells last event after → after.task client ≠ last.task client →
      event = .began client queue) ∧
    ∃ later replies after,
      Telling last (.began client queue :: (later ++ [.finished client replies])) after
  spares : ∀ event after, Tells last event after → Spares client last event after
  /-- There is no other step than those that are told. -/
  told : ∀ mark after, Step last mark after → ∃ event, Tells last event after
  /-- With its record, a command that is queued changes nothing but what the role has recorded. -/
  recorded : ∀ session now command, (last.engine.dispatch session now command).1 = .queued →
    ∃ role, (last.engine.dispatch session now command).2.1 = { last.engine with role } ∧
      (last.engine.dispatch session now command).2.1.registry = last.engine.registry

/-- What is queued is run once, in the order in which it came, whatever other clients do. -/
theorem Telling.runs_queue_once {config : Config} {file : Snapshot.File} {replicationId : String}
    {events : List Event} {last : Threads}
    (h : Telling (start config file replicationId) events last) (client : Nat) :
    RunsOnce client events last := by
  have htransacts : ∀ {events last}, Telling (start config file replicationId) events last →
      Transacts client events last :=
    fun htelling => htelling.transacts (start_transacts config file replicationId client)
  have hbusy := h.busy (start_busy config file replicationId)
  have htransaction := (htransacts h).transaction
  have hran : ∀ early command reply late, events = early ++ .ran client command reply :: late →
      ∃ rest replies, Executes client early (command :: rest) replies := by
    rintro early command reply late rfl
    rcases h.split with ⟨middle, next, hearly, hstep, -⟩
    cases hstep with
    | ran now htask hlock => exact ⟨_, _, (htransacts hearly).executes _ _ _ htask⟩
  refine ⟨htransaction, hran, ?_, ?_, ?_, ?_, fun event after hstep => hstep.spares client,
    fun mark after hstep => hstep.tells hbusy,
    fun session now command => Engine.dispatch_queued⟩
  · rintro early replies late rfl
    rcases h.split with ⟨middle, next, hearly, hstep, -⟩
    cases hstep with
    | finished htask =>
        have hall := (htransacts hearly).executes _ _ _ htask
        refine ⟨hall, ?_⟩
        rw [account_concat, hall.closed]
        rfl
  · intro early dropping dispatch during command reply late hevents hdiscard hok
    rw [← List.cons_append, ← List.append_assoc] at hevents
    rcases hran _ command reply late hevents with ⟨rest, replies, hexecutes⟩
    have hturn : (Event.handled client dropping dispatch).IsTurn client := rfl
    refine hexecutes.queued_since hturn (by simp) ?_
    rw [account_concat]
    simp [Event.account, Transaction.told, hdiscard, hok]
  · intro command request index queue event after htask hrequest hcontrol hopened hstep
    exact hstep.eq_queued htask hrequest hcontrol (htransaction.trans hopened)
  · intro command index queue htask hrequest hopened
    have hroute : last.engine.route (last.session client) index command = .runs queue := by
      simp only [Engine.route, hrequest, htransaction, hopened]
    exact ⟨fun event after hstep hmoves => (hstep.eq_of_moves htask hmoves).2 queue hroute,
      executes hbusy htask hroute⟩

/-- A write is queued, and a command that fails after it; both are run. -/
theorem Telling.runs_queue_once_of_two :
    let set := Command.ofParts .set ["k", "v"]
    let increment := Command.ofParts .incr ["k"]
    let refusal := Reply.ofError .notInteger
    ∃ events last,
      Telling (start {} .missing "id")
        (events ++ [.began 0 [set, increment], .ran 0 set .ok, .ran 0 increment refusal,
          .finished 0 [.ok, refusal]]) last ∧
      .handled 0 set .queued ∈ events ∧ .handled 0 increment .queued ∈ events ∧
      RunsOnce 0 (events ++ [.began 0 [set, increment], .ran 0 set .ok, .ran 0 increment refusal,
        .finished 0 [.ok, refusal]]) last := by
  intro set increment refusal
  let multi := Command.ofParts .multi []
  let exec := Command.ofParts .exec []
  have hmulti := ((@Telling.done (start {} .missing "id")).step (@Tells.record _ 0 multi rfl)).step
    (@Tells.handled _ 0 multi _ _ _ _ 7 rfl rfl rfl)
  have hset := ((hmulti.step (@Tells.conclude _ 0 _ _ rfl)).step (@Tells.record _ 0 set rfl)).step
    (@Tells.handled _ 0 set _ _ _ _ 7 rfl rfl rfl)
  have hincrement := ((hset.step (@Tells.conclude _ 0 _ _ rfl)).step
    (@Tells.record _ 0 increment rfl)).step (@Tells.handled _ 0 increment _ _ _ _ 7 rfl rfl rfl)
  have hexec := ((hincrement.step (@Tells.conclude _ 0 _ _ rfl)).step
    (@Tells.record _ 0 exec rfl)).step (@Tells.began _ 0 exec _ _ rfl rfl)
  have hran := (hexec.step (@Tells.ran _ 0 set _ _ _ 7 rfl fun _ => rfl)).step
    (@Tells.ran _ 0 increment _ _ _ 7 rfl fun _ => rfl)
  have hall := hran.step (@Tells.finished _ 0 _ _ rfl)
  exact ⟨[.quiet, .handled 0 multi (.answered (.reply .ok)), .quiet, .quiet, .handled 0 set .queued,
    .quiet, .quiet, .handled 0 increment .queued, .quiet, .quiet], _, hall, by simp, by simp,
    runs_queue_once hall 0⟩

end Threads

end KeyValue
