import KeyValue.Proofs.Engine.Reachable
import KeyValue.Proofs.Keyspace.Growing
import KeyValue.Proofs.Replication.Withholding
import Mathlib.Data.List.Forall2

/-!
# The streams of a server over time

A server runs commands in three ways: a session sends them, they were queued and the transaction is
run, or the master of a replica has sent them. `Happening` is any such occasion, and everything else
that can happen to an engine that starts without keys. The log of what was executed (`Executed`)
tells each command with the reply that it came to.

Over any such run the streams stay in order, and a key that is not set keeps its entries as they
are: what the key has later is what it had, and behind it one entry for each entry that was added to
the key, in the order of the log, with the id that was answered. `Grows` says so of a part of a run;
parts are put together by `Grows.trans`, so that it is enough to know what one request does
(`run_grows`).

## Main definitions

* `Executed`: A command that was executed, with its reply.
* `Engine.Happening`, `Engine.happen`: What can happen to an engine, and what it is then.
* `Engine.chronicle`: A run, with its log.
* `Keyspace.Grows`: What a part of a run does to the streams.

## Theorems

* `run_grows`, `dispatch_grows`, `apply_grows`: What requests and commands do.
* `Reachable.chronicle`, `chronicle_grows`: What a run does.
* `streams_only_grow`: The streams of a server are in order, and only grow.
-/

namespace KeyValue

/-- A command that was executed, with its reply. -/
structure Executed where
  command : Command
  reply : Reply
  deriving Repr, Inhabited

namespace Executed

/-- A key was set. -/
def Sets (executed : Executed) (key : String) : Prop :=
  ∃ value options, Request.ofCommand executed.command = .ok (.set key value options) ∧
    executed.reply.isError = false

/-- Whether an entry was added to the stream of a key. -/
def addsTo (key : String) (executed : Executed) : Bool :=
  match Request.ofCommand executed.command with
  | .ok (.addEntry target _ _) => target == key && !executed.reply.isError
  | _ => false

/-- The entry is the one that the command asked for, with the id that was answered. -/
def Adds (key : String) (executed : Executed) (entry : StreamEntry) : Prop :=
  ∃ id fields, Request.ofCommand executed.command = .ok (.addEntry key id fields) ∧
    StreamCommand.pairs? fields = some entry.fields ∧
    executed.reply = .bulkText entry.id.text

/-- A write has succeeded. -/
def Wrote (executed : Executed) : Prop :=
  executed.reply.isError = false ∧
    ∃ request, Request.ofCommand executed.command = .ok request ∧ request.isWrite = true

variable {executed : Executed} {key : String}

theorem Sets.name (h : executed.Sets key) : executed.command.name = .set := by
  rcases h with ⟨value, options, hrequest, _⟩
  exact Request.name_eq hrequest

/-- What is refused has written nothing. -/
theorem not_wrote_refused (command : Command) (e : Error) :
    ¬ (Executed.mk command (.ofError e)).Wrote := by
  intro hwrote
  cases hwrote.1

theorem wrote_of_addsTo (h : executed.addsTo key = true) : executed.Wrote := by
  unfold addsTo at h
  split at h
  · rename_i hrequest
    rw [Bool.and_eq_true, Bool.not_eq_true'] at h
    exact ⟨h.2, _, hrequest, rfl⟩
  · cases h

end Executed

/-- The commands that were executed when a session was answered. In a transaction commands are only
    queued; those of the queue are executed together, each with its own reply. -/
def Session.executed (session : Session) (command : Command) : Dispatch → List Executed
  | .answered (.reply reply) =>
    match session.transaction, Request.ofCommand command, reply with
    | .closed, _, reply => [⟨command, reply⟩]
    | .opened queue, .ok .runTransaction, .array replies => List.zipWith Executed.mk queue replies
    | .opened _, _, _ => []
  | _ => []

namespace Keyspace

/-- What the executed commands have made of the streams: they are in order, and a key that was not
    set has its entries and behind them those that were added to it. -/
structure Grows (log : List Executed) (before after : Keyspace) : Prop where
  inOrder : after.InOrder
  entries : ∀ key, (∀ executed ∈ log, ¬ executed.Sets key) →
    ∃ added, after.entriesOf key = before.entriesOf key ++ added ∧
      List.Forall₂ (Executed.Adds key) (log.filter (Executed.addsTo key)) added

namespace Grows

variable {before middle after : Keyspace} {log log' : List Executed}

theorem of_prunes (h : before.InOrder) (hprunes : before.Prunes after) : Grows [] before after :=
  ⟨h.prunes hprunes, fun key _ =>
    ⟨[], by rw [hprunes.entriesOf_eq h.sound, List.append_nil], .nil⟩⟩

theorem trans (h : Grows log before middle) (h' : Grows log' middle after) :
    Grows (log ++ log') before after := by
  refine ⟨h'.inOrder, fun key hsets => ?_⟩
  rcases h.entries key fun executed hmem => hsets executed (List.mem_append_left _ hmem) with
    ⟨added, hentries, hadds⟩
  rcases h'.entries key fun executed hmem => hsets executed (List.mem_append_right _ hmem) with
    ⟨added', hentries', hadds'⟩
  refine ⟨added ++ added', ?_, ?_⟩
  · rw [hentries', hentries, List.append_assoc]
  · rw [List.filter_append]
    exact List.rel_append hadds hadds'

/-- A command that has added no entry, and leaves the entries of the keys that it does not set. -/
theorem of_entriesOf (h : after.InOrder) {executed : Executed}
    (hentries : ∀ key, ¬ executed.Sets key → after.entriesOf key = before.entriesOf key)
    (hadds : ∀ key, executed.addsTo key = false) : Grows [executed] before after := by
  refine ⟨h, fun key hsets => ⟨[], ?_, ?_⟩⟩
  · rw [hentries key (hsets executed List.mem_cons_self), List.append_nil]
  · rw [List.filter_cons_of_neg (by rw [hadds key]; simp)]
    exact .nil

/-- A command that has written nothing only prunes. -/
theorem of_not_wrote (h : before.InOrder) (hprunes : before.Prunes after) {executed : Executed}
    (hwrote : ¬ executed.Wrote) : Grows [executed] before after := by
  refine of_entriesOf (h.prunes hprunes) (fun key _ => hprunes.entriesOf_eq h.sound key) ?_
  intro key
  by_contra hadds
  exact hwrote (Executed.wrote_of_addsTo (by simpa using hadds))

end Grows

end Keyspace

namespace Engine

open Keyspace (Grows)

variable {engine : Engine}

-- An entry that is accepted comes behind those of its key; one that is refused changes nothing.
theorem addEntry_grows {keyspace : Keyspace} (h : keyspace.InOrder) (now : UInt64)
    {command : Command} {key id : String} {fields : List String} {pairs : List (String × String)}
    (hrequest : Request.ofCommand command = .ok (.addEntry key id fields))
    (hpairs : StreamCommand.pairs? fields = some pairs) (request : IdRequest) :
    Grows
      [⟨command, .ofExcept ((keyspace.addEntry now key request pairs).1.map fun id =>
        .bulkText id.text)⟩] keyspace (keyspace.addEntry now key request pairs).2 := by
  have hinOrder := h.addEntry now key request pairs
  cases hadded : (keyspace.addEntry now key request pairs).1 with
  | error e =>
      refine .of_entriesOf hinOrder ?_ ?_
      · exact fun other _ => Keyspace.addEntry_refused h.sound hadded other
      · intro other
        simp [Executed.addsTo, hrequest, Except.map, Reply.ofExcept, Reply.ofError, Reply.isError]
  | ok given =>
      refine ⟨hinOrder, fun other _ => ?_⟩
      by_cases hother : other = key
      · rw [hother]
        refine ⟨[⟨given, pairs⟩], (Keyspace.addEntry_accepted h.sound hadded).1, ?_⟩
        rw [List.filter_cons_of_pos (by
          simp [Executed.addsTo, hrequest, Except.map, Reply.ofExcept, Reply.bulkText,
            Reply.isError])]
        exact .cons ⟨id, fields, hrequest, hpairs, rfl⟩ .nil
      · refine ⟨[], ?_, ?_⟩
        · rw [(Keyspace.addEntry_fades h.sound now key request pairs).1 other hother,
            List.append_nil]
        · rw [List.filter_cons_of_neg (by simp [Executed.addsTo, hrequest, Ne.symm hother])]
          exact .nil

-- A request that is no write only prunes, whatever it is answered with.
theorem run_grows_of_read (h : engine.keyspace.InOrder) (now : UInt64) {command : Command}
    {request : Request} (hrequest : Request.ofCommand command = .ok request)
    (hread : request.isWrite = false) (reply : Reply) :
    Grows [⟨command, reply⟩] engine.keyspace (engine.run now request).2.keyspace := by
  rcases engine.run_read now hread with ⟨keyspace, hprunes, hrun⟩
  rw [hrun]
  refine .of_not_wrote h hprunes ?_
  rintro ⟨_, other, hother, hwrite⟩
  rw [hrequest, Except.ok.injEq] at hother
  rw [← hother, hread] at hwrite
  cases hwrite

/-- What a request does to the streams, with the reply that it comes to. -/
theorem run_grows (h : engine.keyspace.InOrder) (now : UInt64) {command : Command}
    {request : Request} (hrequest : Request.ofCommand command = .ok request) :
    Grows [⟨command, .ofExcept (engine.run now request).1⟩] engine.keyspace
      (engine.run now request).2.keyspace := by
  cases request with
  | set key value options =>
      simp only [run, withKeyspace, KeyCommand.set]
      cases KeyCommand.deadlineOf now .never options with
      | error e => exact .of_not_wrote h (.refl _) (Executed.not_wrote_refused _ _)
      | ok deadline =>
          refine .of_entriesOf (h.set key value deadline) ?_ (by simp [Executed.addsTo, hrequest])
          intro other hsets
          refine engine.keyspace.set_entriesOf key value deadline ?_
          rintro rfl
          exact hsets ⟨value, options, hrequest, rfl⟩
  | increment key =>
      exact .of_entriesOf (h.increment now key)
        (fun other _ => Keyspace.increment_entriesOf h.sound now key other)
        (by simp [Executed.addsTo, hrequest])
  | addEntry key id fields =>
      rw [(engine.run_addEntry now key id fields).1, (engine.run_addEntry now key id fields).2]
      simp only [StreamCommand.addEntry]
      cases IdRequest.ofText id with
      | error e => exact .of_not_wrote h (.refl _) (Executed.not_wrote_refused _ _)
      | ok request =>
          cases hpairs : StreamCommand.pairs? fields with
          | none => exact .of_not_wrote h (.refl _) (Executed.not_wrote_refused _ _)
          | some pairs => exact addEntry_grows h now hrequest hpairs request
  | _ => exact run_grows_of_read h now hrequest rfl _

/-- What a command does to the streams that is run where nobody waits. -/
theorem runCommand_grows (h : engine.keyspace.InOrder) (now : UInt64) (command : Command) :
    Grows [⟨command, (engine.runCommand now command).1⟩] engine.keyspace
      (engine.runCommand now command).2.keyspace := by
  unfold runCommand
  cases hrequest : Request.ofCommand command with
  | error e => exact .of_not_wrote h (.refl _) (Executed.not_wrote_refused _ _)
  | ok request => exact run_grows h now hrequest

/-- What the commands of a queue do to the streams, each with its own reply. -/
theorem runQueue_grows (now : UInt64) (queue : List Command) :
    ∀ engine : Engine, engine.keyspace.InOrder →
      Grows (List.zipWith Executed.mk queue (engine.runQueue now queue).1) engine.keyspace
        (engine.runQueue now queue).2.keyspace := by
  induction queue with
  | nil => exact fun engine h => .of_prunes h (.refl _)
  | cons command rest ih =>
      intro engine h
      have hfirst := runCommand_grows h now command
      exact hfirst.trans (ih (engine.runCommand now command).2 hfirst.inOrder)

section Dispatching

variable {session : Session} {index : Option Nat} {command : Command}

-- What is quick has written nothing, so it only prunes; and no queue is run.
theorem quick_grows (h : engine.keyspace.InOrder) {after : Engine} (hquiet : engine.Quiet after)
    (hquick : engine.route session index command = .quick) (result : Dispatch) :
    Grows (session.executed command result) engine.keyspace after.keyspace := by
  unfold Session.executed
  split
  · split
    · rename_i hclosed
      refine .of_not_wrote h hquiet.keyspace ?_
      rintro ⟨_, request, hrequest, hwrite⟩
      rw [route_of_write hrequest hwrite hclosed] at hquick
      cases hquick
    · rename_i hopened hrequest
      rw [route, hrequest, hopened] at hquick
      cases hquick
    · exact .of_prunes h hquiet.keyspace
  · exact .of_prunes h hquiet.keyspace

/-- What a recorded command does to the streams. -/
theorem handle_grows (h : engine.keyspace.InOrder) (session : Session) (now : UInt64)
    (index : Option Nat) (command : Command) :
    Grows (session.executed command (engine.handle session now index command).1) engine.keyspace
      (engine.handle session now index command).2.1.keyspace := by
  cases hroute : engine.route session index command with
  | quick => exact quick_grows h (handle_of_quick now hroute) hroute _
  | asks wait timeout =>
      have hinstall := quiet_updateMaster engine (·.install wait) fun _ => rfl
      rw [handle_of_asks hroute, propagate_keyspace]
      exact .of_prunes h hinstall.keyspace
  | writes request =>
      rcases route_writes hroute with ⟨hrequest, hclosed, _⟩
      rw [handle_of_writes hroute, runAndForward_keyspace]
      simp only [Session.executed, Response.ofExcept, hclosed]
      exact run_grows h now hrequest
  | runs queue =>
      rcases route_runs hroute with ⟨hrequest, hopened⟩
      rw [handle_of_runs hroute]
      simp only [Session.executed, hrequest, hopened]
      exact runQueue_grows now queue engine h

/-- What a command of a session does to the streams. -/
theorem dispatch_grows (h : engine.keyspace.InOrder) (session : Session) (now : UInt64)
    (command : Command) :
    Grows (session.executed command (engine.dispatch session now command).1) engine.keyspace
      (engine.dispatch session now command).2.1.keyspace := by
  have hrecord := engine.record_quiet command
  have hlast := dispatch_handle engine session now command
  rw [(dispatch_outcome engine session now command).1]
  generalize (engine.record command).2 = recorded at hrecord hlast ⊢
  generalize (engine.record command).1 = index at hlast ⊢
  have hhandle := handle_grows (h.prunes hrecord.keyspace) session now index command
  -- What is handled lies between two parts that only prune.
  have hbefore := (Grows.of_prunes h hrecord.keyspace).trans hhandle
  simpa using hbefore.trans (.of_prunes hhandle.inOrder hlast.keyspace)

end Dispatching

/-- What a command of the master does to the streams: what it does where nobody waits. -/
theorem apply_grows (h : engine.keyspace.InOrder) (now : UInt64) (command : Command) :
    Grows [⟨command, (engine.runCommand now command).1⟩] engine.keyspace
      (engine.apply now command).2.keyspace := by
  rw [apply_engine]
  exact runCommand_grows h now command

/-- What can happen to an engine that started without keys. -/
inductive Happening where
  /-- A session sends a command, which may run its queue. -/
  | dispatched (session : Session) (now : UInt64) (command : Command)
  /-- A command of a queue is run by itself. -/
  | queued (now : UInt64) (command : Command)
  /-- The master has sent a command. -/
  | applied (now : UInt64) (command : Command)
  /-- A waiting command looks for a wake-up. -/
  | resumed (now : UInt64) (pending : Pending) (index : Option Nat)
  /-- The time of a waiting command is over. -/
  | gaveUp (now : UInt64) (pending : Pending) (index : Option Nat)
  /-- Replicas come and go, acknowledge, and collect bytes. -/
  | surroundings (role : Role) (links : Links)

/-- What happens, with what is executed. -/
def happen (engine : Engine) : Happening → List Executed × Engine
  | .dispatched session now command =>
    let (result, engine, _) := engine.dispatch session now command
    (session.executed command result, engine)
  | .queued now command =>
    let (reply, engine) := engine.runCommand now command
    ([⟨command, reply⟩], engine)
  | .applied now command =>
    ([⟨command, (engine.runCommand now command).1⟩], (engine.apply now command).2)
  | .resumed now pending index => ([], (engine.resume now pending index).2)
  | .gaveUp now pending index => ([], (engine.giveUp now pending index).2)
  | .surroundings role links => ([], { engine with role, links })

/-- A run, with the log of what was executed. -/
def chronicle (engine : Engine) : List Happening → List Executed × Engine
  | [] => ([], engine)
  | happening :: rest =>
    let (log, engine) := engine.happen happening
    let (logs, engine) := engine.chronicle rest
    (log ++ logs, engine)

namespace Reachable

/-- What happens to an engine that a server can have leaves one. -/
theorem happen (h : engine.Reachable) (happening : Happening) :
    (engine.happen happening).2.Reachable := by
  cases happening with
  | dispatched session now command => exact h.dispatch session now command
  | queued now command => exact h.runCommand now command
  | applied now command => exact h.apply now command
  | resumed now pending index => exact h.resume now pending index
  | gaveUp now pending index => exact h.giveUp now pending index
  | surroundings role links => exact h.surroundings role links

/-- A run of an engine that a server can have leaves one. -/
theorem chronicle (happenings : List Happening) :
    ∀ engine : Engine, engine.Reachable → (engine.chronicle happenings).2.Reachable := by
  induction happenings with
  | nil => exact fun _ h => h
  | cons happening rest ih => exact fun engine h => ih _ (h.happen happening)

/-- The streams of a server have entries, whose ids increase and lie above the least one. -/
theorem inOrder (h : engine.Reachable) : engine.keyspace.InOrder :=
  Keyspace.Invariant.reachable
    ⟨Keyspace.empty_inOrder, .prunes, .set, .increment, .addEntry⟩ h

end Reachable

/-- What one happening does to the streams. -/
theorem happen_grows (h : engine.keyspace.InOrder) (happening : Happening) :
    Grows (engine.happen happening).1 engine.keyspace (engine.happen happening).2.keyspace := by
  cases happening with
  | dispatched session now command => exact dispatch_grows h session now command
  | queued now command => exact runCommand_grows h now command
  | applied now command => exact apply_grows h now command
  | resumed now pending index => exact .of_prunes h (engine.resume_quiet now pending index).keyspace
  | gaveUp now pending index => exact .of_prunes h (engine.giveUp_quiet now pending index).keyspace
  | surroundings role links => exact .of_prunes h (.refl _)

/-- What a run does to the streams. -/
theorem chronicle_grows (happenings : List Happening) :
    ∀ engine : Engine, engine.keyspace.InOrder →
      Grows (engine.chronicle happenings).1 engine.keyspace
        (engine.chronicle happenings).2.keyspace := by
  induction happenings with
  | nil => exact fun engine h => .of_prunes h (.refl _)
  | cons happening rest ih =>
      intro engine h
      have hfirst := happen_grows h happening
      exact hfirst.trans (ih (engine.happen happening).2 hfirst.inOrder)

/-- At every moment of a run the streams of a server have entries, whose ids increase and lie above
    the least one. Between two moments a key that is not set keeps its entries as they are, and
    behind them come one for each entry that was added to the key, with the id that was answered. -/
theorem streams_only_grow (config : Config) (file : Snapshot.File) (replicationId : String)
    (earlier later : List Happening) :
    let before := ((start config file replicationId).chronicle earlier).2
    let log := (before.chronicle later).1
    let after := (before.chronicle later).2
    (∀ key item stream, after.keyspace.item? key = some item → item.value = .stream stream →
      stream.entries ≠ [] ∧ Stream.Increasing stream.entries ∧
        ∀ entry ∈ stream.entries, StreamId.zero < entry.id) ∧
    ∀ key, (∀ executed ∈ log, ¬ executed.Sets key) →
      ∃ added, after.keyspace.entriesOf key = before.keyspace.entriesOf key ++ added ∧
        List.Forall₂ (Executed.Adds key) (log.filter (Executed.addsTo key)) added := by
  intro before log after
  have hbefore := chronicle_grows earlier (start config file replicationId) Keyspace.empty_inOrder
  have hgrows := chronicle_grows later before hbefore.inOrder
  exact ⟨fun key item stream => hgrows.inOrder.stream, hgrows.entries⟩

/-- An entry without an id of its own is added when the clock has gone back; one is refused on a
    replica, and one is added by a transaction. -/
theorem streams_only_grow_of_three :
    let engine := start {} .missing "id"
    let queue := [Command.ofParts .xadd ["s", "7-*", "c", "3"], .ofParts .get ["s"]]
    let before := (engine.chronicle
      [.dispatched {} 5 (.ofParts .xadd ["s", "5-1", "a", "1"])]).2
    let later : List Happening :=
      [.dispatched {} 3 (.ofParts .xadd ["s", "*", "b", "2"]),
        .applied 9 (.ofParts .xadd ["s", "4-0", "x", "9"]),
        .dispatched { transaction := .opened queue } 8 (.ofParts .exec [])]
    let after := (before.chronicle later).2
    after.keyspace.entriesOf "s" =
      [⟨⟨5, 1⟩, [("a", "1")]⟩, ⟨⟨5, 2⟩, [("b", "2")]⟩, ⟨⟨7, 0⟩, [("c", "3")]⟩] ∧
    ∃ added, after.keyspace.entriesOf "s" = before.keyspace.entriesOf "s" ++ added ∧
      List.Forall₂ (Executed.Adds "s")
        ((before.chronicle later).1.filter (Executed.addsTo "s")) added := by
  intro engine queue before later after
  have hnames : ∀ executed ∈ (before.chronicle later).1, executed.command.name ≠ .set := by
    decide +kernel
  refine ⟨by decide +kernel, ?_⟩
  refine (streams_only_grow {} .missing "id"
    [.dispatched {} 5 (.ofParts .xadd ["s", "5-1", "a", "1"])] later).2 "s" ?_
  exact fun executed hmem hsets => hnames executed hmem hsets.name

end Engine

end KeyValue
