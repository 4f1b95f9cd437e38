import KeyValue.Waiting
import Mathlib.Logic.Function.Basic

/-!
# Reading and adding at the same time

Threads that wait for entries and threads that add entries run in any interleaving.

A read that may wait resolves its starts one after the other, registers, and looks at one stream
after the other. If it has found nothing by then, it parks. Parked, it uses up a wake-up or runs out
of time, and looks at all its streams again; out of time, it answers with whatever it finds. An
entry is added in two steps: first it is in its stream, and then the readers of the key are woken.

A thread is idle between its commands, and so is one that runs the queue of a transaction, or
applies what a master sends, between two of these. While a thread is idle it may run any other
request as a whole, because no other request has to do with the readers.

With nothing in between, the steps of a command do what the engine does (`Leads.startRead`,
`Leads.poll`, `Leads.expire`, `Leads.addEntry`).

## Main definitions

* `Ticket`: A read that is registered.
* `Phase`: Where a thread is.
* `Traffic`: The engine with the threads.
* `Traffic.Step`, `Traffic.Run`: A step of some thread, and any number of steps.
* `Traffic.Leads`: Some steps with given answers.

## Theorems

* `Leads.look_all`, `Leads.resolve_all`: One stream after the other.
* `Leads.startRead`, `Leads.poll`, `Leads.expire`, `Leads.addEntry`: The steps of one command.
-/

namespace KeyValue

/-- A read that is registered. -/
structure Ticket where
  reader : Nat
  cursors : List Cursor
  count : Option Nat
  /-- The time at which the wait is over, if there is one. -/
  deadline : Option Nat

/-- The keys that a read waits for. -/
def Ticket.keys (ticket : Ticket) : List String := ticket.cursors.map (·.key)

/-- The wait of a read. -/
def Ticket.pending (ticket : Ticket) : Pending :=
  ⟨.entries ticket.reader ticket.cursors ticket.count, ticket.deadline⟩

/-- Cursors with the entries that were found above them. -/
abbrev Finds : Type := List (Cursor × List StreamEntry)

/-- The reply of a read that found these entries. -/
def Finds.reply (finds : Finds) : Reply :=
  Cursor.readReply (finds.map fun (cursor, entries) => Cursor.streamReply cursor.key entries)

/-- Where a thread is. -/
inductive Phase where
  | idle
  /-- It has resolved some starts of a read. -/
  | resolves (read : StreamRead) (ms : UInt64) (cursors : List Cursor)
      (left : List (String × String))
  /-- It has looked at some streams; `last` if its time is over. -/
  | looks (ticket : Ticket) (found : Finds) (left : List Cursor) (last : Bool)
  | parked (ticket : Ticket)
  /-- It has added an entry to the stream of a key, and has not woken the readers. -/
  | added (key : String)

/-- Where a thread is with a read that was started. -/
def Phase.ofProgress : Progress → Phase
  | .waits ⟨.entries reader cursors count, deadline⟩ => parked ⟨reader, cursors, count, deadline⟩
  | _ => idle

/-- The answers to a request that was started. -/
def Progress.answers : Progress → List (Except Error Reply)
  | .answered result => [result]
  | .waits _ => []

/-- The engine with the threads that read streams and add to them. -/
structure Traffic where
  engine : Engine
  phase : Nat → Phase := fun _ => .idle

namespace Traffic

/-- What can be seen of a step. -/
inductive Outcome where
  | nothing
  /-- A read that was not registered is answered with an error. -/
  | refused (e : Error)
  /-- A read that was registered is answered. -/
  | answered (ticket : Ticket) (result : Except Error Finds)

/-- What is answered. -/
def Outcome.answers : Outcome → List (Except Error Reply)
  | nothing => []
  | refused e => [.error e]
  | answered _ result => [result.map Finds.reply]

/-- A thread changes the engine and goes on. -/
def go (traffic : Traffic) (client : Nat) (engine : Engine) (phase : Phase) : Traffic :=
  ⟨engine, Function.update traffic.phase client phase⟩

/-- A step of some thread. -/
inductive Step : Traffic → Outcome → Traffic → Prop
  /-- A read comes in that may wait. -/
  | ask {traffic : Traffic} {client : Nat} {arguments : List String} {read : StreamRead}
      {ms : UInt64} (hphase : traffic.phase client = .idle)
      (hread : StreamRead.ofArguments {} arguments = .ok read) (hblock : read.block = some ms) :
      Step traffic .nothing (traffic.go client traffic.engine (.resolves read ms [] read.starts))
  | resolve {traffic : Traffic} {client : Nat} {read : StreamRead} {ms : UInt64}
      {cursors : List Cursor} {key id : String} {left : List (String × String)} {cursor : Cursor}
      {keyspace : Keyspace} (now : UInt64)
      (hphase : traffic.phase client = .resolves read ms cursors ((key, id) :: left))
      (hresolve : Cursor.resolve traffic.engine.keyspace now key id = (.ok cursor, keyspace)) :
      Step traffic .nothing
        (traffic.go client { traffic.engine with keyspace }
          (.resolves read ms (cursors ++ [cursor]) left))
  | refuse {traffic : Traffic} {client : Nat} {read : StreamRead} {ms : UInt64}
      {cursors : List Cursor} {key id : String} {left : List (String × String)} {e : Error}
      {keyspace : Keyspace} (now : UInt64)
      (hphase : traffic.phase client = .resolves read ms cursors ((key, id) :: left))
      (hresolve : Cursor.resolve traffic.engine.keyspace now key id = (.error e, keyspace)) :
      Step traffic (.refused e) (traffic.go client { traffic.engine with keyspace } .idle)
  /-- The reader is registered before it looks. -/
  | register {traffic : Traffic} {client : Nat} {read : StreamRead} {ms : UInt64}
      {cursors : List Cursor} (now : UInt64)
      (hphase : traffic.phase client = .resolves read ms cursors []) :
      Step traffic .nothing
        (traffic.go client
          { traffic.engine with readers := (traffic.engine.readers.register read.keys).2 }
          (.looks ⟨(traffic.engine.readers.register read.keys).1, cursors, read.count,
            Engine.deadlineAfter now ms⟩ [] cursors false))
  | look {traffic : Traffic} {client : Nat} {ticket : Ticket} {found : Finds} {cursor : Cursor}
      {left : List Cursor} {last : Bool} {entries : List StreamEntry} {keyspace : Keyspace}
      (now : UInt64) (hphase : traffic.phase client = .looks ticket found (cursor :: left) last)
      (hread : cursor.read traffic.engine.keyspace now ticket.count = (.ok entries, keyspace)) :
      Step traffic .nothing
        (traffic.go client { traffic.engine with keyspace }
          (.looks ticket (if entries = [] then found else found ++ [(cursor, entries)]) left last))
  /-- A stream cannot be read. The reader leaves, and the read is answered. -/
  | fail {traffic : Traffic} {client : Nat} {ticket : Ticket} {found : Finds} {cursor : Cursor}
      {left : List Cursor} {last : Bool} {e : Error} {keyspace : Keyspace} (now : UInt64)
      (hphase : traffic.phase client = .looks ticket found (cursor :: left) last)
      (hread : cursor.read traffic.engine.keyspace now ticket.count = (.error e, keyspace)) :
      Step traffic (.answered ticket (.error e))
        (traffic.go client (Engine.forget { traffic.engine with keyspace } ticket.reader) .idle)
  /-- The reader has found entries, or its time is over. It leaves, and the read is answered. -/
  | answer {traffic : Traffic} {client : Nat} {ticket : Ticket} {found : Finds} {last : Bool}
      (hphase : traffic.phase client = .looks ticket found [] last)
      (hdone : found ≠ [] ∨ last = true) :
      Step traffic (.answered ticket (.ok found))
        (traffic.go client (traffic.engine.forget ticket.reader) .idle)
  | park {traffic : Traffic} {client : Nat} {ticket : Ticket}
      (hphase : traffic.phase client = .looks ticket [] [] false) :
      Step traffic .nothing (traffic.go client traffic.engine (.parked ticket))
  /-- A reader uses up its wake-up, and looks again. -/
  | wake {traffic : Traffic} {client : Nat} {ticket : Ticket}
      (hphase : traffic.phase client = .parked ticket)
      (hwoken : traffic.engine.readers.isWoken ticket.reader = true) :
      Step traffic .nothing
        (traffic.go client
          { traffic.engine with readers := traffic.engine.readers.consume ticket.reader }
          (.looks ticket [] ticket.cursors false))
  /-- The time of a reader is over, and it looks for the last time. -/
  | expire {traffic : Traffic} {client : Nat} {ticket : Ticket}
      (hphase : traffic.phase client = .parked ticket)
      (hdeadline : ticket.deadline.isSome = true) :
      Step traffic .nothing
        (traffic.go client traffic.engine (.looks ticket [] ticket.cursors true))
  /-- An entry is added to its stream. -/
  | add {traffic : Traffic} {client : Nat} {key id : String} {fields : List String}
      {added : StreamId} {keyspace : Keyspace} (now : UInt64)
      (hphase : traffic.phase client = .idle)
      (hadd : StreamCommand.addEntry traffic.engine.keyspace now key id fields =
        (.ok added, keyspace)) :
      Step traffic .nothing (traffic.go client { traffic.engine with keyspace } (.added key))
  | refuseEntry {traffic : Traffic} {client : Nat} {key id : String} {fields : List String}
      {e : Error} {keyspace : Keyspace} (now : UInt64) (hphase : traffic.phase client = .idle)
      (hadd : StreamCommand.addEntry traffic.engine.keyspace now key id fields =
        (.error e, keyspace)) :
      Step traffic .nothing (traffic.go client { traffic.engine with keyspace } .idle)
  /-- The readers of the key are woken. -/
  | notify {traffic : Traffic} {client : Nat} {key : String}
      (hphase : traffic.phase client = .added key) :
      Step traffic .nothing (traffic.go client (traffic.engine.notify key) .idle)
  /-- Another request is run. -/
  | run {traffic : Traffic} {client : Nat} {request : Request} (now : UInt64)
      (hphase : traffic.phase client = .idle)
      (hrequest : ∀ key id fields, request ≠ .addEntry key id fields) :
      Step traffic .nothing (traffic.go client (traffic.engine.run now request).2 .idle)
  /-- Keys of a snapshot are copied. -/
  | load {traffic : Traffic} (now : UInt64) (entries : List Snapshot.Entry) :
      Step traffic .nothing { traffic with engine := (traffic.engine.load now entries).2 }
  /-- Replicas, acknowledgements and links come and go. -/
  | surroundings {traffic : Traffic} (role : Role) (links : Links) :
      Step traffic .nothing { traffic with engine := { traffic.engine with role, links } }

/-- Any number of steps, with what can be seen of them. -/
inductive Run : Traffic → List Outcome → Traffic → Prop
  | done (traffic : Traffic) : Run traffic [] traffic
  | step {before middle after : Traffic} {outcome : Outcome} {log : List Outcome}
      (h : Step before outcome middle) (rest : Run middle log after) :
      Run before (outcome :: log) after

/-- The threads of a server that starts. -/
def start (config : Config) (file : Snapshot.File) (replicationId : String) : Traffic :=
  { engine := .start config file replicationId }

@[simp]
theorem go_engine (traffic : Traffic) (client : Nat) (engine : Engine) (phase : Phase) :
    (traffic.go client engine phase).engine = engine := rfl

@[simp]
theorem go_go (traffic : Traffic) (client : Nat) (engine engine' : Engine)
    (phase phase' : Phase) :
    (traffic.go client engine phase).go client engine' phase' =
      traffic.go client engine' phase' := by
  simp only [go, Function.update_idem]

theorem go_phase (traffic : Traffic) (client : Nat) (engine : Engine) (phase : Phase) :
    (traffic.go client engine phase).phase client = phase :=
  Function.update_self ..

/-- A thread that goes on where it was does nothing. -/
theorem go_self (traffic : Traffic) (client : Nat) {phase : Phase}
    (h : traffic.phase client = phase) : traffic.go client traffic.engine phase = traffic := by
  subst h
  simp only [go, Function.update_eq_self]

/-- Some steps lead from one state to another, with given answers. -/
def Leads (before : Traffic) (answers : List (Except Error Reply)) (after : Traffic) : Prop :=
  ∃ log, Run before log after ∧ log.flatMap (·.answers) = answers

namespace Leads

theorem refl (traffic : Traffic) : Leads traffic [] traffic := ⟨[], .done traffic, rfl⟩

theorem step {before middle after : Traffic} {outcome : Outcome}
    {answers : List (Except Error Reply)} (h : Step before outcome middle)
    (h' : Leads middle answers after) : Leads before (outcome.answers ++ answers) after := by
  rcases h' with ⟨log, hrun, rfl⟩
  exact ⟨outcome :: log, .step h hrun, List.flatMap_cons⟩

theorem trans {before middle after : Traffic} {answers answers' : List (Except Error Reply)}
    (h : Leads before answers middle) (h' : Leads middle answers' after) :
    Leads before (answers ++ answers') after := by
  rcases h with ⟨log, hrun, rfl⟩
  induction hrun with
  | done traffic => exact h'
  | step hfirst _ ih =>
      have hrest := step hfirst (ih h')
      rw [← List.append_assoc] at hrest
      exact hrest

/-- One step more, without an answer before it. -/
theorem next {before middle after : Traffic} {outcome : Outcome} (h : Leads before [] middle)
    (h' : Step middle outcome after) : Leads before outcome.answers after := by
  have hboth := h.trans (step h' (refl after))
  rw [List.append_nil, List.nil_append] at hboth
  exact hboth

/-- An entry is added, and the readers of its key are woken. -/
theorem addEntry (traffic : Traffic) (client : Nat) (now : UInt64) (key id : String)
    (fields : List String) (hphase : traffic.phase client = .idle) :
    Leads traffic []
      (traffic.go client (traffic.engine.addEntry now key id fields).2 .idle) := by
  unfold Engine.addEntry
  rcases hadd : StreamCommand.addEntry traffic.engine.keyspace now key id fields with
    ⟨e | added, keyspace⟩
  · exact step (.refuseEntry now hphase hadd) (refl _)
  · have hadded := (refl traffic).next (.add now hphase hadd)
    have hnotified := hadded.next (.notify (go_phase ..))
    rw [go_go] at hnotified
    exact hnotified

/-- The starts of a read are resolved one after the other. -/
theorem resolve_all (client : Nat) (now : UInt64) (read : StreamRead) (ms : UInt64)
    (left : List (String × String)) (traffic : Traffic) (cursors : List Cursor)
    (hphase : traffic.phase client = .resolves read ms cursors left) :
    match Cursor.resolveAll traffic.engine.keyspace now left with
    | (.error e, keyspace) =>
      Leads traffic [.error e] (traffic.go client { traffic.engine with keyspace } .idle)
    | (.ok more, keyspace) =>
      Leads traffic []
        (traffic.go client { traffic.engine with keyspace }
          (.resolves read ms (cursors ++ more) [])) := by
  induction left generalizing traffic cursors with
  | nil =>
      simp only [Cursor.resolveAll, List.append_nil]
      rw [go_self traffic client hphase]
      exact refl traffic
  | cons start rest ih =>
      rcases start with ⟨key, id⟩
      rcases hresolve : Cursor.resolve traffic.engine.keyspace now key id with
        ⟨e | cursor, keyspace⟩
      · simp only [Cursor.resolveAll, hresolve]
        exact step (.refuse now hphase hresolve) (refl _)
      · -- The thread goes on with one cursor more, and the rest is the induction hypothesis.
        have hstep := Step.resolve now hphase hresolve
        have hrest := ih _ _ (go_phase traffic client { traffic.engine with keyspace }
          (.resolves read ms (cursors ++ [cursor]) rest))
        simp only [Cursor.resolveAll, hresolve]
        rcases hall : Cursor.resolveAll keyspace now rest with ⟨e | more, after⟩
        · simp only [go_engine, go_go, hall] at hrest
          exact step hstep hrest
        · simp only [go_engine, go_go, hall, List.append_assoc] at hrest
          exact step hstep hrest

/-- The streams of a read are looked at one after the other. -/
theorem look_all (client : Nat) (now : UInt64) (ticket : Ticket) (last : Bool)
    (left : List Cursor) (traffic : Traffic) (found : Finds)
    (hphase : traffic.phase client = .looks ticket found left last) :
    match Cursor.readAll traffic.engine.keyspace now ticket.count left with
    | (.error e, keyspace) =>
      Leads traffic [.error e]
        (traffic.go client (Engine.forget { traffic.engine with keyspace } ticket.reader) .idle)
    | (.ok replies, keyspace) =>
      ∃ more : Finds,
        more.map (fun (cursor, entries) => Cursor.streamReply cursor.key entries) = replies ∧
          Leads traffic []
            (traffic.go client { traffic.engine with keyspace }
              (.looks ticket (found ++ more) [] last)) := by
  induction left generalizing traffic found with
  | nil =>
      simp only [Cursor.readAll]
      refine ⟨[], rfl, ?_⟩
      rw [List.append_nil, go_self traffic client hphase]
      exact refl traffic
  | cons cursor rest ih =>
      rcases hread : cursor.read traffic.engine.keyspace now ticket.count with
        ⟨e | entries, keyspace⟩
      · simp only [Cursor.readAll, hread]
        exact step (.fail now hphase hread) (refl _)
      · have hstep := Step.look now hphase hread
        have hrest := ih _ _ (go_phase traffic client { traffic.engine with keyspace }
          (.looks ticket (if entries = [] then found else found ++ [(cursor, entries)]) rest last))
        simp only [Cursor.readAll, hread]
        rcases hall : Cursor.readAll keyspace now ticket.count rest with ⟨e | replies, after⟩
        · simp only [go_engine, go_go, hall] at hrest
          exact step hstep hrest
        · simp only [go_engine, go_go, hall] at hrest
          rcases hrest with ⟨more, hmore, hleads⟩
          -- A stream without entries leaves no reply.
          by_cases hnone : entries = []
          · refine ⟨more, ?_, ?_⟩
            · simp [hnone, hmore]
            · rw [if_pos hnone] at hstep hleads
              exact step hstep hleads
          · refine ⟨(cursor, entries) :: more, ?_, ?_⟩
            · simp [hnone, hmore]
            · rw [if_neg hnone] at hstep hleads
              rw [List.append_assoc] at hleads
              exact step hstep hleads

/-- A reader that is not out of time looks, and then answers or parks. -/
theorem look (client : Nat) (now : UInt64) (ticket : Ticket) (traffic : Traffic)
    (hphase : traffic.phase client = .looks ticket [] ticket.cursors false) :
    match traffic.engine.look now ticket.reader ticket.cursors ticket.count with
    | (none, engine) => Leads traffic [] (traffic.go client engine (.parked ticket))
    | (some result, engine) => Leads traffic [result] (traffic.go client engine .idle) := by
  have hall := look_all client now ticket false ticket.cursors traffic [] hphase
  unfold Engine.look Engine.readAll Engine.withKeyspace
  rcases hread : Cursor.readAll traffic.engine.keyspace now ticket.count ticket.cursors with
    ⟨e | replies, keyspace⟩
  · rw [hread] at hall
    exact hall
  · rw [hread] at hall
    rcases hall with ⟨more, rfl, hleads⟩
    rcases more with _ | ⟨find, more⟩
    · have hparked := hleads.next (.park (go_phase ..))
      rw [go_go] at hparked
      exact hparked
    · have hanswered := hleads.next (.answer (go_phase ..) (Or.inl (List.cons_ne_nil _ _)))
      rw [go_go] at hanswered
      exact hanswered

/-- With nothing in between, a read that may wait is started. -/
theorem startRead (traffic : Traffic) (client : Nat) (now : UInt64) {arguments : List String}
    {read : StreamRead} {ms : UInt64} (hread : StreamRead.ofArguments {} arguments = .ok read)
    (hblock : read.block = some ms) (hphase : traffic.phase client = .idle) :
    let started := traffic.engine.startRead now arguments
    Leads traffic started.1.answers
      (traffic.go client started.2 (.ofProgress started.1)) := by
  intro started
  have hasked := (refl traffic).next (.ask hphase hread hblock)
  have hresolved := resolve_all client now read ms read.starts
    (traffic.go client traffic.engine (.resolves read ms [] read.starts)) [] (go_phase ..)
  rcases hall : Cursor.resolveAll traffic.engine.keyspace now read.starts with
    ⟨e | cursors, keyspace⟩
  · have hstarted : started = (.answered (.error e), { traffic.engine with keyspace }) := by
      simp only [started, Engine.startRead, Engine.openRead, hread, Engine.withKeyspace, hall]
      rfl
    simp only [go_engine, go_go, hall] at hresolved
    rw [hstarted]
    exact hasked.trans hresolved
  · simp only [go_engine, go_go, hall, List.nil_append] at hresolved
    -- The starts are resolved; the reader is registered before it looks.
    let registered : Engine :=
      { traffic.engine with
        keyspace, readers := (traffic.engine.readers.register read.keys).2 }
    let ticket : Ticket := ⟨(traffic.engine.readers.register read.keys).1, cursors, read.count,
      Engine.deadlineAfter now ms⟩
    have hregistered : Leads traffic []
        (traffic.go client registered (.looks ticket [] cursors false)) := by
      have hnext := (hasked.trans hresolved).next (.register now (go_phase ..))
      rw [go_go] at hnext
      exact hnext
    have hlooked := look client now ticket _ (go_phase traffic client registered _)
    rcases hlook : registered.look now ticket.reader cursors read.count with ⟨_ | result, engine⟩
    · have hstarted : started = (.waits ticket.pending, engine) := by
        simp only [started, Engine.startRead, Engine.openRead, hread, Engine.withKeyspace, hall,
          Except.map, hblock]
        simp only [registered, ticket] at hlook
        rw [hlook]
        rfl
      simp only [go_engine, go_go, ticket, hlook] at hlooked
      rw [hstarted]
      exact hregistered.trans hlooked
    · have hstarted : started = (.answered result, engine) := by
        simp only [started, Engine.startRead, Engine.openRead, hread, Engine.withKeyspace, hall,
          Except.map, hblock]
        simp only [registered, ticket] at hlook
        rw [hlook]
      simp only [go_engine, go_go, ticket, hlook] at hlooked
      rw [hstarted]
      exact hregistered.trans hlooked

/-- With nothing in between, a reader that parks looks for a wake-up. -/
theorem poll (traffic : Traffic) (client : Nat) (now : UInt64) {ticket : Ticket}
    (hphase : traffic.phase client = .parked ticket) :
    match traffic.engine.poll now ticket.pending.waiting with
    | (none, engine) => Leads traffic [] (traffic.go client engine (.parked ticket))
    | (some result, engine) => Leads traffic [result] (traffic.go client engine .idle) := by
  simp only [Ticket.pending, Engine.poll]
  by_cases hwoken : traffic.engine.readers.isWoken ticket.reader = true
  · rw [if_pos hwoken]
    have hwakes := Step.wake hphase hwoken
    have hlooked := look client now ticket
      (traffic.go client
        { traffic.engine with readers := traffic.engine.readers.consume ticket.reader }
        (.looks ticket [] ticket.cursors false)) (go_phase ..)
    simp only [go_go] at hlooked
    rcases hlook : Engine.look
      { traffic.engine with readers := traffic.engine.readers.consume ticket.reader } now
      ticket.reader ticket.cursors ticket.count with ⟨_ | result, engine⟩
    · simp only [go_engine, hlook] at hlooked
      exact step hwakes hlooked
    · simp only [go_engine, hlook] at hlooked
      exact step hwakes hlooked
  · -- Without a wake-up nothing happens.
    rw [if_neg hwoken]
    simp only
    rw [go_self traffic client hphase]
    exact refl traffic

/-- With nothing in between, a reader whose time is over answers. -/
theorem expire (traffic : Traffic) (client : Nat) (now : UInt64) {ticket : Ticket}
    (hphase : traffic.phase client = .parked ticket) (hdeadline : ticket.deadline.isSome = true) :
    let expired := traffic.engine.expire now ticket.pending.waiting
    Leads traffic [expired.1] (traffic.go client expired.2 .idle) := by
  intro expired
  have hexpires := Step.expire hphase hdeadline
  have hall := look_all client now ticket true ticket.cursors
    (traffic.go client traffic.engine (.looks ticket [] ticket.cursors true)) [] (go_phase ..)
  rcases hread : Cursor.readAll traffic.engine.keyspace now ticket.count ticket.cursors with
    ⟨e | replies, keyspace⟩
  · have hexpired : expired =
        (.error e, Engine.forget { traffic.engine with keyspace } ticket.reader) := by
      simp only [expired, Ticket.pending, Engine.expire, Engine.readAll, Engine.withKeyspace, hread]
      rfl
    simp only [go_engine, go_go, hread] at hall
    rw [hexpired]
    exact step hexpires hall
  · have hexpired : expired = (.ok (Cursor.readReply replies),
        Engine.forget { traffic.engine with keyspace } ticket.reader) := by
      simp only [expired, Ticket.pending, Engine.expire, Engine.readAll, Engine.withKeyspace, hread]
      rfl
    simp only [go_engine, go_go, hread] at hall
    rcases hall with ⟨more, rfl, hleads⟩
    have hlooked := step hexpires hleads
    have hanswered := hlooked.next (.answer (go_phase ..) (Or.inr rfl))
    rw [go_go] at hanswered
    rw [hexpired]
    exact hanswered

end Leads

end Traffic

end KeyValue
