import KeyValue.Proofs.Engine.Queueing
import KeyValue.Proofs.Sessions.Isolating

/-!
# What the commands of a client use

A request that is run as a whole uses the engine like one that is run with others in between
(`Makes.of_run`), and so does a command of a queue (`Runs.of_runCommand`). Whatever else a client or
nobody does to the engine is a list of uses as well (`Engine.Acts`), or nothing that a request can
tell. What is found tells the answer to a plain command that does not wait (`Engine.handle_acts`).

## Main definitions

* `Request.isPlain`: A request of a client that is answered from what is found.
* `Engine.Acts`: What a client does to the engine.

## Theorems

* `Makes.of_run`, `Runs.of_runCommand`: A request, and a command of a queue.
* `Engine.startRead_acts`, `Engine.poll_acts`, `Engine.expire_acts`: What waits, or may wait.
* `Engine.handle_acts`: A command that is handled at once.
-/

namespace KeyValue

section Clients

variable {client : Nat} {deeds : List Deed}

/-- A client looks up its starts itself. -/
theorem Resolves.client_eq {starts : List (String × String)} {result : Except Error (List Cursor)}
    (h : Resolves client starts deeds result) : ∀ deed ∈ deeds, deed.client = some client := by
  induction h with
  | done => simp
  | fails now key id e => simp
  | step now key id cursor h ih => simpa using ih

/-- A client looks at its streams itself. -/
theorem Looks.client_eq {count : Option Nat} {cursors : List Cursor}
    {result : Except Error (List Reply)} (h : Looks client count cursors deeds result) :
    ∀ deed ∈ deeds, deed.client = some client := by
  induction h with
  | done => simp
  | fails now cursor e => simp
  | step now cursor entries h ih => simpa using ih

/-- All that a request does is done by the client that sent it. -/
theorem Makes.client_eq {request : Request} {result : Except Error Reply}
    (h : Makes client request deeds result) : ∀ deed ∈ deeds, deed.client = some client := by
  cases h with
  | whole now hwhole result => simp
  | unread hread => simp
  | unresolved hread hresolves => exact hresolves.client_eq
  | reads hread hresolves hlooks =>
      intro deed hdeed
      rcases List.mem_append.mp hdeed with hfirst | hlater
      · exact hresolves.client_eq deed hfirst
      · exact hlooks.client_eq deed hlater

end Clients

section Whole

variable (client : Nat) (now : UInt64)

/-- Starts that are looked up one after the other in one go are so many deeds with nothing in
    between. -/
theorem Resolves.of_resolveAll (starts : List (String × String)) :
    ∀ engine : Engine, ∃ deeds,
      Resolves client starts deeds (Cursor.resolveAll engine.keyspace now starts).1 ∧
        Replays engine deeds
          (engine.withKeyspace (Cursor.resolveAll engine.keyspace now starts)).2 := by
  induction starts with
  | nil => exact fun engine => ⟨[], .done, .done (.refl engine)⟩
  | cons start rest ih =>
      intro engine
      rcases start with ⟨key, id⟩
      simp only [Cursor.resolveAll]
      rcases hresolve : Cursor.resolve engine.keyspace now key id with ⟨e | cursor, keyspace⟩
      · refine ⟨_, .fails now key id e, .step ?_ (.done ?_)⟩
        · simp only [Use.on, hresolve, Engine.withKeyspace]
        · simp only [Use.on, hresolve, Engine.withKeyspace]
          exact .refl _
      · rcases ih { engine with keyspace } with ⟨deeds, hresolves, hreplays⟩
        refine ⟨_, .step now key id cursor hresolves, .step ?_ ?_⟩
        · simp only [Use.on, hresolve, Engine.withKeyspace]
        · simp only [Use.on, hresolve, Engine.withKeyspace]
          exact hreplays

/-- Streams that are looked at one after the other in one go are so many deeds, too. -/
theorem Looks.of_readAll (count : Option Nat) (cursors : List Cursor) :
    ∀ engine : Engine, ∃ deeds,
      Looks client count cursors deeds (engine.readAll now count cursors).1 ∧
        Replays engine deeds (engine.readAll now count cursors).2 := by
  induction cursors with
  | nil => exact fun engine => ⟨[], .done, .done (.refl engine)⟩
  | cons cursor rest ih =>
      intro engine
      simp only [Engine.readAll, Cursor.readAll]
      rcases hread : cursor.read engine.keyspace now count with ⟨e | entries, keyspace⟩
      · refine ⟨_, .fails now cursor e, .step ?_ (.done ?_)⟩
        · simp only [Use.on, hread, Engine.withKeyspace]
        · simp only [Use.on, hread, Engine.withKeyspace]
          exact .refl _
      · rcases ih { engine with keyspace } with ⟨deeds, hlooks, hreplays⟩
        refine ⟨_, .step now cursor entries hlooks, .step ?_ ?_⟩
        · simp only [Use.on, hread, Engine.withKeyspace]
        · simp only [Use.on, hread, Engine.withKeyspace]
          exact hreplays

/-- What a request does that is run as a whole. -/
theorem Makes.of_run (engine : Engine) (request : Request) :
    ∃ deeds, Makes client request deeds (engine.run now request).1 ∧
      Replays engine deeds (engine.run now request).2 := by
  by_cases hwhole : ∀ arguments, request ≠ .readStreams arguments
  · exact ⟨_, .whole now hwhole _, .step rfl (.done (.refl _))⟩
  · simp only [ne_eq, not_forall, not_not] at hwhole
    rcases hwhole with ⟨arguments, rfl⟩
    simp only [Engine.run, Engine.openRead]
    cases hread : StreamRead.ofArguments {} arguments with
    | error e => exact ⟨[], .unread hread, .done (.refl _)⟩
    | ok read =>
        rcases Resolves.of_resolveAll client now read.starts engine with
          ⟨deeds, hresolves, hreplays⟩
        simp only [Engine.withKeyspace] at hreplays ⊢
        rcases hresolve : Cursor.resolveAll engine.keyspace now read.starts with
          ⟨e | cursors, keyspace⟩
        · rw [hresolve] at hresolves hreplays
          exact ⟨deeds, .unresolved hread hresolves, hreplays⟩
        · rw [hresolve] at hresolves hreplays
          rcases Looks.of_readAll client now read.count cursors { engine with keyspace } with
            ⟨later, hlooks, hreplays'⟩
          exact ⟨deeds ++ later, .reads hread hresolves hlooks, hreplays.append hreplays'⟩

/-- What a command of a queue does that is run with nothing in between. -/
theorem Runs.of_runCommand (engine : Engine) (command : Command) :
    ∃ deeds, Runs client [command] deeds [(engine.runCommand now command).1] ∧
      Replays engine deeds (engine.runCommand now command).2 ∧
      ∀ deed ∈ deeds, deed.client = some client := by
  unfold Engine.runCommand
  cases hrequest : Request.ofCommand command with
  | error e => exact ⟨[], .refused hrequest .done, .done (.refl _), by simp⟩
  | ok request =>
      rcases Makes.of_run client now engine request with ⟨deeds, hmakes, hreplays⟩
      refine ⟨deeds, ?_, hreplays, hmakes.client_eq⟩
      simpa using Runs.step hrequest hmakes .done

end Whole

/-- A queue can be run in two parts. -/
theorem Runs.append {client : Nat} {queue later : List Command} {deeds more : List Deed}
    {replies rest : List Reply} (h : Runs client queue deeds replies)
    (h' : Runs client later more rest) :
    Runs client (queue ++ later) (deeds ++ more) (replies ++ rest) := by
  induction h with
  | done => exact h'
  | refused hrequest _ ih => exact .refused hrequest ih
  | step hrequest hmakes _ ih =>
      rw [List.append_assoc]
      exact .step hrequest hmakes ih

/-- What a client does over a longer time is what it does early and what it does late. -/
theorem own_append (client : Nat) (deeds later : List Deed) :
    own client (deeds ++ later) = own client deeds ++ own client later :=
  List.filter_append ..

-- Of what one client does, everything is its own, or nothing.
theorem own_of_client {client : Nat} {deeds : List Deed}
    (h : ∀ deed ∈ deeds, deed.client = some client) : own client deeds = deeds :=
  List.filter_eq_self.mpr (by simpa using h)

/-- What others do is nothing of its own. -/
theorem own_of_ne {client : Nat} {other : Option Nat} {deeds : List Deed}
    (h : ∀ deed ∈ deeds, deed.client = other) (hne : other ≠ some client) : own client deeds = [] :=
  List.filter_eq_nil_iff.mpr fun deed hdeed => by simpa [h deed hdeed] using hne

namespace Master

/-- What is reported of a master does not tell who waits. -/
theorem leave_facts (master : Master) (wait : AckWait) :
    (master.leave wait).facts = master.facts := by
  unfold leave
  split
  · split <;> rfl
  · rfl

/-- What is reported of a master does not tell who has acknowledged what. -/
theorem recordAck_facts (master : Master) (id : Nat) :
    (master.recordAck id).facts = master.facts := by
  unfold recordAck
  split
  · split <;> rfl
  · rfl

/-- What is reported of a master does not tell whether a client that waits was signalled. -/
theorem poll_facts {master after : Master} {wait : AckWait}
    (h : master.poll wait = .again after) : after.facts = master.facts := by
  simp only [poll] at h
  split at h
  · split at h
    · split at h
      · simp only [reduceCtorEq] at h
      · split at h
        · simp only [reduceCtorEq] at h
        · rw [← Poll.again.inj h]
          rfl
    · simp only [reduceCtorEq] at h
  · simp only [reduceCtorEq] at h

end Master

/-- The request is about what the store holds, or about the server. -/
def Request.isPlain : Request → Bool
  | beginTransaction | runTransaction | dropTransaction => false
  | replication _ _ | resync | waitForReplicas _ _ => false
  | _ => true

namespace Engine

/-- What a client does, or what is done if it is none, leads from one engine to another. -/
structure Acts (client : Option Nat) (deeds : List Deed) (before after : Engine) : Prop where
  replays : Replays before deeds after
  client_eq : ∀ deed ∈ deeds, deed.client = client

section Acting

variable {client : Option Nat} {deeds later : List Deed} {before middle after : Engine}

/-- Where nothing can be told apart, nothing was done. -/
theorem Same.acts (h : before.Same after) : Acts client [] before after := ⟨.done h, by simp⟩

/-- What is done in two stretches is done in one. -/
theorem Acts.trans (h : Acts client deeds before middle) (h' : Acts client later middle after) :
    Acts client (deeds ++ later) before after := by
  refine ⟨h.replays.append h'.replays, fun deed hdeed => ?_⟩
  rcases List.mem_append.mp hdeed with hfirst | hlater
  · exact h.client_eq deed hfirst
  · exact h'.client_eq deed hlater

/-- A change that no request can tell may follow what is done. -/
theorem Acts.trans_same (h : Acts client deeds before middle) (hsame : middle.Same after) :
    Acts client deeds before after :=
  ⟨h.replays.trans_same hsame, h.client_eq⟩

/-- A change that no request can tell may come before what is done. -/
theorem Same.trans_acts (hsame : before.Same middle) (h : Acts client deeds middle after) :
    Acts client deeds before after :=
  ⟨h.replays.congr hsame.symm, h.client_eq⟩

end Acting

/-- A change of the master is not seen if it leaves what is reported. -/
theorem same_updateMaster (engine : Engine) (update : Master → Master)
    (h : ∀ master, (update master).facts = master.facts) :
    engine.Same (engine.updateMaster update) := by
  unfold updateMaster
  cases hrole : engine.role with
  | master master => exact ⟨rfl, rfl, by simp only [hrole, Role.facts, h], fun _ => rfl⟩
  | replica replica => exact .refl engine

/-- The history of commands is not reported. -/
theorem same_record (engine : Engine) (command : Command) :
    engine.Same (engine.record command).2 := by
  unfold record
  cases hrole : engine.role with
  | master master => exact ⟨rfl, rfl, by rw [hrole]; rfl, fun _ => rfl⟩
  | replica replica => exact .refl engine

/-- What became of a command is not reported. -/
theorem same_conclude (engine : Engine) (index : Option Nat) (response : Response) :
    engine.Same (engine.conclude index response) := by
  cases index with
  | none => exact .refl engine
  | some index => exact engine.same_updateMaster _ fun _ => rfl

/-- Readers and links are nothing that a request can tell. -/
theorem same_readers (engine : Engine) (readers : Readers) : engine.Same { engine with readers } :=
  ⟨rfl, rfl, rfl, fun _ => rfl⟩

/-- What is written to links is nothing that a request can tell. -/
theorem same_links (engine : Engine) (links : Links) : engine.Same { engine with links } :=
  ⟨rfl, rfl, rfl, fun _ => rfl⟩

section Commands

variable (client : Nat) (engine : Engine) (now : UInt64)

/-- A request that is run does what it is seen to do: a read of streams in many deeds, and any other
    in one. -/
theorem run_acts (request : Request) :
    ∃ deeds, Acts (some client) deeds engine (engine.run now request).2 ∧
      Makes client request deeds (engine.run now request).1 := by
  rcases Makes.of_run client now engine request with ⟨deeds, hmakes, hreplays⟩
  exact ⟨deeds, ⟨hreplays, hmakes.client_eq⟩, hmakes⟩

/-- Looking at the streams of a read is a deed for each of them. -/
theorem readAll_acts (count : Option Nat) (cursors : List Cursor) :
    ∃ deeds, Acts (some client) deeds engine (engine.readAll now count cursors).2 ∧
      Looks client count cursors deeds (engine.readAll now count cursors).1 := by
  rcases Looks.of_readAll client now count cursors engine with ⟨deeds, hlooks, hreplays⟩
  exact ⟨deeds, ⟨hreplays, hlooks.client_eq⟩, hlooks⟩

/-- A reader that looks leaves the registry of readers or not, which no request can tell. -/
theorem same_look (reader : Nat) (cursors : List Cursor) (count : Option Nat) :
    (engine.readAll now count cursors).2.Same (engine.look now reader cursors count).2 := by
  unfold look
  rcases hall : engine.readAll now count cursors with ⟨_ | _ | ⟨reply, replies⟩, after⟩
  · exact after.same_readers _
  · exact .refl after
  · exact after.same_readers _

-- A reader that finds something answers with what it finds.
theorem eq_of_look {reader : Nat} {cursors : List Cursor} {count : Option Nat}
    {result : Except Error Reply} (h : (engine.look now reader cursors count).1 = some result) :
    result = (engine.readAll now count cursors).1.map Cursor.readReply := by
  unfold look at h
  rcases hall : engine.readAll now count cursors with ⟨_ | _ | ⟨reply, replies⟩, after⟩
  · rw [hall] at h
    exact (Option.some.inj h).symm
  · rw [hall] at h
    simp at h
  · rw [hall] at h
    exact (Option.some.inj h).symm

/-- A registered reader does no more than to look at its streams. -/
theorem look_acts (reader : Nat) (cursors : List Cursor) (count : Option Nat) :
    ∃ deeds, Acts (some client) deeds engine (engine.look now reader cursors count).2 ∧
      Looks client count cursors deeds (engine.readAll now count cursors).1 := by
  rcases engine.readAll_acts client now count cursors with ⟨deeds, hacts, hlooks⟩
  exact ⟨deeds, hacts.trans_same (engine.same_look now reader cursors count), hlooks⟩

/-- A read that is started, with its answer if it has one at once. -/
theorem startRead_acts (arguments : List String) :
    ∃ deeds, Acts (some client) deeds engine (engine.startRead now arguments).2 ∧
      ∀ result, (engine.startRead now arguments).1 = .answered result →
        Makes client (.readStreams arguments) deeds result := by
  simp only [startRead, openRead]
  cases hread : StreamRead.ofArguments {} arguments with
  | error e =>
      refine ⟨[], (Same.refl engine).acts, fun result hresult => ?_⟩
      obtain rfl := Progress.answered.inj hresult
      exact .unread hread
  | ok read =>
      rcases Resolves.of_resolveAll client now read.starts engine with
        ⟨deeds, hresolves, hreplays⟩
      have hopen : Acts (some client) deeds engine _ := ⟨hreplays, hresolves.client_eq⟩
      simp only [withKeyspace] at hopen ⊢
      rcases hresolve : Cursor.resolveAll engine.keyspace now read.starts with
        ⟨e | cursors, keyspace⟩
      · rw [hresolve] at hresolves hopen
        refine ⟨deeds, hopen, fun result hresult => ?_⟩
        obtain rfl := Progress.answered.inj hresult
        exact .unresolved hread hresolves
      · rw [hresolve] at hresolves hopen
        simp only [Except.map]
        cases read.block with
        | none =>
            rcases readAll_acts client { engine with keyspace } now read.count cursors with
              ⟨later, hacts, hlooks⟩
            refine ⟨deeds ++ later, hopen.trans hacts, fun result hresult => ?_⟩
            obtain rfl := Progress.answered.inj hresult
            exact .reads hread hresolves hlooks
        | some ms =>
            -- The reader is registered before it looks.
            have hregister := hopen.trans_same
              (same_readers _ (engine.readers.register read.keys).2)
            rcases look_acts client
                { engine with keyspace, readers := (engine.readers.register read.keys).2 } now
                (engine.readers.register read.keys).1 cursors read.count with
              ⟨later, hacts, hlooks⟩
            refine ⟨deeds ++ later, ?_, fun result hresult => ?_⟩
            · have hlast := hregister.trans hacts
              simp only
              split
              · rename_i hlooked
                rw [hlooked] at hlast
                exact hlast
              · rename_i hlooked
                rw [hlooked] at hlast
                exact hlast
            · simp only at hresult
              split at hresult
              · rename_i hlooked
                obtain rfl := Progress.answered.inj hresult
                rw [eq_of_look _ now (congrArg Prod.fst hlooked)]
                exact .reads hread hresolves hlooks
              · simp at hresult

/-- A command that looks for a wake-up does nothing, or looks at its streams again. -/
theorem poll_acts (waiting : Waiting) :
    ∃ deeds, Acts (some client) deeds engine (engine.poll now waiting).2 := by
  cases waiting with
  | entries reader cursors count =>
      simp only [poll]
      split
      · rcases look_acts client { engine with readers := engine.readers.consume reader } now reader
          cursors count with ⟨deeds, hacts, -⟩
        exact ⟨deeds, (engine.same_readers _).trans_acts hacts⟩
      · exact ⟨[], (Same.refl engine).acts⟩
  | acks wait =>
      refine ⟨[], ?_⟩
      simp only [poll]
      cases hrole : engine.role with
      | replica replica => exact (Same.refl engine).acts
      | master master =>
          simp only
          rcases hpoll : master.poll wait with acks | after | _
          · exact (engine.same_updateMaster _ fun master => master.leave_facts wait).acts
          · have hfacts := Master.poll_facts hpoll
            exact Same.acts ⟨rfl, rfl, by simp only [hrole, Role.facts, hfacts], fun _ => rfl⟩
          · exact (Same.refl engine).acts

/-- A command that gives up does nothing, or looks at its streams again. -/
theorem expire_acts (waiting : Waiting) :
    ∃ deeds, Acts (some client) deeds engine (engine.expire now waiting).2 := by
  cases waiting with
  | entries reader cursors count =>
      rcases engine.readAll_acts client now count cursors with ⟨deeds, hacts, -⟩
      exact ⟨deeds, hacts.trans_same (same_readers _ _)⟩
  | acks wait =>
      refine ⟨[], ?_⟩
      simp only [expire]
      cases engine.role with
      | replica replica => exact (Same.refl engine).acts
      | master master =>
          exact (engine.same_updateMaster _ fun master => master.leave_facts wait).acts

/-- What a replica says about itself, or acknowledges, no request can tell. -/
theorem same_converse (replicaId : Option Nat) (option : String) (arguments : List String) :
    engine.Same (engine.converse replicaId option arguments).2 := by
  unfold converse
  simp only
  split
  · split
    · exact engine.same_updateMaster _ fun master => master.recordAck_facts _
    · exact .refl engine
  · split
    · exact .refl engine
    · split <;> exact .refl engine

/-- A request that is no write is started by one client, unless it asks the replicas. -/
theorem startRequest_acts (index : Option Nat) {command : Command} {request : Request}
    (hkind : command.name.kind ≠ .write)
    (hwait : ∀ wanted timeout, request = .waitForReplicas wanted timeout →
      engine.waitOf index wanted timeout = none) :
    ∃ deeds, Acts (some client) deeds engine (engine.startRequest now index command request).2 ∧
      (request.isPlain = true → ∀ result,
        (engine.startRequest now index command request).1 = .answered result →
          Makes client request deeds result) := by
  cases request with
  | readStreams arguments =>
      rcases engine.startRead_acts client now arguments with ⟨deeds, hacts, hmakes⟩
      exact ⟨deeds, hacts, fun _ => hmakes⟩
  | waitForReplicas wanted timeout =>
      rcases startWait_of_none now (hwait wanted timeout rfl) with ⟨result, hstart⟩
      simp only [startRequest, hstart]
      exact ⟨[], (Same.refl engine).acts, by simp [Request.isPlain]⟩
  | _ =>
      simp only [startRequest]
      split
      · rename_i hwrite
        exact absurd hwrite hkind
      · rcases engine.run_acts client now _ with ⟨deeds, hacts, hmakes⟩
        refine ⟨deeds, hacts, fun _ result hresult => ?_⟩
        obtain rfl := Progress.answered.inj hresult
        exact hmakes

/-- What a session does that runs no queue. -/
theorem perform_acts (session : Session) (index : Option Nat) {command : Command}
    {request : Request} (hkind : command.name.kind ≠ .write)
    (hqueue : request = .runTransaction → session.transaction = .closed)
    (hwait : ∀ wanted timeout, request = .waitForReplicas wanted timeout →
      engine.waitOf index wanted timeout = none) :
    ∃ deeds,
      Acts (some client) deeds engine (engine.perform session now index command request).2.1 ∧
      (request.isPlain = true → ∀ response,
        (engine.perform session now index command request).1 = .answered response →
          ∃ result, Makes client request deeds result ∧ response = .ofExcept result) := by
  rcases engine.startRequest_acts client now index hkind hwait with ⟨deeds, hstart, hmakes⟩
  cases request with
  | beginTransaction | dropTransaction | resync =>
      exact ⟨[], (Same.refl engine).acts, by simp [Request.isPlain]⟩
  | replication option arguments =>
      exact ⟨[], (engine.same_converse session.replicaId option arguments).acts,
        by simp [Request.isPlain]⟩
  | runTransaction =>
      -- Without a transaction there is no queue to run.
      simp only [perform, hqueue rfl, Transaction.take]
      exact ⟨[], (Same.refl engine).acts, by simp [Request.isPlain]⟩
  | _ =>
      simp only [perform]
      split
      · rename_i result after hstarted
        rw [hstarted] at hstart hmakes
        refine ⟨deeds, hstart, fun hplain response hresponse => ⟨result, hmakes hplain _ rfl, ?_⟩⟩
        exact (Dispatch.answered.inj hresponse).symm
      · rename_i pending after hstarted
        rw [hstarted] at hstart
        exact ⟨deeds, hstart, fun _ _ hresponse => by simp at hresponse⟩

/-- A quick command is done by one client. -/
theorem handle_acts {session : Session} {index : Option Nat} {command : Command}
    (h : engine.route session index command = .quick) :
    ∃ deeds, Acts (some client) deeds engine (engine.handle session now index command).2.1 ∧
      ∀ request response, Request.ofCommand command = .ok request → request.isPlain = true →
        session.transaction = .closed →
        (engine.handle session now index command).1 = .answered response →
          ∃ result, Makes client request deeds result ∧ response = .ofExcept result := by
  cases hrequest : Request.ofCommand command with
  | error e =>
      rw [handle_refused hrequest]
      exact ⟨[], (Same.refl engine).acts, by simp⟩
  | ok request =>
      cases htransaction : session.transaction with
      | closed =>
          have hread : command.name.kind ≠ .write := by
            intro hkind
            have hwrite := (Request.kind_eq_write_iff hrequest).mp hkind
            simp [route_of_write hrequest hwrite htransaction] at h
          have hwait : ∀ wanted timeout, request = .waitForReplicas wanted timeout →
              engine.waitOf index wanted timeout = none := by
            rintro wanted timeout rfl
            exact waitOf_of_quick hrequest htransaction h
          rw [handle_of_closed hrequest htransaction]
          rcases engine.perform_acts client now session index hread (fun _ => htransaction)
            hwait with ⟨deeds, hacts, hmakes⟩
          refine ⟨deeds, hacts, fun _ response hsame hplain _ hresponse => ?_⟩
          obtain rfl := Except.ok.inj hsame
          exact hmakes hplain response hresponse
      | opened queue =>
          -- In a transaction nothing is done but to queue, or to open or close it.
          refine ⟨[], ?_, by simp⟩
          by_cases hcontrol : command.name.isTransactionControl = true
          · rw [handle_of_control hrequest hcontrol]
            rcases Request.eq_of_isTransactionControl hrequest hcontrol with rfl | rfl | rfl
            · exact (Same.refl engine).acts
            · simp only [route, hrequest, htransaction, reduceCtorEq] at h
            · exact (Same.refl engine).acts
          · rw [handle_of_opened hrequest htransaction (by simpa using hcontrol)]
            exact (Same.refl engine).acts

end Commands

end Engine

end KeyValue
