import KeyValue.Proofs.Engine.Queueing
import KeyValue.Proofs.Replication.Propagation

/-!
# Writes that are withheld from the replicas

The replicas are sent the writes that run at once, and not those that run in a transaction.

The commands of a queue can be dispatched by themselves, one after the other. Each of them sends some
frames, the write that it is if it runs at once and succeeds (`dispatch_sends`); so together they
send the writes that succeeded, in order (`Dispatches.sends`). When the queue is run, nothing is
sent at all. The two agree only where no write succeeds.

## Main definitions

* `Answered`, `Answered.writes`: A command with its response, and the write to be forwarded.
* `Finishes`, `Dispatches`: Commands are dispatched, each when the one before was answered.
* `Engine.Sends`: Frames are sent to all replicas.

## Theorems

* `Engine.dispatch_sends`: What one command sends.
* `Dispatches.exists_of_queue`: Any commands can be dispatched.
* `Dispatches.sends`: What they send.
* `Engine.withholds_writes`: A queue that is run sends nothing.
-/

namespace KeyValue

/-- A command of a session, with the session before and the response. -/
structure Answered where
  session : Session
  command : Command
  response : Response

/-- The write that is to be forwarded: it was run at once, and succeeded. -/
def Answered.writes (answered : Answered) : List Command :=
  if answered.session.transaction.isOpen = false ∧ answered.command.name.kind = .write ∧
    answered.response.isFailure = false then [answered.command] else []

/-- The writes that are to be forwarded, in order. -/
def writesOf (log : List Answered) : List Command := log.flatMap (·.writes)

theorem writesOf_cons (answered : Answered) (log : List Answered) :
    writesOf (answered :: log) = answered.writes ++ writesOf log :=
  List.flatMap_cons ..

-- What is to be forwarded is one of the commands.
theorem mem_of_writesOf {command : Command} {log : List Answered} (h : command ∈ writesOf log) :
    command ∈ log.map (·.command) := by
  rcases List.mem_flatMap.mp h with ⟨answered, hanswered, hwrites⟩
  unfold Answered.writes at hwrites
  split at hwrites
  · rw [List.mem_singleton.mp hwrites]
    exact List.mem_map_of_mem hanswered
  · simp at hwrites

/-- A command that was dispatched can be answered this. -/
def Dispatch.Allows (response : Response) : Dispatch → Prop
  | .answered other => other = response
  | .waits _ _ => True

/-- A command that waits looks any number of times, until it is answered. -/
inductive Finishes (pending : Pending) (index : Option Nat) : Engine → Response → Engine → Prop
  | looks {before middle after : Engine} {response : Response} (now : UInt64)
      (hlook : before.resume now pending index = (none, middle))
      (rest : Finishes pending index middle response after) :
      Finishes pending index before response after
  | resumes {before after : Engine} {response : Response} (now : UInt64)
      (hlook : before.resume now pending index = (some response, after)) :
      Finishes pending index before response after
  | givesUp {before after : Engine} {response : Response} (now : UInt64)
      (hover : before.giveUp now pending index = (response, after)) :
      Finishes pending index before response after

/-- Commands of a session are dispatched, each when the one before was answered. -/
inductive Dispatches : Engine → Session → List Answered → Engine → Prop
  | done (engine : Engine) (session : Session) : Dispatches engine session [] engine
  | answers {before middle after : Engine} {session next : Session} {command : Command}
      {response : Response} {log : List Answered} (now : UInt64)
      (hdispatch : before.dispatch session now command = (.answered response, middle, next))
      (rest : Dispatches middle next log after) :
      Dispatches before session (⟨session, command, response⟩ :: log) after
  | waits {before waiting middle after : Engine} {session next : Session} {command : Command}
      {pending : Pending} {index : Option Nat} {response : Response} {log : List Answered}
      (now : UInt64)
      (hdispatch : before.dispatch session now command = (.waits pending index, waiting, next))
      (hfinishes : Finishes pending index waiting response middle)
      (rest : Dispatches middle next log after) :
      Dispatches before session (⟨session, command, response⟩ :: log) after

/-- Any commands can be dispatched one after the other. -/
theorem Dispatches.exists_of_queue (queue : List Command) :
    ∀ (engine : Engine) (session : Session), ∃ log after,
      Dispatches engine session log after ∧ log.map (·.command) = queue := by
  induction queue with
  | nil => exact fun engine session => ⟨[], engine, .done engine session, rfl⟩
  | cons command rest ih =>
      intro engine session
      rcases hdispatch : engine.dispatch session 0 command with
        ⟨response | ⟨pending, index⟩, middle, next⟩
      · rcases ih middle next with ⟨log, after, hrest, rfl⟩
        exact ⟨_, after, .answers 0 hdispatch hrest, rfl⟩
      · -- A command that waits may give up at once.
        rcases hover : middle.giveUp 0 pending index with ⟨response, ended⟩
        rcases ih ended next with ⟨log, after, hrest, rfl⟩
        exact ⟨_, after, .waits 0 hdispatch (.givesUp 0 hover) hrest, rfl⟩

namespace Engine

/-- Frames are sent to all replicas, each once for each replica that is registered on a link. -/
structure Sends (before : Engine) (frames : List Frame) (after : Engine) : Prop where
  registry : after.registry = before.registry
  isOpen : ∀ link, after.links.isOpen link = before.links.isOpen link
  written : ∀ link, before.links.isOpen link = true →
    after.links.written link = before.links.written link ++
      frames.flatMap fun frame => (List.replicate (before.copies link) frame.bytes).flatten

theorem Still.sends {before after : Engine} (h : before.Still after) : before.Sends [] after :=
  ⟨h.registry, fun link => by rw [h.links], fun link _ => by simp [h.links]⟩

theorem sends_propagate (engine : Engine) (frame : Frame) :
    engine.Sends [frame] (engine.propagate frame.bytes) := by
  refine ⟨?_, engine.propagate_isOpen frame.bytes, fun link hopen => ?_⟩
  · rw [propagate_eq]
    rfl
  · rw [engine.written_propagate_copies frame.bytes hopen, List.flatMap_singleton]

theorem Sends.trans {frames later : List Frame} {before middle after : Engine}
    (h : before.Sends frames middle) (h' : middle.Sends later after) :
    before.Sends (frames ++ later) after := by
  have hcopies : ∀ link, middle.copies link = before.copies link := by
    intro link
    simp only [copies, peers, h.registry]
  refine ⟨h'.registry.trans h.registry, fun link => (h'.isOpen link).trans (h.isOpen link),
    fun link hopen => ?_⟩
  rw [h'.written link ((h.isOpen link).trans hopen), h.written link hopen, hcopies,
    List.flatMap_append, List.append_assoc]

theorem Still.trans {before middle after : Engine} (h : before.Still middle)
    (h' : middle.Still after) : before.Still after :=
  ⟨h'.links.trans h.links, h'.registry.trans h.registry⟩

/-- Nothing is sent while a queue is run. -/
theorem runQueue_still (now : UInt64) (queue : List Command) :
    ∀ engine : Engine, engine.Still (engine.runQueue now queue).2 := by
  induction queue with
  | nil => exact .refl
  | cons command rest ih =>
      intro engine
      exact (Still.of_frame (engine.runCommand_frame now command)).trans (ih _)

section Commands

variable {engine : Engine} {session : Session} {now : UInt64} {index : Option Nat}
  {command : Command} {request : Request}

-- A write that is run at once is sent if it succeeds.
theorem runAndForward_sends (engine : Engine) (now : UInt64) (hkind : command.name.kind = .write)
    (hwrite : request.isWrite = true) (hclosed : session.transaction.isOpen = false) :
    engine.Sends
      ((Answered.mk session command (.ofExcept (engine.run now request).1)).writes.map .write)
      (engine.runAndForward now command.raw request) := by
  have hreply : ∀ reply, (engine.run now request).1 = .ok reply → reply.isError = false :=
    fun _ => engine.run_write_ok now hwrite
  have hstill := Still.of_frame (engine.run_frame now request)
  unfold runAndForward
  rcases hrun : engine.run now request with ⟨e | reply, after⟩
  · rw [hrun] at hstill
    simpa [Answered.writes, Response.ofExcept, Response.isFailure, Reply.ofExcept, Reply.ofError,
      Reply.isError] using hstill.sends
  · rw [hrun] at hstill hreply
    have hsends := hstill.sends.trans (sends_propagate after (.write command))
    simpa [Answered.writes, Response.ofExcept, Response.isFailure, Reply.ofExcept, hclosed, hkind,
      hreply reply rfl, Frame.bytes] using hsends

/-- After it was handled, a command is only concluded. -/
theorem dispatch_outcome (engine : Engine) (session : Session) (now : UInt64) (command : Command) :
    let handled := (engine.record command).2.handle session now (engine.record command).1 command
    (engine.dispatch session now command).1 = handled.1 ∧
      (engine.dispatch session now command).2.2 = handled.2.2 := by
  unfold dispatch
  simp only
  split
  · rename_i hhandled
    simp only [hhandled, and_self]
  · rename_i hhandled
    simp only [hhandled, and_self]

-- A command that takes another way is no write that succeeds at once.
theorem writes_of_route {response : Response}
    (hroute : ∀ request, engine.route session index command ≠ .writes request)
    (hallows : (engine.handle session now index command).1.Allows response) :
    (Answered.mk session command response).writes = [] := by
  refine if_neg ?_
  rintro ⟨hclosed, hkind, hsuccess⟩
  have htransaction : session.transaction = .closed := by
    cases h : session.transaction with
    | closed => rfl
    | opened queue => simp [h, Transaction.isOpen] at hclosed
  cases hrequest : Request.ofCommand command with
  | error e =>
      rw [handle_refused hrequest] at hallows
      simp only [Dispatch.Allows] at hallows
      subst hallows
      simp [Response.refusal, Response.isFailure, Reply.ofError, Reply.isError] at hsuccess
  | ok request =>
      have hwrite := (Request.kind_eq_write_iff hrequest).mp hkind
      exact hroute request (route_of_write hrequest hwrite htransaction)

/-- A command sends some frames; of these the write is itself, if it runs at once and succeeds. -/
theorem dispatch_sends (engine : Engine) (session : Session) (now : UInt64) (command : Command)
    {response : Response} (hallows : (engine.dispatch session now command).1.Allows response) :
    ∃ frames, engine.Sends frames (engine.dispatch session now command).2.1 ∧
      frames.flatMap (·.writes) = (Answered.mk session command response).writes := by
  have hrecord := (engine.record_quiet command).still.sends
  have hlast := (dispatch_handle engine session now command).still.sends
  rw [(dispatch_outcome engine session now command).1] at hallows
  generalize (engine.record command).2 = recorded at hrecord hlast hallows
  generalize (engine.record command).1 = index at hlast hallows
  -- What is handled is sent between two parts that are quiet.
  have hall : ∀ {frames : List Frame},
      recorded.Sends frames (recorded.handle session now index command).2.1 →
        engine.Sends frames (engine.dispatch session now command).2.1 := by
    intro frames hsends
    simpa using (hrecord.trans hsends).trans hlast
  cases hroute : recorded.route session index command with
  | quick =>
      refine ⟨[], hall (handle_of_quick now hroute).still.sends, ?_⟩
      exact (writes_of_route (by simp [hroute]) hallows).symm
  | asks wait timeout =>
      have hinstall := quiet_updateMaster recorded (·.install wait) fun _ => rfl
      have hwrites := writes_of_route (by simp [hroute]) hallows
      rw [handle_of_asks hroute] at hall
      exact ⟨[.ask], hall (hinstall.still.sends.trans (sends_propagate _ .ask)), hwrites.symm⟩
  | writes request =>
      rcases route_writes hroute with ⟨hrequest, hclosed, hwrite⟩
      have hkind := (Request.kind_eq_write_iff hrequest).mpr hwrite
      rw [handle_of_writes hroute] at hall hallows
      obtain rfl : Response.ofExcept (recorded.run now request).1 = response := hallows
      refine ⟨_, hall (runAndForward_sends recorded now hkind hwrite (by rw [hclosed]; rfl)), ?_⟩
      rw [List.flatMap_map]
      simp [Frame.writes]
  | runs queue =>
      have hwrites := writes_of_route (by simp [hroute]) hallows
      rw [handle_of_runs hroute] at hall
      exact ⟨[], hall (runQueue_still now queue recorded).sends, hwrites.symm⟩

-- Outside of a transaction only some commands open one.
theorem dispatch_closed (engine : Engine) (now : UInt64) (command : Command)
    (hclosed : session.transaction = .closed) (hcontrol : command.name.isTransactionControl = false) :
    (engine.dispatch session now command).2.2.transaction = .closed := by
  rw [(dispatch_outcome engine session now command).2]
  rcases hhandle : (engine.record command).2.handle session now (engine.record command).1 command
    with ⟨dispatch, after, next⟩
  have hruns : ∀ queue, (engine.record command).2.route session (engine.record command).1 command ≠
      .runs queue := by
    intro queue hroute
    simp [(route_runs hroute).2] at hclosed
  have hqueued : dispatch.status? ≠ some "QUEUED" := by
    intro hstatus
    obtain rfl := Dispatch.eq_queued_iff.mpr hstatus
    rcases handle_queued hhandle with ⟨queue, hopened, -⟩
    simp [hopened] at hclosed
  have hmulti : command.name ≠ .multi := by
    intro hname
    simp [hname, CommandName.isTransactionControl] at hcontrol
  simp [handle_transaction hruns hhandle, Transaction.told, hqueued, hmulti, hclosed]

/-- Running a queue sends nothing. -/
theorem dispatch_still {queue : List Command} (engine : Engine) (now : UInt64)
    (hexec : Request.ofCommand command = .ok .runTransaction)
    (hopened : session.transaction = .opened queue) :
    engine.Still (engine.dispatch session now command).2.1 := by
  have hrecord := (engine.record_quiet command).still
  have hlast := (dispatch_handle engine session now command).still
  have hroute : (engine.record command).2.route session (engine.record command).1 command =
      .runs queue := by
    simp only [route, hexec, hopened]
  rw [handle_of_runs hroute] at hlast
  exact (hrecord.trans (runQueue_still now queue _)).trans hlast

end Commands

end Engine

theorem Finishes.still {pending : Pending} {index : Option Nat} {before after : Engine}
    {response : Response} (h : Finishes pending index before response after) :
    before.Still after := by
  induction h with
  | @looks before middle after response now hlook rest ih =>
      have hquiet := (before.resume_quiet now pending index).still
      rw [hlook] at hquiet
      exact hquiet.trans ih
  | @resumes before after response now hlook =>
      have hquiet := (before.resume_quiet now pending index).still
      rwa [hlook] at hquiet
  | @givesUp before after response now hover =>
      have hquiet := (before.giveUp_quiet now pending index).still
      rwa [hover] at hquiet

/-- Commands that are dispatched send their writes that succeed at once, in order. -/
theorem Dispatches.sends {before after : Engine} {session : Session} {log : List Answered}
    (h : Dispatches before session log after) :
    ∃ frames, before.Sends frames after ∧ frames.flatMap (·.writes) = writesOf log := by
  induction h with
  | done engine session => exact ⟨[], (Engine.Still.refl engine).sends, rfl⟩
  | @answers before middle after session next command response log now hdispatch rest ih =>
      rcases ih with ⟨later, hlater, hrest⟩
      have hallows : (before.dispatch session now command).1.Allows response := by
        rw [hdispatch]
        rfl
      rcases before.dispatch_sends session now command hallows with ⟨frames, hsends, hwrites⟩
      rw [hdispatch] at hsends
      refine ⟨frames ++ later, hsends.trans hlater, ?_⟩
      rw [List.flatMap_append, hwrites, hrest, writesOf_cons]
  | @waits before waiting middle after session next command pending index response log now
      hdispatch hfinishes rest ih =>
      rcases ih with ⟨later, hlater, hrest⟩
      have hallows : (before.dispatch session now command).1.Allows response := by
        rw [hdispatch]
        trivial
      rcases before.dispatch_sends session now command hallows with ⟨frames, hsends, hwrites⟩
      rw [hdispatch] at hsends
      refine ⟨frames ++ later, ?_, ?_⟩
      · simpa using (hsends.trans hfinishes.still.sends).trans hlater
      · rw [List.flatMap_append, hwrites, hrest, writesOf_cons]

/-- Of commands that neither open nor close a transaction, all writes that succeed are to be
    forwarded. -/
theorem Dispatches.writesOf_eq {before after : Engine} {session : Session} {log : List Answered}
    (h : Dispatches before session log after) (hclosed : session.transaction = .closed)
    (hcontrol : ∀ command ∈ log.map (·.command), command.name.isTransactionControl = false) :
    writesOf log = (log.filter fun answered =>
      answered.command.name.kind == .write && !answered.response.isFailure).map (·.command) := by
  -- The session of the first command is closed, and after it the session is closed again.
  have hfirst : ∀ (session : Session) (command : Command) (response : Response)
      (log : List Answered), session.transaction = .closed →
      writesOf log = (log.filter fun answered =>
        answered.command.name.kind == .write && !answered.response.isFailure).map (·.command) →
      writesOf (⟨session, command, response⟩ :: log) =
        ((⟨session, command, response⟩ :: log : List Answered).filter fun answered =>
          answered.command.name.kind == .write && !answered.response.isFailure).map (·.command) := by
    intro session command response log hclosed hlog
    rw [writesOf_cons, hlog, Answered.writes, List.filter_cons]
    by_cases hwrites : command.name.kind = .write ∧ response.isFailure = false
    · simp [hclosed, Transaction.isOpen, hwrites]
    · rw [if_neg fun hall => hwrites hall.2, if_neg (by simpa using hwrites), List.nil_append]
  induction h with
  | done engine session => rfl
  | @answers before middle after session next command response log now hdispatch rest ih =>
      have hnext := before.dispatch_closed now command hclosed (hcontrol command (by simp))
      rw [hdispatch] at hnext
      exact hfirst _ _ _ _ hclosed (ih hnext fun other hother => hcontrol other (by simp_all))
  | @waits before waiting middle after session next command pending index response log now
      hdispatch hfinishes rest ih =>
      have hnext := before.dispatch_closed now command hclosed (hcontrol command (by simp))
      rw [hdispatch] at hnext
      exact hfirst _ _ _ _ hclosed (ih hnext fun other hother => hcontrol other (by simp_all))

namespace Engine

-- A replica that is sent a write has received something.
theorem Sends.written_ne {frames : List Frame} {before after : Engine} {link : Nat}
    {command : Command} (h : before.Sends frames after) (hopen : before.links.isOpen link = true)
    (hcopies : 0 < before.copies link) (hmem : command ∈ frames.flatMap (·.writes))
    (hraw : command.raw ≠ []) : after.links.written link ≠ before.links.written link := by
  rw [h.written link hopen]
  intro hsame
  have hnothing := List.append_right_eq_self.mp hsame
  rcases List.mem_flatMap.mp hmem with ⟨frame, hframe, hwrite⟩
  have hbytes : frame.bytes ≠ [] := by
    cases frame with
    | ask => simp [Frame.writes] at hwrite
    | write other =>
        rw [Frame.writes, List.mem_singleton] at hwrite
        rwa [Frame.bytes, ← hwrite]
  have hframe := List.flatMap_eq_nil_iff.mp hnothing frame hframe
  rw [List.flatten_eq_nil_iff] at hframe
  exact hbytes (hframe _ (List.mem_replicate.mpr ⟨by omega, rfl⟩))

/-- While the queue of a transaction is run, no byte is sent to anybody. The same commands,
    dispatched one after the other, send each replica the writes that succeed, in order. So where a
    write succeeds, a replica does not receive the same. -/
theorem withholds_writes {engine : Engine} {session : Session} {command : Command}
    {queue : List Command} (now : UInt64)
    (hexec : Request.ofCommand command = .ok .runTransaction)
    (hopened : session.transaction = .opened queue) :
    let executed := (engine.dispatch session now command).2.1
    let direct := { session with transaction := .closed }
    engine.Still executed ∧
    (∃ log after, Dispatches engine direct log after ∧ log.map (·.command) = queue) ∧
    ∀ log after, Dispatches engine direct log after → log.map (·.command) = queue →
      (∃ frames, engine.Sends frames after ∧ frames.flatMap (·.writes) = writesOf log) ∧
      ((∀ command ∈ queue, command.name.isTransactionControl = false) →
        writesOf log = (log.filter fun answered =>
          answered.command.name.kind == .write && !answered.response.isFailure).map (·.command)) ∧
      ∀ link, engine.links.isOpen link = true → 0 < engine.copies link →
        (∀ command ∈ queue, command.raw ≠ []) → writesOf log ≠ [] →
        after.links.written link ≠ executed.links.written link := by
  intro executed direct
  have hstill : engine.Still executed := engine.dispatch_still now hexec hopened
  refine ⟨hstill, Dispatches.exists_of_queue queue engine direct,
    fun log after hdispatches hqueue => ⟨hdispatches.sends, fun hcontrol => ?_, ?_⟩⟩
  · exact hdispatches.writesOf_eq rfl (by rwa [hqueue])
  · intro link hopen hcopies hraw hwrites
    rcases hdispatches.sends with ⟨frames, hsends, hframes⟩
    rcases List.exists_mem_of_ne_nil _ hwrites with ⟨write, hwrite⟩
    rw [hstill.links]
    refine hsends.written_ne hopen hcopies (by rwa [hframes]) (hraw write ?_)
    rw [← hqueue]
    exact mem_of_writesOf hwrite

/-- A master with one replica, on the first link. -/
def withReplica : Engine :=
  { start {} .missing "id" with
    links := Links.empty.connect.2
    role := .master (({ replicationId := "id" } : Master).register 0).2 }

/-- A write is sent if it is dispatched by itself, and not if it is dispatched in a transaction. -/
theorem withholds_queued_write :
    let set := Command.ofParts .set ["k", "v"]
    let opened := withReplica.dispatch {} 7 (.ofParts .multi [])
    let queued := opened.2.1.dispatch opened.2.2 7 set
    let executed := queued.2.1.dispatch queued.2.2 7 (.ofParts .exec [])
    let direct := queued.2.1.dispatch {} 7 set
    executed.1 = .answered (.reply (.array [.ok])) ∧ direct.1 = .answered (.reply .ok) ∧
      executed.2.1.links.written 0 = [] ∧ direct.2.1.links.written 0 = set.raw ∧
      executed.2.1.links.written 0 ≠ direct.2.1.links.written 0 := by
  refine ⟨rfl, rfl, ?_, ?_, ?_⟩ <;> decide +kernel

/-- A queue with a write that succeeds, one that fails and a read, and the same commands by
    themselves. -/
theorem withholds_writes_of_three :
    let queue := [Command.ofParts .set ["k", "v"], Command.ofParts .incr ["k"],
      Command.ofParts .get ["k"]]
    let session : Session := { transaction := .opened queue }
    let executed := (withReplica.dispatch session 7 (.ofParts .exec [])).2.1
    let answered := [⟨{}, .ofParts .set ["k", "v"], .reply .ok⟩,
      ⟨{}, .ofParts .incr ["k"], .refusal .notInteger⟩,
      ⟨{}, .ofParts .get ["k"], .reply (.bulkText "v")⟩]
    ∃ after, Dispatches withReplica {} answered after ∧
      writesOf answered = [Command.ofParts .set ["k", "v"]] ∧
      after.links.written 0 ≠ executed.links.written 0 := by
  intro queue session executed answered
  obtain ⟨after, hdirect⟩ : ∃ after, Dispatches withReplica {} answered after :=
    ⟨_, .answers 7 rfl (.answers 7 rfl (.answers 7 rfl (.done _ _)))⟩
  have hwrites : writesOf answered = [Command.ofParts .set ["k", "v"]] := rfl
  have hraw : ∀ command ∈ queue, command.raw ≠ [] := by decide +kernel
  have hexec : Request.ofCommand (.ofParts .exec []) = .ok .runTransaction := rfl
  have hopened : session.transaction = .opened queue := rfl
  have hwithholds := (@withholds_writes withReplica _ _ _ 7 hexec hopened).2.2 answered after
  refine ⟨after, hdirect, hwrites, ?_⟩
  exact (hwithholds hdirect rfl).2.2 0 rfl (by decide) hraw (by simp [hwrites])

end Engine

end KeyValue
