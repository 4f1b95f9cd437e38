import KeyValue.Proofs.Engine.Dispatching

/-!
# Commands that are queued

What a session knows of its transaction can be told from the answers to its commands alone
(`Transaction.told`): a command that is answered as queued is in the queue from then on, and
opening and closing are answered with a status of their own. No other command is answered as queued
(`handle_queued`), and queueing leaves the engine as it is.

A queued command that has to do with the connection, or waits, answers without either when it is run;
so every command of the queue has one reply (`length_runQueue`).

## Main definitions

* `Reply.status?`, `Dispatch.status?`: The line of text that an answer is.
* `Transaction.told`: The transaction of a session, from the answer to a command.

## Theorems

* `run_ne_queued`: No request that runs is answered as queued.
* `handle_queued`, `handle_of_opened`: Queueing.
* `handle_refused`, `handle_of_nested`, `handle_of_unopened`: What leaves the queue as it was.
* `handle_transaction`: What a command does to the transaction of its session.
-/

namespace KeyValue

/-- The line of text that the reply is, if it is one. -/
def Reply.status? : Reply → Option String
  | simple text => some text
  | _ => none

/-- The line of text that a command is answered, if it is one. -/
def Dispatch.status? : Dispatch → Option String
  | .answered (.reply reply) => reply.status?
  | _ => none

/-- The answer to a command that is queued. -/
def Dispatch.queued : Dispatch := .answered (.reply (.simple "QUEUED"))

/-- An answer has a status exactly if it is one simple line. -/
theorem Dispatch.status?_eq_some_iff {dispatch : Dispatch} {text : String} :
    dispatch.status? = some text ↔ dispatch = .answered (.reply (.simple text)) := by
  constructor
  · intro h
    rcases dispatch with (⟨_⟩ | _ | _) | _
    case answered.reply reply =>
      cases reply <;> simp only [status?, Reply.status?, Option.some.injEq, reduceCtorEq] at h
      rw [h]
    all_goals simp only [status?, reduceCtorEq] at h
  · rintro rfl
    rfl

/-- A command is queued exactly if the answer says so. -/
theorem Dispatch.eq_queued_iff {dispatch : Dispatch} :
    dispatch = queued ↔ dispatch.status? = some "QUEUED" :=
  status?_eq_some_iff.symm

/-- The transaction of a session that had this one, and was answered this to a command that does not
    run a queue. -/
def Transaction.told (transaction : Transaction) (command : Command) (dispatch : Dispatch) :
    Transaction :=
  if dispatch.status? = some "QUEUED" then .opened (transaction.queue ++ [command])
  else if dispatch.status? = some "OK" ∧ command.name = .multi then .opened transaction.queue
  else if dispatch.status? = some "OK" ∧ command.name = .discard then .closed
  else transaction

-- A command that is in the queue was there before, or was answered as queued.
theorem Transaction.mem_told {transaction : Transaction} {command queued : Command}
    {dispatch : Dispatch} (h : queued ∈ (transaction.told command dispatch).queue) :
    queued ∈ transaction.queue ∨ queued = command ∧ dispatch = .queued := by
  unfold told at h
  split at h
  · rename_i hqueued
    rcases List.mem_append.mp h with hold | hnew
    · exact Or.inl hold
    · exact Or.inr ⟨List.mem_singleton.mp hnew, Dispatch.eq_queued_iff.mpr hqueued⟩
  · split at h
    · exact Or.inl h
    · split at h
      · simp [queue] at h
      · exact Or.inl h

namespace Request

variable {command : Command} {request : Request}

-- The commands to open and to drop a transaction are the requests of that name.
theorem eq_begin_of_name (hname : command.name = .multi) (h : ofCommand command = .ok request) :
    request = .beginTransaction := by
  rw [name_eq h] at hname
  cases request <;> simp [name] at hname ⊢

theorem eq_drop_of_name (hname : command.name = .discard) (h : ofCommand command = .ok request) :
    request = .dropTransaction := by
  rw [name_eq h] at hname
  cases request <;> simp [name] at hname ⊢

end Request

namespace Engine

theorem ofExcept_status (e : Error) : (Reply.ofExcept (.error e)).status? = none := rfl

/-- The answer to a read is an array or a null reply, so nobody takes it for the word of a queued
    command. -/
theorem readReply_status (replies : List Reply) : (Cursor.readReply replies).status? = none := by
  unfold Cursor.readReply
  split <;> rfl

/-- The report is one byte string. -/
theorem info_eq_bulkText (role : Role) (topic : Option String) :
    ∃ text, Report.info role topic = .bulkText text := by
  simp only [Report.info]
  exact ⟨_, (apply_ite Reply.bulkText _ _ _).symm⟩

variable (engine : Engine) (now : UInt64)

/-- No request that runs is answered as queued. -/
theorem run_ne_queued (request : Request) :
    (Reply.ofExcept (engine.run now request).1).status? ≠ some "QUEUED" := by
  cases request with
  | ping message => cases message <;> simp [run, Reply.ofExcept, Reply.status?, Reply.bulkText]
  | echo message => simp [run, Reply.ofExcept, Reply.status?, Reply.bulkText]
  | set key value options =>
      simp only [run, withKeyspace, KeyCommand.set]
      cases KeyCommand.deadlineOf now .never options <;>
        simp [Reply.ofExcept, Reply.status?, Reply.ok, Reply.ofError]
  | get key =>
      simp only [run, withKeyspace, KeyCommand.get]
      rcases engine.keyspace.get now key with ⟨_ | value, after⟩
      · simp only
        rcases engine.file.lookup? now key with e | _ | entry <;>
          simp [Except.map, Reply.ofExcept, Reply.status?, Reply.ofError, Reply.bulkText]
      · cases value <;> simp [KeyCommand.valueReply, Reply.ofExcept, Reply.status?, Reply.ofError,
          Reply.bulkText]
  | increment key =>
      simp only [run, withKeyspace, KeyCommand.increment]
      rcases (engine.keyspace.increment now key).1 with e | number <;>
        simp [Except.map, Reply.ofExcept, Reply.status?, Reply.ofError]
  | type key =>
      simp only [run, withKeyspace, KeyCommand.type]
      rcases engine.keyspace.kind now key with ⟨_ | kind, after⟩
      · simp only
        rcases engine.file.lookup? now key with e | _ | entry <;>
          simp [Except.map, Reply.ofExcept, Reply.status?, Reply.ofError, ValueKind.typeName]
      · cases kind <;> simp [Reply.ofExcept, Reply.status?, ValueKind.typeName]
  | keys pattern =>
      simp only [run, withKeyspace, KeyCommand.keys]
      rcases engine.file.keys now with e | inFile <;>
        simp [Except.map, Reply.ofExcept, Reply.status?, Reply.ofError, Reply.bulkTexts]
  | info topic =>
      rcases info_eq_bulkText engine.role topic with ⟨text, htext⟩
      simp [run, htext, Reply.ofExcept, Reply.status?, Reply.bulkText]
  | config action parameters =>
      simp only [run, Report.config]
      split <;> simp [Reply.ofExcept, Reply.status?, Reply.ofError, Reply.bulkTexts]
  | waitForReplicas wanted timeout =>
      simp only [run]
      rcases waitNumbers wanted timeout with e | numbers <;>
        simp [Except.map, Reply.ofExcept, Reply.status?, Reply.ofError]
  | addEntry key id fields =>
      rw [(engine.run_addEntry now key id fields).1]
      rcases (StreamCommand.addEntry engine.keyspace now key id fields).1 with e | added <;>
        simp [Except.map, Reply.ofExcept, Reply.status?, Reply.ofError, Reply.bulkText]
  | range key start stop options =>
      simp only [run, withKeyspace, StreamCommand.range]
      split
      · simp [Reply.ofExcept, Reply.status?, Reply.ofError]
      · rename_i start stop count _
        rcases (engine.keyspace.range now key start stop count).1 with e | entries <;>
          simp [Except.map, Reply.ofExcept, Reply.status?, Reply.ofError,
            StreamCommand.entriesReply]
  | readStreams arguments =>
      simp only [run]
      rcases engine.openRead now arguments with ⟨e | ⟨read, cursors⟩, opened⟩
      · simp [Reply.ofExcept, Reply.status?, Reply.ofError]
      · simp only
        rcases (opened.readAll now read.count cursors).1 with e | replies
        · simp [Except.map, Reply.ofExcept, Reply.status?, Reply.ofError]
        · simp [Except.map, Reply.ofExcept, readReply_status]
  | beginTransaction | runTransaction | dropTransaction | replication | resync =>
      simp [run, Reply.ofExcept, Reply.status?, Reply.ofError]

/-- Every command of a queue has one reply. -/
theorem length_runQueue (queue : List Command) :
    ∀ engine : Engine, (engine.runQueue now queue).1.length = queue.length := by
  induction queue with
  | nil => exact fun _ => rfl
  | cons command rest ih =>
      intro engine
      simp only [runQueue, List.length_cons, ih]

variable {engine now} {session session' : Session} {index : Option Nat} {command : Command}
  {dispatch : Dispatch} {after : Engine}

/-- A read does not answer like a command that is queued. -/
theorem startRead_ne_queued {arguments : List String} {result : Except Error Reply}
    (h : engine.startRead now arguments = (.answered result, after)) :
    (Reply.ofExcept result).status? ≠ some "QUEUED" := by
  have hread : ∀ result : Except Error (List Reply),
      (Reply.ofExcept (result.map Cursor.readReply)).status? ≠ some "QUEUED" := by
    rintro (e | replies)
    · simp [Except.map, Reply.ofExcept, Reply.ofError, Reply.status?]
    · simp [Except.map, Reply.ofExcept, readReply_status]
  have herror : ∀ e : Error, (Reply.ofExcept (.error e)).status? ≠ some "QUEUED" := by
    simp [ofExcept_status]
  unfold startRead at h
  split at h
  · rw [← Progress.answered.inj (Prod.mk.inj h).1]
    exact herror _
  · split at h
    · rw [← Progress.answered.inj (Prod.mk.inj h).1]
      exact hread _
    · -- The reader looks once before it waits.
      simp only at h
      split at h
      · rename_i looked hlook
        rw [← Progress.answered.inj (Prod.mk.inj h).1]
        unfold look at hlook
        split at hlook
        · rw [← Option.some.inj (Prod.mk.inj hlook).1]
          exact herror _
        · simp at hlook
        · rw [← Option.some.inj (Prod.mk.inj hlook).1]
          simp [Reply.ofExcept, readReply_status]
      · simp at h

theorem startWait_ne_queued {wanted timeout : String} {result : Except Error Reply}
    (h : engine.startWait now index wanted timeout = (.answered result, after)) :
    (Reply.ofExcept result).status? ≠ some "QUEUED" := by
  unfold startWait at h
  split at h
  · rw [← Progress.answered.inj (Prod.mk.inj h).1]
    simp [ofExcept_status]
  · split at h
    · split at h
      · rw [← Progress.answered.inj (Prod.mk.inj h).1]
        simp [Reply.ofExcept, Reply.status?, countReply]
      · simp at h
    · rw [← Progress.answered.inj (Prod.mk.inj h).1]
      simp [Reply.ofExcept, Reply.status?, countReply]

/-- No request that is started answers like a command that is queued. -/
theorem startRequest_ne_queued {request : Request} {result : Except Error Reply}
    (h : engine.startRequest now index command request = (.answered result, after)) :
    (Reply.ofExcept result).status? ≠ some "QUEUED" := by
  have hrun := engine.run_ne_queued now request
  cases request with
  | readStreams arguments => exact startRead_ne_queued h
  | waitForReplicas wanted timeout => exact startWait_ne_queued h
  | _ =>
      simp only [startRequest, Prod.mk.injEq, Progress.answered.injEq] at h
      rwa [h.1] at hrun

/-- What a replica says is not answered like a command that is queued. -/
theorem converse_ne_queued (engine : Engine) (replicaId : Option Nat) (option : String)
    (arguments : List String) :
    (Dispatch.answered (engine.converse replicaId option arguments).1).status? ≠
      some "QUEUED" := by
  simp only [converse]
  split
  · split <;> simp [Dispatch.status?]
  · split
    · simp [Dispatch.status?, Reply.status?, acknowledgement, Reply.bulkTexts]
    · split
      · simp [Dispatch.status?, Reply.status?, Reply.ok]
      · simp [Dispatch.status?, Reply.status?, Reply.failure]

/-- What a session does with a request outside of a queue, when no queue is run: it is not answered as
    queued, and the transaction changes as the answer tells. -/
theorem perform_transaction {request : Request}
    (hrequest : Request.ofCommand command = .ok request)
    (hqueue : request = .runTransaction → session.transaction = .closed)
    (h : engine.perform session now index command request = (dispatch, after, session')) :
    dispatch.status? ≠ some "QUEUED" ∧
      session'.transaction = session.transaction.told command dispatch := by
  -- Where the transaction stays, the command is none that opens or drops one.
  have hstays : ∀ dispatch : Dispatch, dispatch.status? ≠ some "QUEUED" →
      request ≠ .beginTransaction → request ≠ .dropTransaction →
        session.transaction = session.transaction.told command dispatch := by
    intro dispatch hqueued hbegin hdrop
    unfold Transaction.told
    rw [if_neg hqueued, if_neg, if_neg]
    · exact fun hdiscard => hdrop (Request.eq_drop_of_name hdiscard.2 hrequest)
    · exact fun hmulti => hbegin (Request.eq_begin_of_name hmulti.2 hrequest)
  cases request with
  | beginTransaction =>
      simp only [perform, Prod.mk.injEq] at h
      rcases h with ⟨rfl, -, rfl⟩
      have hname : command.name = .multi := Request.name_eq hrequest
      simp [Dispatch.status?, Reply.status?, Reply.ok, Transaction.told, hname, Transaction.begin]
  | dropTransaction =>
      simp only [perform, Prod.mk.injEq] at h
      rcases h with ⟨rfl, -, rfl⟩
      have hname : command.name = .discard := Request.name_eq hrequest
      cases htransaction : session.transaction <;>
        simp [Transaction.discard, Except.map, Response.ofExcept, Reply.ofExcept, Reply.ofError,
          Dispatch.status?, Reply.status?, Reply.ok, Transaction.told, hname]
  | runTransaction =>
      simp only [perform, hqueue rfl, Transaction.take, Prod.mk.injEq] at h
      rcases h with ⟨rfl, -, rfl⟩
      simp [Response.refusal, Reply.ofError, Dispatch.status?, Reply.status?, Transaction.told,
        hqueue rfl]
  | resync =>
      simp only [perform, Prod.mk.injEq] at h
      rcases h with ⟨rfl, -, rfl⟩
      have hanswer : (Dispatch.answered engine.resync).status? ≠ some "QUEUED" := by
        unfold Engine.resync
        split <;> simp [Dispatch.status?, Reply.status?, Reply.failure]
      exact ⟨hanswer, hstays _ hanswer (by simp) (by simp)⟩
  | replication option arguments =>
      simp only [perform, Prod.mk.injEq] at h
      rcases h with ⟨rfl, -, rfl⟩
      have hanswer := engine.converse_ne_queued session.replicaId option arguments
      exact ⟨hanswer, hstays _ hanswer (by simp) (by simp)⟩
  | _ =>
      simp only [perform] at h
      split at h
      · rename_i result hstarted
        rcases Prod.mk.inj h with ⟨rfl, hrest⟩
        rw [← (Prod.mk.inj hrest).2]
        have hanswer := startRequest_ne_queued hstarted
        exact ⟨hanswer, hstays _ hanswer (by simp) (by simp)⟩
      · rcases Prod.mk.inj h with ⟨rfl, hrest⟩
        rw [← (Prod.mk.inj hrest).2]
        have hanswer : ∀ pending place, (Dispatch.waits pending place).status? ≠ some "QUEUED" := by
          simp [Dispatch.status?]
        exact ⟨hanswer _ _, hstays _ (hanswer _ _) (by simp) (by simp)⟩

/-- A command that any session may queue is queued in an open transaction, and nothing else
    happens. -/
theorem handle_of_opened {queue : List Command} {request : Request}
    (hrequest : Request.ofCommand command = .ok request)
    (hopened : session.transaction = .opened queue)
    (hcontrol : command.name.isTransactionControl = false) :
    engine.handle session now index command =
      (.queued, engine, { session with transaction := .opened (queue ++ [command]) }) := by
  unfold handle
  simp only [hrequest, hopened, Transaction.isOpen, hcontrol, Bool.not_false, Bool.and_self, if_true,
    Transaction.enqueue]
  rfl

/-- A command with a wrong number of arguments is refused, and nothing else happens. -/
theorem handle_refused {e : Error} (h : Request.ofCommand command = .error e) :
    engine.handle session now index command = (.answered (.refusal e), engine, session) := by
  unfold handle
  rw [h]

/-- Commands that control transactions are never queued. -/
theorem handle_of_control {request : Request} (hrequest : Request.ofCommand command = .ok request)
    (hcontrol : command.name.isTransactionControl = true) :
    engine.handle session now index command =
      engine.perform session now index command request := by
  unfold handle
  simp only [hrequest, hcontrol, Bool.not_true, Bool.and_false, Bool.false_eq_true, if_false]

/-- Opening an open transaction leaves its queue as it is. -/
theorem handle_of_nested {queue : List Command}
    (hrequest : Request.ofCommand command = .ok .beginTransaction)
    (hopened : session.transaction = .opened queue) :
    engine.handle session now index command = (.answered (.reply .ok), engine, session) := by
  have hcontrol : command.name.isTransactionControl = true := by
    rw [Request.name_eq hrequest]
    rfl
  rw [handle_of_control hrequest hcontrol]
  simp only [perform, hopened, Transaction.begin, Transaction.queue]
  rw [← hopened]

/-- Without an open transaction there is nothing to run or to drop. -/
theorem handle_of_unopened {request : Request} (hrequest : Request.ofCommand command = .ok request)
    (hcloses : request = .runTransaction ∨ request = .dropTransaction)
    (hclosed : session.transaction = .closed) :
    ∃ message, engine.handle session now index command =
      (.answered (.refusal (.transaction message)), engine, session) := by
  rw [handle_of_closed hrequest hclosed]
  rcases session with ⟨transaction, replicaId⟩
  obtain rfl : transaction = .closed := hclosed
  rcases hcloses with rfl | rfl
  · exact ⟨"EXEC without MULTI", rfl⟩
  · exact ⟨"DISCARD without MULTI", rfl⟩

/-- Only a command that is queued is answered so: the transaction was open, and the engine stays as it
    is. -/
theorem handle_queued (h : engine.handle session now index command = (.queued, after, session')) :
    ∃ queue, session.transaction = .opened queue ∧ after = engine ∧
      session' = { session with transaction := .opened (queue ++ [command]) } := by
  cases hrequest : Request.ofCommand command with
  | error e =>
      simp [handle_refused hrequest, Dispatch.queued, Response.refusal, Reply.ofError] at h
  | ok request =>
      by_cases hcontrol : command.name.isTransactionControl = true
      · rw [handle_of_control hrequest hcontrol] at h
        -- A command that runs a queue is answered with an array.
        rcases Request.eq_of_isTransactionControl hrequest hcontrol with rfl | rfl | rfl
        · exact absurd rfl (perform_transaction hrequest (by simp) h).1
        · cases htransaction : session.transaction <;>
            simp [perform, htransaction, Transaction.take, Dispatch.queued, Response.refusal,
              Reply.ofError] at h
        · exact absurd rfl (perform_transaction hrequest (by simp) h).1
      · cases htransaction : session.transaction with
        | closed =>
            rw [handle_of_closed hrequest htransaction] at h
            exact absurd rfl (perform_transaction hrequest (fun _ => htransaction) h).1
        | opened queue =>
            rw [handle_of_opened hrequest htransaction (by simpa using hcontrol)] at h
            simp only [Prod.mk.injEq, true_and] at h
            exact ⟨queue, rfl, h.1.symm, h.2.symm⟩

/-- A command of a session that is answered as queued leaves the keyspace, the readers and the links
    as they are, and the replicas that are registered. -/
theorem dispatch_queued (h : (engine.dispatch session now command).1 = .queued) :
    ∃ role, (engine.dispatch session now command).2.1 = { engine with role } ∧
      (engine.dispatch session now command).2.1.registry = engine.registry := by
  have hquiet := (engine.record_quiet command).trans
    (conclude_quiet (engine.record command).2 (engine.record command).1
      (.reply (.simple "QUEUED")))
  rcases hhandle : (engine.record command).2.handle session now (engine.record command).1 command
    with ⟨response | _, after, session'⟩
  · have hresponse : response = .reply (.simple "QUEUED") := by
      simp only [dispatch, hhandle] at h
      exact Dispatch.answered.inj h
    subst hresponse
    rcases handle_queued hhandle with ⟨queue, -, rfl, -⟩
    simp only [dispatch, hhandle]
    rcases engine.record_role command with ⟨recorded, hrecord⟩
    rcases conclude_role (engine.record command).2 (engine.record command).1
      (.reply (.simple "QUEUED")) with ⟨role, hconclude⟩
    exact ⟨role, by rw [hconclude, hrecord], hquiet.registry⟩
  · simp [dispatch, hhandle, Dispatch.queued] at h

/-- What a command does to the transaction of its session, unless it runs the queue. -/
theorem handle_transaction (hruns : ∀ queue, engine.route session index command ≠ .runs queue)
    (h : engine.handle session now index command = (dispatch, after, session')) :
    session'.transaction = session.transaction.told command dispatch := by
  cases hrequest : Request.ofCommand command with
  | error e =>
      rw [handle_refused hrequest] at h
      rcases Prod.mk.inj h with ⟨rfl, hrest⟩
      rw [← (Prod.mk.inj hrest).2]
      simp [Transaction.told, Dispatch.status?, Response.refusal, Reply.ofError, Reply.status?]
  | ok request =>
      have hqueue : request = .runTransaction → session.transaction = .closed := by
        rintro rfl
        cases htransaction : session.transaction with
        | closed => rfl
        | opened queue =>
            refine absurd ?_ (hruns queue)
            simp only [route, hrequest, htransaction]
      by_cases hcontrol : command.name.isTransactionControl = true
      · rw [handle_of_control hrequest hcontrol] at h
        exact (perform_transaction hrequest hqueue h).2
      · cases htransaction : session.transaction with
        | closed =>
            rw [handle_of_closed hrequest htransaction] at h
            rw [← htransaction]
            exact (perform_transaction hrequest hqueue h).2
        | opened queue =>
            rw [handle_of_opened hrequest htransaction (by simpa using hcontrol)] at h
            rcases Prod.mk.inj h with ⟨rfl, hrest⟩
            rw [← (Prod.mk.inj hrest).2]
            rfl

end Engine

end KeyValue
