import KeyValue.Dispatch
import KeyValue.Proofs.Engine.Replies
import KeyValue.Proofs.Engine.Requests

/-!
# Answers to the commands of a session

Whatever comes of a command of a session, at once or after a wait, is answered with replies that end
where they should, if the command and those that are queued quote texts of one line only
(`Command.Plain`). A resync is left out: its snapshot has no end of its own.

## Main definitions

* `Response.replies`: What a response sends.
* `Response.Ends`, `Dispatch.Ends`: All of it ends where it should.

## Theorems

* `dispatch_ends`: Commands of a session.
* `dispatch_queue`: What is in the queue afterwards.
* `resume_ends`, `giveUp_ends`: Commands that wait.
-/

namespace KeyValue

open Text

/-- The replies that a response sends, in order. -/
def Response.replies : Response → List Reply
  | .reply content => [content]
  | .silent => []
  | .fullResync header snapshot => [header, .snapshot snapshot]

/-- The replies of the response end where they should. -/
def Response.Ends (response : Response) : Prop := ∀ reply ∈ response.replies, reply.Ends

/-- A response of one reply ends where it should if this reply does. -/
theorem Response.ends_of_reply {reply : Reply} (h : reply.Ends) : (Response.reply reply).Ends := by
  intro other hmem
  rw [List.mem_singleton.mp hmem]
  exact h

/-- A command that does not wait is answered with replies that end where they should. -/
def Dispatch.Ends : Dispatch → Prop
  | .answered response => response.Ends
  | .waits _ _ => True

namespace Engine

variable (engine : Engine) (now : UInt64)

/-- A reader that has found entries, or a key that is no stream, is answered with one reply. -/
theorem look_ends (reader : Nat) (cursors : List Cursor) (count : Option Nat)
    {result : Except Error Reply} (h : (engine.look now reader cursors count).1 = some result) :
    (Reply.ofExcept result).Ends := by
  rcases Cursor.readAll_ends now count cursors engine.keyspace with ⟨hlines, hends⟩
  simp only [look, readAll, withKeyspace] at h
  rcases hread : (Cursor.readAll engine.keyspace now count cursors).1 with e | _ | ⟨reply, replies⟩
  · simp only [hread] at h
    rw [← Option.some.inj h]
    exact Reply.ofError_ends (hlines e hread)
  · simp only [hread, reduceCtorEq] at h
  · simp only [hread] at h
    rw [← Option.some.inj h]
    exact Cursor.readReply_ends (hends _ hread)

/-- A read that does not wait is answered with what it finds, or with the reason of its refusal. -/
theorem startRead_ends (arguments : List String) {result : Except Error Reply}
    (h : (engine.startRead now arguments).1 = .answered result) :
    (Reply.ofExcept result).Ends := by
  have hopen := engine.openRead_lines now arguments
  unfold startRead at h
  rcases hopened : engine.openRead now arguments with ⟨e | ⟨read, cursors⟩, after⟩
  · rw [hopened] at h hopen
    rw [← Progress.answered.inj h]
    exact Reply.ofError_ends (hopen e rfl)
  · rw [hopened] at h
    simp only at h
    cases hblock : read.block with
    | none =>
        simp only [hblock] at h
        rw [← Progress.answered.inj h]
        exact Cursor.ofExcept_readAll_ends now _ _ _
    | some ms =>
        simp only [hblock] at h
        split at h
        · rename_i hlooked
          rw [← Progress.answered.inj h]
          exact look_ends _ now _ _ _ (congrArg Prod.fst hlooked)
        · simp only [reduceCtorEq] at h

/-- A request to wait that does not wait is answered with a number, or refused for its words. -/
theorem startWait_ends (index : Option Nat) (wanted timeout : String)
    {result : Except Error Reply}
    (h : (engine.startWait now index wanted timeout).1 = .answered result) :
    (Reply.ofExcept result).Ends := by
  have hnumbers := waitNumbers_lines wanted timeout
  unfold startWait at h
  -- A number that cannot be read is refused, and every other answer is a count.
  split at h
  · rename_i hrefused
    rw [← Progress.answered.inj h]
    exact Reply.ofError_ends (hnumbers _ hrefused)
  · split at h
    · split at h
      · rw [← Progress.answered.inj h]
        exact trivial
      · simp only [reduceCtorEq] at h
    · rw [← Progress.answered.inj h]
      exact trivial

/-- A request that is started, and does not wait, is answered like one that is run. -/
theorem startRequest_ends (index : Option Nat) (command : Command) {request : Request}
    (hquoted : ∀ text ∈ request.quoted, OneLine text) {result : Except Error Reply}
    (h : (engine.startRequest now index command request).1 = .answered result) :
    (Reply.ofExcept result).Ends := by
  cases request with
  | readStreams arguments => exact engine.startRead_ends now arguments h
  | waitForReplicas wanted timeout => exact engine.startWait_ends now index wanted timeout h
  | _ =>
      rw [← Progress.answered.inj h]
      exact engine.run_ends now hquoted

/-- What a replica says is answered with fixed words and numbers, unless its option is not known and
    is quoted. -/
theorem converse_ends (replicaId : Option Nat) {option : String} (arguments : List String)
    (h : OneLine option) : (engine.converse replicaId option arguments).1.Ends := by
  simp only [converse]
  split
  · split <;> exact fun _ hmem => nomatch hmem
  · split
    · exact Response.ends_of_reply (Reply.bulkTexts_ends _)
    · split
      · exact Response.ends_of_reply (by decide : OneLine "OK")
      · refine Response.ends_of_reply ?_
        have hquote := (oneLine_toLower h).quote "unsupported REPLCONF option '" "'"
          (by decide) (by decide)
        exact (oneLine_append (a := "ERR ")).mpr ⟨by decide, hquote⟩

/-- A request other than for a resync is answered with replies that end where they should. The queue
    matters since running it answers all of its commands at once. -/
theorem perform_ends (session : Session) (index : Option Nat) (command : Command)
    {request : Request} (hquoted : ∀ text ∈ request.quoted, OneLine text)
    (hresync : request ≠ .resync) (hqueue : ∀ queued ∈ session.transaction.queue, queued.Plain) :
    (engine.perform session now index command request).1.Ends := by
  cases request with
  | beginTransaction => exact Response.ends_of_reply (by decide : OneLine "OK")
  | runTransaction =>
      simp only [perform]
      cases htransaction : session.transaction with
      | closed => exact Response.ends_of_reply (Reply.ofError_ends (by decide))
      | opened queue =>
          rw [htransaction] at hqueue
          exact Response.ends_of_reply (Reply.array_ends (runQueue_ends now queue engine hqueue))
  | dropTransaction =>
      simp only [perform]
      cases session.transaction with
      | closed => exact Response.ends_of_reply (Reply.ofError_ends (by decide))
      | opened queue => exact Response.ends_of_reply (by decide : OneLine "OK")
  | resync => exact absurd rfl hresync
  | replication option arguments =>
      exact engine.converse_ends session.replicaId arguments (hquoted option List.mem_cons_self)
  | _ =>
      have hstart : ∀ {result}, _ = Progress.answered result → (Reply.ofExcept result).Ends :=
        engine.startRequest_ends now index command hquoted
      simp only [perform]
      split
      · rename_i hstarted
        exact Response.ends_of_reply (hstart (congrArg Prod.fst hstarted))
      · exact trivial

/-- A command is refused for its words, queued, or performed, and its answer ends where it
    should. -/
theorem handle_ends (session : Session) (index : Option Nat) {command : Command}
    (hplain : command.Plain) (hname : command.name ≠ .psync)
    (hqueue : ∀ queued ∈ session.transaction.queue, queued.Plain) :
    (engine.handle session now index command).1.Ends := by
  have hrequest := ofCommand_lines command
  unfold handle
  cases hread : Request.ofCommand command with
  | error e => exact Response.ends_of_reply (Reply.ofError_ends (hrequest e hread))
  | ok request =>
      simp only
      split
      · cases session.transaction with
        | closed => exact Response.ends_of_reply (Reply.ofError_ends (by decide))
        | opened queue => exact Response.ends_of_reply (by decide : OneLine "QUEUED")
      · refine engine.perform_ends now session index command (hplain request hread) ?_ hqueue
        rintro rfl
        exact hname (Request.name_eq hread)

/-- A command of a session is answered with replies that end where they should, if what it can
    quote is of one line, and so it is for the commands that the session has queued. -/
theorem dispatch_ends (session : Session) {command : Command} (hplain : command.Plain)
    (hname : command.name ≠ .psync)
    (hqueue : ∀ queued ∈ session.transaction.queue, queued.Plain) :
    (engine.dispatch session now command).1.Ends := by
  have hhandle := handle_ends (engine.record command).2 now session (engine.record command).1
    hplain hname hqueue
  unfold dispatch
  simp only
  split
  · rename_i hhandled
    rwa [hhandled] at hhandle
  · exact trivial

/-- Performing a request adds nothing to the queue; it can only empty it. -/
theorem perform_queue (session : Session) (index : Option Nat) (command : Command)
    (request : Request) {queued : Command}
    (h : queued ∈ (engine.perform session now index command request).2.2.transaction.queue) :
    queued ∈ session.transaction.queue := by
  cases request with
  | runTransaction =>
      simp only [perform] at h
      cases htransaction : session.transaction <;> simp [htransaction, Transaction.take,
        Transaction.queue] at h
  | dropTransaction =>
      simp only [perform] at h
      cases htransaction : session.transaction <;> simp [htransaction, Transaction.discard,
        Transaction.queue] at h
  | beginTransaction => exact h
  | resync => exact h
  | replication => exact h
  | _ =>
      simp only [perform] at h
      split at h <;> exact h

/-- What a session has queued after a command it had queued before, or is that command. -/
theorem dispatch_queue (session : Session) (command : Command) {queued : Command}
    (h : queued ∈ (engine.dispatch session now command).2.2.transaction.queue) :
    queued ∈ session.transaction.queue ∨ queued = command := by
  have hsame : (engine.dispatch session now command).2.2 =
      ((engine.record command).2.handle session now (engine.record command).1 command).2.2 := by
    unfold dispatch
    simp only
    split <;> (rename_i hhandled; rw [hhandled])
  rw [hsame] at h
  unfold handle at h
  cases hread : Request.ofCommand command with
  | error e =>
      rw [hread] at h
      exact Or.inl h
  | ok request =>
      simp only [hread] at h
      split at h
      · cases htransaction : session.transaction with
        | closed =>
            simp only [htransaction, Transaction.enqueue] at h
            exact Or.inl (htransaction ▸ h)
        | opened queue =>
            simp only [htransaction, Transaction.enqueue, Transaction.queue, List.mem_append,
              List.mem_singleton] at h
            exact h
      · exact Or.inl (perform_queue _ now session _ command request h)

/-- What a waiting command finds it answers with a reply that ends where it should. -/
theorem resume_ends (pending : Pending) (index : Option Nat) {response : Response}
    (h : (engine.resume now pending index).1 = some response) : response.Ends := by
  unfold resume at h
  split at h
  · simp only [reduceCtorEq] at h
  · rename_i result after hpolled
    rw [← Option.some.inj h]
    refine Response.ends_of_reply ?_
    have hresult := congrArg Prod.fst hpolled
    cases hwaiting : pending.waiting with
    | entries reader cursors count =>
        simp only [hwaiting, poll] at hresult
        split at hresult
        · exact look_ends _ now reader cursors count hresult
        · simp only [reduceCtorEq] at hresult
    | acks wait =>
        simp only [hwaiting, poll] at hresult
        split at hresult
        · simp only [reduceCtorEq] at hresult
        · split at hresult
          · rw [← Option.some.inj hresult]
            exact trivial
          · simp only [reduceCtorEq] at hresult
          · simp only [reduceCtorEq] at hresult

/-- A command that gives up is answered with what it has found by then. -/
theorem giveUp_ends (pending : Pending) (index : Option Nat) :
    (engine.giveUp now pending index).1.Ends := by
  refine Response.ends_of_reply ?_
  cases hwaiting : pending.waiting with
  | entries reader cursors count => exact Cursor.ofExcept_readAll_ends now _ _ _
  | acks wait =>
      simp only
      cases engine.role <;> exact trivial

end Engine

end KeyValue
