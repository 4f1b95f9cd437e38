import KeyValue.Proofs.Engine.Sparing

/-!
# Commands do not look at what was written

What was written to the link of a client makes no difference to the commands that follow, and they
leave it where it is.

Only forwarding touches links at all, and it writes to those of replicas. So a command does the same
before and after bytes are posted to a link without a replica (`dispatch_post`): with the same
response, and with an engine that differs in these bytes only. Commands that are answered one after
another can therefore be told without their answers, and the answers can be written all at once.

## Main definitions

* `Engine.post`: Bytes are written to a link.

## Theorems

* `Links.write_write`, `Links.write_comm`: Writing twice.
* `run_post`, `propagate_post`, `handle_post`: What a command does, step by step.
* `dispatch_post`: A command does the same.
-/

namespace KeyValue

namespace Links

/-- To write no bytes is to write nothing. -/
theorem write_nil (links : Links) (link : Nat) : links.write link [] = links := by
  have hsame : (fun l : Link => if l.isOpen then { l with written := l.written ++ [] } else l) =
      id := by
    funext l
    rw [List.append_nil]
    exact ite_self l
  unfold write
  rw [hsame, List.modify_id]

/-- What is written to a link in two goes is what is written in one. -/
theorem write_write (links : Links) (link : Nat) (bytes more : Bytes) :
    (links.write link bytes).write link more = links.write link (bytes ++ more) := by
  unfold write
  rw [List.modify_modify_eq]
  congr 2
  funext l
  by_cases hopen : l.isOpen = true <;> simp [hopen]

/-- What is written to different links does not get in each other's way. -/
theorem write_comm (links : Links) {link other : Nat} (h : link ≠ other) (bytes more : Bytes) :
    (links.write link bytes).write other more = (links.write other more).write link bytes := by
  unfold write
  rw [List.modify_modify_ne _ _ _ h]

end Links

namespace Engine

/-- Write bytes to a link. -/
def post (engine : Engine) (link : Nat) (bytes : Bytes) : Engine :=
  { engine with links := engine.links.write link bytes }

variable (engine : Engine) (link : Nat) (bytes : Bytes) (now : UInt64)

@[simp] theorem post_nil : engine.post link [] = engine := by
  rw [post, Links.write_nil]

@[simp] theorem post_post (more : Bytes) :
    (engine.post link bytes).post link more = engine.post link (bytes ++ more) := by
  simp only [post, Links.write_write]

/-- The state of a master has nothing to do with what is on the links. -/
theorem updateMaster_post (update : Master → Master) :
    (engine.post link bytes).updateMaster update = (engine.updateMaster update).post link bytes := by
  rcases engine with ⟨config, keyspace, readers, file, role, links⟩
  cases role <;> rfl

/-- Recording a command changes the history, and writes to no link. -/
theorem record_post (command : Command) :
    (engine.post link bytes).record command =
      ((engine.record command).1, (engine.record command).2.post link bytes) := by
  rcases engine with ⟨config, keyspace, readers, file, role, links⟩
  cases role <;> rfl

/-- Concluding a command changes the history, too. -/
theorem conclude_post (index : Option Nat) (response : Response) :
    (engine.post link bytes).conclude index response =
      (engine.conclude index response).post link bytes := by
  cases index with
  | none => rfl
  | some index => exact engine.updateMaster_post link bytes _

/-- Where a read begins is looked up in the keyspace alone. -/
theorem openRead_post (arguments : List String) :
    (engine.post link bytes).openRead now arguments =
      ((engine.openRead now arguments).1, (engine.openRead now arguments).2.post link bytes) := by
  unfold openRead
  cases StreamRead.ofArguments {} arguments <;> rfl

/-- A request is run on the keyspace and the readers, so it does not matter whether bytes are
    written to a link before it or after it. -/
theorem run_post (request : Request) :
    (engine.post link bytes).run now request =
      ((engine.run now request).1, (engine.run now request).2.post link bytes) := by
  cases request with
  | ping message => cases message <;> rfl
  | addEntry key id fields =>
      simp only [run, addEntry, post]
      split <;> rfl
  | readStreams arguments =>
      simp only [run, openRead_post]
      rcases engine.openRead now arguments with ⟨_ | ⟨read, cursors⟩, opened⟩ <;> rfl
  | _ => rfl

theorem runCommand_post (command : Command) :
    (engine.post link bytes).runCommand now command =
      ((engine.runCommand now command).1, (engine.runCommand now command).2.post link bytes) := by
  unfold runCommand
  cases Request.ofCommand command with
  | error e => rfl
  | ok request => simp only [run_post]

/-- A queue is run command by command, and none of them writes to a link. -/
theorem runQueue_post (queue : List Command) :
    ∀ engine : Engine, (engine.post link bytes).runQueue now queue =
      ((engine.runQueue now queue).1, (engine.runQueue now queue).2.post link bytes) := by
  induction queue with
  | nil => exact fun engine => rfl
  | cons command rest ih =>
      intro engine
      simp only [runQueue, runCommand_post, ih]

/-- A reader looks at the keyspace, and at no link. -/
theorem look_post (reader : Nat) (cursors : List Cursor) (count : Option Nat) :
    (engine.post link bytes).look now reader cursors count =
      ((engine.look now reader cursors count).1,
        (engine.look now reader cursors count).2.post link bytes) := by
  have hread : (engine.post link bytes).readAll now count cursors =
      ((engine.readAll now count cursors).1, (engine.readAll now count cursors).2.post link bytes) :=
    rfl
  unfold look
  rw [hread]
  rcases engine.readAll now count cursors with ⟨_ | _ | ⟨reply, replies⟩, after⟩ <;> rfl

/-- A read that starts does not write to any link; its answer comes later. -/
theorem startRead_post (arguments : List String) :
    (engine.post link bytes).startRead now arguments =
      ((engine.startRead now arguments).1, (engine.startRead now arguments).2.post link bytes) := by
  unfold startRead
  rw [openRead_post]
  rcases engine.openRead now arguments with ⟨_ | ⟨read, cursors⟩, opened⟩
  · rfl
  · simp only
    cases read.block with
    | none => rfl
    | some ms =>
        -- The reader is registered before it looks.
        have hlook := look_post { opened with readers := (opened.readers.register read.keys).2 }
          link bytes now (opened.readers.register read.keys).1 cursors read.count
        rcases hlooked : look { opened with readers := (opened.readers.register read.keys).2 } now
          (opened.readers.register read.keys).1 cursors read.count with ⟨_ | result, last⟩ <;>
        · rw [hlooked] at hlook
          simp only [post] at hlook ⊢
          rw [hlook]

variable {engine link}

/-- Bytes that are forwarded go elsewhere. -/
theorem propagate_post (h : engine.Unlinked link) (more : Bytes) :
    (engine.post link bytes).propagate more = (engine.propagate more).post link bytes := by
  have hpeers : (engine.post link bytes).peers = engine.peers := rfl
  rw [propagate_eq, propagate_eq, hpeers]
  simp only [post]
  congr 1
  unfold Unlinked at h
  generalize engine.peers = peers at h
  generalize engine.links = links
  induction peers generalizing links with
  | nil => rfl
  | cons peer rest ih =>
      rw [List.forall_mem_cons] at h
      rw [List.foldl_cons, List.foldl_cons, links.write_comm h.1.symm]
      exact ih h.2 _

/-- The request that replicas are asked with goes to other links, since this one is no replica's. -/
theorem startWait_post (h : engine.Unlinked link) (index : Option Nat) (wanted timeout : String) :
    (engine.post link bytes).startWait now index wanted timeout =
      ((engine.startWait now index wanted timeout).1,
        (engine.startWait now index wanted timeout).2.post link bytes) := by
  have hinstall : ∀ wait : AckWait,
      ((engine.post link bytes).updateMaster (·.install wait)).propagate Master.ackRequest =
        ((engine.updateMaster (·.install wait)).propagate Master.ackRequest).post link bytes := by
    intro wait
    rw [updateMaster_post]
    refine propagate_post bytes ?_ _
    unfold Unlinked
    rw [(quiet_updateMaster engine (·.install wait) fun _ => rfl).peers]
    exact h
  have hrole : (engine.post link bytes).role = engine.role := rfl
  simp only [startWait, hrole, hinstall]
  split
  · rfl
  · split
    · split <;> rfl
    · rfl

/-- A write that succeeds is forwarded to other links, for the same reason. -/
theorem startRequest_post (h : engine.Unlinked link) (index : Option Nat) (command : Command)
    (request : Request) :
    (engine.post link bytes).startRequest now index command request =
      ((engine.startRequest now index command request).1,
        (engine.startRequest now index command request).2.post link bytes) := by
  have hforward : (engine.run now request).2.Unlinked link := by
    rcases engine.run_frame now request with ⟨keyspace, readers, hrun⟩
    rw [hrun]
    exact h
  cases request with
  | readStreams arguments => exact startRead_post _ _ _ _ _
  | waitForReplicas wanted timeout => exact startWait_post bytes now h index wanted timeout
  | _ =>
      -- A write that succeeds is forwarded, and nothing else is.
      simp only [startRequest, run_post]
      refine Prod.ext rfl ?_
      simp only
      split
      · exact propagate_post bytes hforward _
      · rfl

/-- The answer to what a replica says is written later, and not by this. -/
theorem converse_post (replicaId : Option Nat) (option : String) (arguments : List String) :
    (engine.post link bytes).converse replicaId option arguments =
      ((engine.converse replicaId option arguments).1,
        (engine.converse replicaId option arguments).2.post link bytes) := by
  simp only [converse, updateMaster_post]
  split
  · split <;> rfl
  · split
    · rfl
    · split <;> rfl

/-- Whatever a session asks for, writing to its own link before or after it comes to the same. -/
theorem perform_post (h : engine.Unlinked link) (session : Session) (index : Option Nat)
    (command : Command) (request : Request) :
    (engine.post link bytes).perform session now index command request =
      ((engine.perform session now index command request).1,
        (engine.perform session now index command request).2.1.post link bytes,
        (engine.perform session now index command request).2.2) := by
  cases request with
  | beginTransaction => rfl
  | dropTransaction => rfl
  | resync => rfl
  | replication option arguments => simp only [perform, converse_post]
  | runTransaction =>
      simp only [perform, runQueue_post]
      split <;> rfl
  | _ =>
      -- The rest is started, and is answered or waits.
      simp only [perform, startRequest_post bytes now h]
      generalize engine.startRequest now index command _ = started
      rcases started with ⟨result | pending, after⟩ <;> rfl

/-- Handling a command does the same whatever was written to a link without a replica. -/
theorem handle_post (h : engine.Unlinked link) (session : Session) (index : Option Nat)
    (command : Command) :
    (engine.post link bytes).handle session now index command =
      ((engine.handle session now index command).1,
        (engine.handle session now index command).2.1.post link bytes,
        (engine.handle session now index command).2.2) := by
  unfold handle
  split
  · rfl
  · split
    · split <;> rfl
    · exact perform_post bytes now h session index command _

/-- A command does the same whatever was written to a link without a replica. -/
theorem dispatch_post (h : engine.Unlinked link) (session : Session) (command : Command) :
    (engine.post link bytes).dispatch session now command =
      ((engine.dispatch session now command).1,
        (engine.dispatch session now command).2.1.post link bytes,
        (engine.dispatch session now command).2.2) := by
  have hunlinked := ((engine.record_quiet command).spares link).unlinked h
  unfold dispatch
  simp only [record_post, handle_post bytes now hunlinked]
  rcases (engine.record command).2.handle session now (engine.record command).1 command with
    ⟨response | ⟨pending, index⟩, after, session⟩
  · simp only [conclude_post]
  · rfl

end Engine

end KeyValue
