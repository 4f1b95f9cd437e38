import KeyValue.Engine
import KeyValue.Proofs.Keyspace.Writes

/-!
# What requests do to an engine

A request that runs changes the keyspace, and the readers that are woken; what it leaves alone are
the links, the role, the configuration and the snapshot file (`run_frame`).

Three requests write. All others only prune the keyspace (`run_read`), also in the queue of a
transaction (`runQueue_read`). A write that sets no deadline and asks for no present time is a
write on contents (`run_effect`), so it does the same wherever the contents are the same.

## Main definitions

* `Request.isWrite`: Whether the request writes.
* `Request.Timeless`: The request does the same at every time.
* `Request.write`: What the request does to contents.
* `Request.name`: The name of the commands that are such a request.

## Theorems

* `Request.name_eq`: A command and the request that it is have one name.
* `Request.kind_eq_write_iff`: The writes are the commands of that kind.
* `Engine.run_frame`, `Engine.runCommand_frame`: What no request changes.
* `Engine.run_write_ok`: A write that succeeds is not answered with an error.
* `Engine.run_read`, `Engine.runQueue_read`: Other requests only prune.
* `Engine.run_effect`: A timeless write is a write on contents.
* `Engine.run_settled`, `Engine.run_sound`: What writes preserve.
* `Engine.run_changes`: A request does one thing to the keyspace.
* `Engine.apply_engine`: What a command of a master does.
-/

namespace KeyValue

namespace Request

/-- Whether the request writes. -/
def isWrite : Request → Bool
  | set .. | increment _ | addEntry .. => true
  | _ => false

/-- The request does the same at every time: it sets no deadline, and an entry that it adds does not
    ask for the present time. -/
def Timeless : Request → Prop
  | set _ _ options => ∀ option ∈ options, KeyCommand.expiryUnit? option = none
  | addEntry _ id _ => id ≠ "*"
  | _ => True

/-- What a timeless request does to contents; none if it fails. -/
def write (contents : Contents) : Request → Option Contents
  | set key value options => if options = [] then some (contents.hold key (.ofText value)) else none
  | increment key => contents.increment key
  | addEntry key id fields =>
    match IdRequest.ofText id, StreamCommand.pairs? fields with
    | .ok request, some fields => contents.addEntry key request fields
    | _, _ => none
  | _ => some contents

/-- The name of the commands that are such a request. -/
def name : Request → CommandName
  | ping _ => .ping
  | echo _ => .echo
  | set .. => .set
  | get _ => .get
  | increment _ => .incr
  | type _ => .type
  | keys _ => .keys
  | info _ => .info
  | config .. => .config
  | beginTransaction => .multi
  | runTransaction => .exec
  | dropTransaction => .discard
  | replication .. => .replconf
  | resync => .psync
  | waitForReplicas .. => .wait
  | addEntry .. => .xadd
  | range .. => .xrange
  | readStreams _ => .xread

variable {command : Command} {request : Request}

/-- A command and the request that it is have one name. -/
theorem name_eq (h : ofCommand command = .ok request) : command.name = request.name := by
  unfold ofCommand at h
  split at h <;> first
    | (rw [← Except.ok.inj h]; assumption)
    | simp only [reduceCtorEq] at h

/-- The requests that write are the commands of that kind. -/
theorem kind_eq_write_iff (h : ofCommand command = .ok request) :
    command.name.kind = .write ↔ request.isWrite = true := by
  rw [name_eq h]
  cases request <;> simp [name, CommandName.kind, isWrite]

/-- The commands that open or close a transaction are these three requests. -/
theorem eq_of_isTransactionControl (h : ofCommand command = .ok request)
    (hcontrol : command.name.isTransactionControl = true) :
    request = .beginTransaction ∨ request = .runTransaction ∨ request = .dropTransaction := by
  rw [name_eq h] at hcontrol
  cases request <;> simp [name, CommandName.isTransactionControl] at hcontrol ⊢

-- The command to wait is the request to wait for replicas.
theorem eq_waitForReplicas (hname : command.name = .wait) (h : ofCommand command = .ok request) :
    ∃ wanted timeout, request = .waitForReplicas wanted timeout := by
  rw [name_eq h] at hname
  cases request <;> simp [name] at hname ⊢

theorem isTransactionControl_of_run (h : ofCommand command = .ok .runTransaction) :
    command.name.isTransactionControl = true := by
  rw [name_eq h]
  rfl

end Request

-- An id that is no asterisk does not ask for the present time.
theorem IdRequest.ofText_ne_auto {text : String} {request : IdRequest} (hne : text ≠ "*")
    (h : ofText text = .ok request) : request ≠ .auto := by
  unfold ofText at h
  rw [if_neg hne] at h
  rintro rfl
  split at h
  · cases hpart : StreamId.part text <;> simp [hpart, bind, Except.bind, pure, Except.pure] at h
  · -- The other two forms name the milliseconds.
    rename_i ms _
    cases hpart : StreamId.part ms <;> simp [hpart, bind, Except.bind, pure, Except.pure] at h
  · rename_i ms seq _ _
    cases hparts : StreamId.ofParts ms seq <;>
      simp [hparts, bind, Except.bind, pure, Except.pure] at h

namespace Cursor

theorem resolve_prunes (keyspace : Keyspace) (now : UInt64) (key id : String) :
    keyspace.Prunes (resolve keyspace now key id).2 := by
  unfold resolve
  by_cases hlast : id = "$"
  · rw [if_pos hlast]
    exact keyspace.touch_prunes now key
  · rw [if_neg hlast]
    exact .refl keyspace

theorem resolveAll_prunes (now : UInt64) (starts : List (String × String)) :
    ∀ keyspace : Keyspace, keyspace.Prunes (resolveAll keyspace now starts).2 := by
  induction starts with
  | nil => exact Keyspace.Prunes.refl
  | cons start rest ih =>
      intro keyspace
      rcases start with ⟨key, id⟩
      have hfirst := resolve_prunes keyspace now key id
      unfold resolveAll
      rcases hresolve : resolve keyspace now key id with ⟨_ | cursor, after⟩
      · rw [hresolve] at hfirst
        exact hfirst
      · rw [hresolve] at hfirst
        exact hfirst.trans (ih after)

theorem readAll_prunes (now : UInt64) (count : Option Nat) (cursors : List Cursor) :
    ∀ keyspace : Keyspace, keyspace.Prunes (readAll keyspace now count cursors).2 := by
  induction cursors with
  | nil => exact Keyspace.Prunes.refl
  | cons cursor rest ih =>
      intro keyspace
      have hfirst : keyspace.Prunes (cursor.read keyspace now count).2 :=
        keyspace.touch_prunes now cursor.key
      unfold readAll
      rcases hread : cursor.read keyspace now count with ⟨_ | entries, after⟩
      · rw [hread] at hfirst
        exact hfirst
      · rw [hread] at hfirst
        exact hfirst.trans (ih after)

end Cursor

namespace Engine

variable {engine : Engine} {now : UInt64}

/-- Resolving the start of a read prunes the keyspace. -/
theorem openRead_read (engine : Engine) (now : UInt64) (arguments : List String) :
    ∃ keyspace, engine.keyspace.Prunes keyspace ∧
      (engine.openRead now arguments).2 = { engine with keyspace } := by
  unfold openRead
  cases StreamRead.ofArguments {} arguments with
  | error e => exact ⟨engine.keyspace, .refl _, rfl⟩
  | ok read => exact ⟨_, Cursor.resolveAll_prunes now read.starts engine.keyspace, rfl⟩

/-- Looking at streams prunes the keyspace. -/
theorem readAll_read (engine : Engine) (now : UInt64) (count : Option Nat)
    (cursors : List Cursor) :
    ∃ keyspace, engine.keyspace.Prunes keyspace ∧
      (engine.readAll now count cursors).2 = { engine with keyspace } :=
  ⟨_, Cursor.readAll_prunes now count cursors engine.keyspace, rfl⟩

/-- A request changes at most the keyspace and which readers are woken. -/
theorem run_frame (engine : Engine) (now : UInt64) (request : Request) :
    ∃ keyspace readers, (engine.run now request).2 = { engine with keyspace, readers } := by
  cases request with
  | addEntry key id fields =>
      simp only [run, addEntry]
      rcases StreamCommand.addEntry engine.keyspace now key id fields with ⟨_ | added, keyspace⟩
      · exact ⟨_, _, rfl⟩
      · exact ⟨_, _, rfl⟩
  | readStreams arguments =>
      simp only [run]
      rcases engine.openRead_read now arguments with ⟨keyspace, _, hopen⟩
      rcases hread : engine.openRead now arguments with ⟨_ | ⟨read, cursors⟩, opened⟩
      · rw [hread] at hopen
        exact ⟨keyspace, _, hopen⟩
      · rw [hread] at hopen
        simp only at hopen
        exact ⟨_, _, by rw [hopen]; rfl⟩
  | ping message => cases message <;> exact ⟨_, _, rfl⟩
  | _ => exact ⟨_, _, rfl⟩

/-- The outcome of adding an entry, without the readers that it wakes. -/
theorem run_addEntry (engine : Engine) (now : UInt64) (key id : String) (fields : List String) :
    let outcome := StreamCommand.addEntry engine.keyspace now key id fields
    (engine.run now (.addEntry key id fields)).1 = outcome.1.map (fun id => .bulkText id.text) ∧
      (engine.run now (.addEntry key id fields)).2.keyspace = outcome.2 := by
  simp only [run, addEntry]
  rcases StreamCommand.addEntry engine.keyspace now key id fields with ⟨_ | added, keyspace⟩
  · exact ⟨rfl, rfl⟩
  · exact ⟨rfl, rfl⟩

/-- A write that succeeds is not answered with an error. -/
theorem run_write_ok (engine : Engine) (now : UInt64) {request : Request}
    (h : request.isWrite = true) {reply : Reply}
    (hrun : (engine.run now request).1 = .ok reply) : reply.isError = false := by
  -- The three writes reply with a status, an integer and the text of an id.
  cases request with
  | set key value options =>
      simp only [run, withKeyspace, KeyCommand.set] at hrun
      cases hdeadline : KeyCommand.deadlineOf now .never options with
      | error e => simp only [hdeadline, reduceCtorEq] at hrun
      | ok deadline =>
          rw [hdeadline] at hrun
          rw [← Except.ok.inj hrun]
          rfl
  | increment key =>
      simp only [run, withKeyspace, KeyCommand.increment] at hrun
      rcases hresult : engine.keyspace.increment now key with ⟨_ | value, keyspace⟩
      · simp only [hresult, Except.map, reduceCtorEq] at hrun
      · rw [hresult] at hrun
        rw [← Except.ok.inj hrun]
        rfl
  | addEntry key id fields =>
      rw [(engine.run_addEntry now key id fields).1] at hrun
      rcases hresult : StreamCommand.addEntry engine.keyspace now key id fields with
        ⟨_ | added, keyspace⟩
      · simp only [hresult, Except.map, reduceCtorEq] at hrun
      · rw [hresult] at hrun
        rw [← Except.ok.inj hrun]
        rfl
  | _ => simp [Request.isWrite] at h

/-- A request that is no write only prunes the keyspace. -/
theorem run_read (engine : Engine) (now : UInt64) {request : Request}
    (h : request.isWrite = false) :
    ∃ keyspace, engine.keyspace.Prunes keyspace ∧
      (engine.run now request).2 = { engine with keyspace } := by
  cases request with
  | set => simp [Request.isWrite] at h
  | increment => simp [Request.isWrite] at h
  | addEntry => simp [Request.isWrite] at h
  | get key =>
      refine ⟨_, engine.keyspace.touch_prunes now key, ?_⟩
      simp only [run, withKeyspace, KeyCommand.get, Keyspace.get]
      cases (engine.keyspace.live? now key).map (·.value) <;> rfl
  | type key =>
      refine ⟨_, engine.keyspace.touch_prunes now key, ?_⟩
      simp only [run, withKeyspace, KeyCommand.type, Keyspace.kind]
      cases (engine.keyspace.live? now key).map (·.value.kind) <;> rfl
  | keys pattern => exact ⟨_, engine.keyspace.keys_prunes now, rfl⟩
  | range key start stop options =>
      simp only [run, withKeyspace, StreamCommand.range]
      -- Bounds that cannot be read are refused before the stream is looked up.
      split
      · exact ⟨_, .refl _, rfl⟩
      · exact ⟨_, engine.keyspace.touch_prunes now key, rfl⟩
  | readStreams arguments =>
      rcases engine.openRead_read now arguments with ⟨keyspace, hprunes, hopen⟩
      simp only [run]
      rcases hread : engine.openRead now arguments with ⟨_ | ⟨read, cursors⟩, opened⟩
      · rw [hread] at hopen
        exact ⟨keyspace, hprunes, hopen⟩
      · -- The starts are resolved first, and then the streams are looked at.
        rw [hread] at hopen
        rcases opened.readAll_read now read.count cursors with ⟨keyspace', hprunes', hread'⟩
        simp only at hopen
        subst hopen
        exact ⟨keyspace', hprunes.trans hprunes', hread'⟩
  | ping message =>
      refine ⟨engine.keyspace, .refl _, ?_⟩
      cases message <;> rfl
  | _ => exact ⟨engine.keyspace, .refl _, rfl⟩

-- A queued command that is no write only prunes the keyspace.
theorem runCommand_read (engine : Engine) (now : UInt64) {command : Command}
    (h : command.name.kind ≠ .write) :
    ∃ keyspace, engine.keyspace.Prunes keyspace ∧
      (engine.runCommand now command).2 = { engine with keyspace } := by
  unfold runCommand
  cases hrequest : Request.ofCommand command with
  | error e => exact ⟨engine.keyspace, .refl _, rfl⟩
  | ok request =>
      have hread : request.isWrite = false := by
        rw [ne_eq, Request.kind_eq_write_iff hrequest] at h
        simpa using h
      exact engine.run_read now hread

/-- A queued command changes at most the keyspace and which readers are woken. -/
theorem runCommand_frame (engine : Engine) (now : UInt64) (command : Command) :
    ∃ keyspace readers,
      (engine.runCommand now command).2 = { engine with keyspace, readers } := by
  unfold runCommand
  cases Request.ofCommand command with
  | error e => exact ⟨_, _, rfl⟩
  | ok request => exact engine.run_frame now request

/-- A queue without writes only prunes the keyspace. -/
theorem runQueue_read (now : UInt64) (queue : List Command) :
    ∀ engine : Engine, (∀ command ∈ queue, command.name.kind ≠ .write) →
      ∃ keyspace, engine.keyspace.Prunes keyspace ∧
        (engine.runQueue now queue).2 = { engine with keyspace } := by
  induction queue with
  | nil => exact fun engine _ => ⟨engine.keyspace, .refl _, rfl⟩
  | cons command rest ih =>
      intro engine h
      rcases engine.runCommand_read now (h command List.mem_cons_self) with
        ⟨keyspace, hprunes, hcommand⟩
      rcases ih { engine with keyspace } fun other hother =>
        h other (List.mem_cons_of_mem _ hother) with ⟨keyspace', hprunes', hrest⟩
      refine ⟨keyspace', hprunes.trans hprunes', ?_⟩
      simp only [runQueue, hcommand, hrest]

/-- A timeless write does to the keyspace what it does to contents. -/
theorem run_effect {since : UInt64} {request : Request}
    (hsettled : engine.keyspace.Settled since) (hsound : engine.keyspace.Sound)
    (hle : since ≤ now) (hwrite : request.isWrite = true) (htimeless : request.Timeless) :
    Keyspace.Effect engine.keyspace.contents (request.write engine.keyspace.contents)
      ((engine.run now request).1, (engine.run now request).2.keyspace) := by
  cases request with
  | set key value options =>
      simp only [run, withKeyspace, KeyCommand.set, Request.write]
      cases options with
      | nil =>
          rw [if_pos rfl, ← Keyspace.set_effect]
          exact .done _ _
      | cons option rest =>
          -- The first option is none that the command knows.
          have hunknown := htimeless option List.mem_cons_self
          rw [if_neg (by simp)]
          simp only [KeyCommand.deadlineOf, hunknown]
          exact .failed _ _ rfl
  | increment key =>
      exact (Keyspace.increment_effect hsettled hle key).map Reply.integer
  | addEntry key id fields =>
      rw [(engine.run_addEntry now key id fields).1, (engine.run_addEntry now key id fields).2]
      simp only [StreamCommand.addEntry, Request.write]
      cases hid : IdRequest.ofText id with
      | error e => exact .failed _ _ rfl
      | ok request =>
          have hrequest := IdRequest.ofText_ne_auto htimeless hid
          cases StreamCommand.pairs? fields with
          | none => exact .failed _ _ rfl
          | some fields =>
              exact (Keyspace.addEntry_effect hsettled hsound hle key hrequest fields).map _
  | _ => simp [Request.isWrite] at hwrite

/-- A timeless request leaves a keyspace settled. -/
theorem run_settled {since : UInt64} {request : Request} (h : engine.keyspace.Settled since)
    (hle : since ≤ now) (htimeless : request.Timeless) :
    (engine.run now request).2.keyspace.Settled since := by
  by_cases hwrite : request.isWrite = true
  · cases request with
    | set key value options =>
        simp only [run, withKeyspace, KeyCommand.set]
        cases options with
        | nil => exact h.insert rfl
        | cons option rest =>
            simp only [KeyCommand.deadlineOf, htimeless option List.mem_cons_self]
            exact h
    | increment key => exact h.increment hle key
    | addEntry key id fields =>
        rw [(engine.run_addEntry now key id fields).2, StreamCommand.addEntry]
        cases IdRequest.ofText id with
        | error e => exact h
        | ok request =>
            cases StreamCommand.pairs? fields with
            | none => exact h
            | some fields => exact h.addEntry hle key request fields
    | _ => simp [Request.isWrite] at hwrite
  · -- Every other request prunes.
    rcases engine.run_read now (Bool.not_eq_true _ ▸ hwrite) with ⟨keyspace, hprunes, hrun⟩
    rw [hrun]
    exact hprunes.settled h

/-- A request does one thing to the keyspace. -/
theorem run_changes (engine : Engine) (now : UInt64) (request : Request) :
    engine.keyspace.Changes now (engine.run now request).2.keyspace := by
  by_cases hwrite : request.isWrite = true
  · cases request with
    | set key value options =>
        simp only [run, withKeyspace, KeyCommand.set]
        cases KeyCommand.deadlineOf now .never options with
        | error e => exact .prunes (.refl _)
        | ok deadline => exact .set key value deadline
    | increment key => exact .increment key
    | addEntry key id fields =>
        rw [(engine.run_addEntry now key id fields).2, StreamCommand.addEntry]
        cases IdRequest.ofText id with
        | error e => exact .prunes (.refl _)
        | ok request =>
            cases StreamCommand.pairs? fields with
            | none => exact .prunes (.refl _)
            | some fields => exact .addEntry key request fields
    | _ => simp [Request.isWrite] at hwrite
  · rcases engine.run_read now (Bool.not_eq_true _ ▸ hwrite) with ⟨keyspace, hprunes, hrun⟩
    rw [hrun]
    exact .prunes hprunes

/-- Every request keeps streams sound. -/
theorem run_sound (h : engine.keyspace.Sound) (now : UInt64) (request : Request) :
    (engine.run now request).2.keyspace.Sound :=
  Keyspace.sound_invariant.changes h (engine.run_changes now request)

/-- A command of a master does what it does where nobody waits. What has to do with a session does
    nothing in either place. -/
theorem apply_engine (engine : Engine) (now : UInt64) (command : Command) :
    (engine.apply now command).2 = (engine.runCommand now command).2 := by
  have hsession : command.name ∈ [.replconf, .multi, .exec, .discard, .psync, .wait] →
      (engine.runCommand now command).2 = engine := by
    intro hname
    unfold runCommand
    cases hrequest : Request.ofCommand command with
    | error e => rfl
    | ok request =>
        rw [Request.name_eq hrequest] at hname
        cases request <;> simp [Request.name] at hname <;> rfl
  unfold apply
  split
  · rename_i hname
    rw [hsession (by simp [hname])]
    split <;> rfl
  all_goals first
    | rfl
    | exact (hsession (by simp [*])).symm

end Engine

end KeyValue
