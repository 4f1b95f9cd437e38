import KeyValue.Proofs.Engine.Reachable
import KeyValue.Proofs.Keyspace.Ledger
import KeyValue.Proofs.Replication.Replaying
import KeyValue.Proofs.Replication.Withholding
import KeyValue.Proofs.Sessions.Storing

/-!
# Writes that fail

A write is tried in three ways: a session sends it, it is run from the queue of a transaction, or
the master of a replica has sent it (`Tries`). If it fails, all that it may have done is to remove
its key if that was expired, which nobody can tell from then on. Nothing is sent, and no reader is
woken (`Untouched`).

The write that takes some care is adding an entry. It puts a stream in place before it knows
whether the stream takes the entry, and when it is refused it removes a stream that has no entries.
No stream of a server is without entries, so what is removed is what was put there just before
(`addEntry_error`). A stream that was put there would stay if it refused to append an id that it has
chosen itself, and it never does.

## Main definitions

* `Engine.Untouched`: Nothing has happened, but that an expired key may be gone.
* `Engine.Tries`: A command is tried, and comes to a reply.

## Theorems

* `live?_of_touched`: Nobody can tell whether a key was touched.
* `run_error`, `runCommand_error`: What a write that fails does.
* `Tries.untouched`: The same for the three ways.
* `failed_write_untouched`: A write that fails is as good as none.
-/

namespace KeyValue

namespace Request

variable {command : Command} {key id : String} {fields : List String}

-- The key of a command that writes is its first word.
theorem head?_of_increment (h : ofCommand command = .ok (.increment key)) :
    command.args.head? = some key := by
  unfold ofCommand at h
  split at h <;> simp_all

theorem head?_of_addEntry (h : ofCommand command = .ok (.addEntry key id fields)) :
    command.args.head? = some key := by
  unfold ofCommand at h
  split at h <;> simp_all

end Request

-- A command that writes can be queued.
theorem CommandName.isTransactionControl_of_write {name : CommandName} (h : name.kind = .write) :
    name.isTransactionControl = false := by
  cases name <;> simp_all [kind, isTransactionControl]

namespace Keyspace

variable {keyspace after : Keyspace} {now : UInt64} {key : String}

/-- Whether a key was touched cannot be told from then on. -/
theorem live?_of_touched (h : ∀ other, after.item? other = (keyspace.touch now key).item? other)
    {later : UInt64} (hle : now ≤ later) (other : String) :
    after.live? later other = keyspace.live? later other := by
  have htouched := ((Ledger.describes_ledger keyspace now).touch key).later hle other
  rw [Ledger.held?_ledger] at htouched
  rw [← htouched, live?, live?, h other]

end Keyspace

namespace Engine

/-- Nothing has happened that a command could do, but that its key was touched: nothing was sent,
    and no reader was woken. -/
structure Untouched (now : UInt64) (command : Command) (before after : Engine) : Prop where
  keyspace : after.keyspace = before.keyspace ∨ ∃ key, command.args.head? = some key ∧
    ∀ other, after.keyspace.item? other = (before.keyspace.touch now key).item? other
  links : after.links = before.links
  readers : after.readers = before.readers

namespace Untouched

variable {now : UInt64} {command : Command} {before after : Engine}

theorem refl (now : UInt64) (command : Command) (engine : Engine) :
    Untouched now command engine engine :=
  ⟨.inl rfl, rfl, rfl⟩

/-- What live keys hold is the same from then on. -/
theorem live? (h : Untouched now command before after) {later : UInt64} (hle : now ≤ later)
    (key : String) : after.keyspace.live? later key = before.keyspace.live? later key := by
  rcases h.keyspace with hsame | ⟨touched, -, htouched⟩
  · rw [hsame]
  · exact Keyspace.live?_of_touched htouched hle key

/-- What is live is still stored. -/
theorem item? (h : Untouched now command before after) {key : String} {item : Item}
    (hlive : before.keyspace.live? now key = some item) :
    after.keyspace.item? key = some item := by
  rw [← h.live? (UInt64.le_refl now)] at hlive
  exact (Option.filter_eq_some_iff.mp hlive).1

/-- At a key where nothing is live nothing is stored afterwards, unless the keyspace was not looked
    at. -/
theorem absent (h : Untouched now command before after) {key : String}
    (hkey : command.args.head? = some key) (habsent : before.keyspace.live? now key = none) :
    after.keyspace.item? key = none ∨ after.keyspace = before.keyspace := by
  rcases h.keyspace with hsame | ⟨touched, htouched, hitem⟩
  · exact .inr hsame
  · obtain rfl : key = touched := Option.some.inj (hkey.symm.trans htouched)
    left
    rw [hitem, Keyspace.item?_touch, if_pos rfl, habsent]

end Untouched

section Running

variable {engine : Engine} {now : UInt64} {command : Command} {e : Error}

/-- A write that fails does nothing. -/
theorem run_error (hsound : engine.keyspace.Sound) {request : Request}
    (hrequest : Request.ofCommand command = .ok request) (hwrite : request.isWrite = true)
    (h : (engine.run now request).1 = .error e) :
    Untouched now command engine (engine.run now request).2 := by
  cases request with
  | set key value options =>
      simp only [run, withKeyspace, KeyCommand.set] at h ⊢
      cases hdeadline : KeyCommand.deadlineOf now .never options with
      | error refusal => exact .refl now command engine
      | ok deadline => simp only [hdeadline, reduceCtorEq] at h
  | increment key =>
      simp only [run, withKeyspace, KeyCommand.increment] at h ⊢
      cases hresult : (engine.keyspace.increment now key).1 with
      | ok number => simp only [hresult, Except.map, reduceCtorEq] at h
      | error refusal =>
          refine ⟨.inr ⟨key, Request.head?_of_increment hrequest, fun other => ?_⟩, rfl, rfl⟩
          simp only [Keyspace.increment_error hresult]
  | addEntry key id fields =>
      simp only [run, addEntry] at h ⊢
      rcases hresult : StreamCommand.addEntry engine.keyspace now key id fields with
        ⟨refusal | added, keyspace⟩
      · refine ⟨?_, rfl, rfl⟩
        unfold StreamCommand.addEntry at hresult
        split at hresult
        · exact .inl (Prod.mk.inj hresult).2.symm
        · split at hresult
          · exact .inl (Prod.mk.inj hresult).2.symm
          · -- The keyspace is only looked at with an id and pairs.
            refine .inr ⟨key, Request.head?_of_addEntry hrequest, fun other => ?_⟩
            have herror := congrArg Prod.fst hresult
            rw [← Keyspace.addEntry_error hsound herror other, hresult]
      · simp only [hresult, reduceCtorEq] at h
  | _ => simp [Request.isWrite] at hwrite

/-- The same of a command that writes, which may be none with a wrong number of arguments. -/
theorem runCommand_error (hsound : engine.keyspace.Sound) (hkind : command.name.kind = .write)
    (h : (engine.runCommand now command).1.isError = true) :
    Untouched now command engine (engine.runCommand now command).2 := by
  unfold runCommand at h ⊢
  cases hrequest : Request.ofCommand command with
  | error e => exact .refl now command engine
  | ok request =>
      rw [hrequest] at h
      simp only at h ⊢
      have hwrite := (Request.kind_eq_write_iff hrequest).mp hkind
      cases hrun : (engine.run now request).1 with
      | error e => exact run_error hsound hrequest hwrite hrun
      | ok reply =>
          rw [hrun] at h
          exact absurd (engine.run_write_ok now hwrite hrun) (by simpa [Reply.ofExcept] using h)

/-- Queued commands are run one part after the other. -/
theorem runQueue_append (now : UInt64) (earlier later : List Command) :
    ∀ engine : Engine, engine.runQueue now (earlier ++ later) =
      ((engine.runQueue now earlier).1 ++ ((engine.runQueue now earlier).2.runQueue now later).1,
        ((engine.runQueue now earlier).2.runQueue now later).2) := by
  induction earlier with
  | nil => exact fun _ => rfl
  | cons command rest ih =>
      intro engine
      simp only [List.cons_append, runQueue, ih]

end Running

/-- A command is tried on an engine that looks like `before` at that moment, comes to a reply, and
    leaves `after`. -/
inductive Tries (engine : Engine) (now : UInt64) (command : Command) :
    Engine → Reply → Engine → Prop where
  /-- A session sends it and is answered. -/
  | sent {session next : Session} {reply : Reply} {after : Engine}
      (hdispatch : engine.dispatch session now command = (.answered (.reply reply), after, next)) :
      Tries engine now command engine reply after
  /-- A session runs its queue, which it is in; its reply is among those of the queue. -/
  | queued {session : Session} {earlier later : List Command} {exec : Command}
      {replies : List Reply} {reply : Reply}
      (hopened : session.transaction = .opened (earlier ++ command :: later))
      (hexec : Request.ofCommand exec = .ok .runTransaction)
      (hdispatch : (engine.dispatch session now exec).1 = .answered (.reply (.array replies)))
      (hreply : replies[earlier.length]? = some reply) :
      Tries engine now command ((engine.record exec).2.runQueue now earlier).2 reply
        ((engine.record exec).2.runQueue now (earlier ++ [command])).2
  /-- The master of a replica has sent it, which has no use for the reply. -/
  | applied : Tries engine now command engine (engine.runCommand now command).1
      (engine.apply now command).2

section Trying

variable {engine before after : Engine} {now : UInt64} {command : Command} {reply : Reply}

-- Recording and concluding are no matter of what a command has done.
theorem Untouched.of_role {recorded handled : Engine} (h : Untouched now command recorded handled)
    (hrecorded : ∃ role, recorded = { before with role })
    (hconcluded : ∃ role, after = { handled with role }) : Untouched now command before after := by
  rcases hrecorded with ⟨role, rfl⟩
  rcases hconcluded with ⟨role', rfl⟩
  exact ⟨h.keyspace, h.links, h.readers⟩

/-- A write that fails does nothing when it is handled. -/
theorem handle_error (hsound : engine.keyspace.Sound) {session next : Session} {index : Option Nat}
    (hkind : command.name.kind = .write) {response : Response}
    (hhandle : engine.handle session now index command = (.answered response, after, next))
    (hfails : response.isFailure = true) : Untouched now command engine after := by
  cases hrequest : Request.ofCommand command with
  | error e =>
      rw [handle_refused hrequest, Prod.mk.injEq, Prod.mk.injEq] at hhandle
      rw [← hhandle.2.1]
      exact .refl now command engine
  | ok request =>
      have hwrite := (Request.kind_eq_write_iff hrequest).mp hkind
      cases htransaction : session.transaction with
      | opened queue =>
          have hcontrol := CommandName.isTransactionControl_of_write hkind
          rw [handle_of_opened hrequest htransaction hcontrol, Prod.mk.injEq,
            Prod.mk.injEq] at hhandle
          rw [← hhandle.2.1]
          exact .refl now command engine
      | closed =>
          rw [handle_of_closed hrequest htransaction, perform_write index hkind hwrite,
            Prod.mk.injEq, Prod.mk.injEq, Dispatch.answered.injEq] at hhandle
          rcases hhandle with ⟨rfl, rfl, -⟩
          unfold runAndForward
          rcases hrun : engine.run now request with ⟨e | reply, ran⟩
          · have herror := run_error hsound hrequest hwrite (congrArg Prod.fst hrun)
            rw [hrun] at herror
            exact herror
          · -- A write that succeeds is forwarded, and is not answered with an error.
            have hok := engine.run_write_ok now hwrite (congrArg Prod.fst hrun)
            simp only [hrun, Response.ofExcept, Response.isFailure, Reply.ofExcept, hok,
              Bool.false_eq_true] at hfails

/-- What is tried from a queue is run when what stands before it was run, and has its reply among
    those of the queue. -/
theorem dispatch_runs_at {session : Session} {earlier later : List Command} {exec : Command}
    {replies : List Reply} (hopened : session.transaction = .opened (earlier ++ command :: later))
    (hexec : Request.ofCommand exec = .ok .runTransaction)
    (hdispatch : (engine.dispatch session now exec).1 = .answered (.reply (.array replies)))
    (hreply : replies[earlier.length]? = some reply) :
    let middle := ((engine.record exec).2.runQueue now earlier).2
    reply = (middle.runCommand now command).1 ∧
      ((engine.record exec).2.runQueue now (earlier ++ [command])).2 =
        (middle.runCommand now command).2 := by
  intro middle
  have hroute : (engine.record exec).2.route session (engine.record exec).1 exec =
      .runs (earlier ++ command :: later) := by
    simp only [route, hexec, hopened]
  have houtcome := (dispatch_outcome engine session now exec).1
  rw [hdispatch, handle_of_runs hroute, Dispatch.answered.injEq, Response.reply.injEq,
    Reply.array.injEq] at houtcome
  have hlength := length_runQueue now earlier (engine.record exec).2
  constructor
  · rw [houtcome, runQueue_append, List.getElem?_append_right (Nat.le_of_eq hlength), hlength,
      Nat.sub_self] at hreply
    exact (Option.some.inj hreply).symm
  · rw [runQueue_append]
    rfl

/-- What a command is tried on is sound. -/
theorem Tries.sound (hsound : engine.keyspace.Sound)
    (h : engine.Tries now command before reply after) : before.keyspace.Sound := by
  cases h with
  | sent hdispatch => exact hsound
  | queued hopened hexec hdispatch hreply =>
      exact Keyspace.sound_invariant.runQueue now _ _ ((engine.record_quiet _).keyspace.sound hsound)
  | applied => exact hsound

/-- A write that is tried and fails does nothing, whichever way it came. -/
theorem Tries.untouched (hsound : engine.keyspace.Sound) (hkind : command.name.kind = .write)
    (h : engine.Tries now command before reply after) (hfails : reply.isError = true) :
    Untouched now command before after := by
  have hbefore := h.sound hsound
  cases h with
  | @sent session next _ _ hdispatch =>
      have hrecord := (engine.record_quiet command).keyspace.sound hsound
      rcases hhandle : (engine.record command).2.handle session now (engine.record command).1
        command with ⟨response | ⟨pending, place⟩, handled, next'⟩
      · rw [engine.dispatch_of_handle now hhandle, Prod.mk.injEq, Prod.mk.injEq,
          Dispatch.answered.injEq] at hdispatch
        rcases hdispatch with ⟨rfl, rfl, -⟩
        have hhandled := handle_error hrecord hkind hhandle hfails
        exact hhandled.of_role (engine.record_role command) (conclude_role _ _ _)
      · simp [dispatch, hhandle] at hdispatch
  | queued hopened hexec hdispatch hreply =>
      rcases dispatch_runs_at hopened hexec hdispatch hreply with ⟨rfl, hafter⟩
      rw [hafter]
      exact runCommand_error hbefore hkind hfails
  | applied =>
      rw [apply_engine]
      exact runCommand_error hsound hkind hfails

end Trying

/-- A write that fails is as good as none, wherever it is tried: what live keys hold is the same
    from then on, nothing is sent to a replica, and no reader is woken. At its key nothing is left
    if nothing live was there, unless the keyspace was not looked at, and what was live there, such
    as a stream, is left in place. An entry that was given an id is always taken. -/
theorem failed_write_untouched {engine : Engine} (hreachable : engine.Reachable) :
    (∀ now command before reply after, command.name ∈ [.set, .incr, .xadd] →
      engine.Tries now command before reply after → reply.isError = true →
        (∀ later, now ≤ later → ∀ key,
          after.keyspace.live? later key = before.keyspace.live? later key) ∧
        after.links = before.links ∧ after.readers = before.readers ∧
        ∀ key, command.args.head? = some key →
          (before.keyspace.live? now key = none →
            after.keyspace.item? key = none ∨ after.keyspace = before.keyspace) ∧
          ∀ item, before.keyspace.live? now key = some item →
            after.keyspace.item? key = some item) ∧
    ∀ (stream : Stream) request now id fields, stream.nextId request now = .ok id →
      stream.append id fields = .ok ⟨stream.entries ++ [⟨id, fields⟩]⟩ := by
  refine ⟨fun now command before reply after hname htries hfails => ?_,
    fun stream request now id fields hid => Stream.append_of_nextId hid fields⟩
  have hkind : command.name.kind = .write := by
    simp only [List.mem_cons, List.not_mem_nil, or_false] at hname
    rcases hname with hname | hname | hname <;> rw [hname] <;> rfl
  have huntouched := htries.untouched hreachable.sound hkind hfails
  refine ⟨fun later hle => huntouched.live? hle, huntouched.links, huntouched.readers, ?_⟩
  exact fun key hkey => ⟨huntouched.absent hkey, fun item => huntouched.item?⟩

/-- An entry with the least id is refused at a key that is absent. A queue adds two entries with the
    same id to a stream, of which the second is refused. -/
theorem failed_write_untouched_twice :
    let first := Command.ofParts .xadd ["s", "5-1", "a", "1"]
    let engine := ((start {} .missing "id").dispatch {} 5 first).2.1
    let least := Command.ofParts .xadd ["t", "0-0", "a", "1"]
    let add := Command.ofParts .xadd ["s", "6-0", "b", "2"]
    let queued := (engine.record (.ofParts .exec [])).2
    (engine.dispatch {} 5 least).2.1.keyspace.item? "t" = none ∧
      (queued.runQueue 5 [add, add]).2.keyspace.item? "s" =
        some ⟨.stream ⟨[⟨⟨5, 1⟩, [("a", "1")]⟩, ⟨⟨6, 0⟩, [("b", "2")]⟩]⟩, .never⟩ := by
  intro first engine least add queued
  have hreachable : engine.Reachable := .dispatch (.start {} .missing "id") _ _ _
  have huntouched := (failed_write_untouched hreachable).1
  have hleast : (engine.dispatch {} 5 least).1 =
      .answered (.reply (.ofError StreamId.notAboveZero)) := rfl
  have hboth : (engine.dispatch { transaction := .opened [add, add] } 5 (.ofParts .exec [])).1 =
      .answered (.reply (.array [.bulkText "6-0", .ofError StreamId.tooSmall])) := rfl
  have hheld : (queued.runQueue 5 [add]).2.keyspace.live? 5 "s" =
      some ⟨.stream ⟨[⟨⟨5, 1⟩, [("a", "1")]⟩, ⟨⟨6, 0⟩, [("b", "2")]⟩]⟩, .never⟩ := by
    decide +kernel
  constructor
  · have htries : engine.Tries 5 least engine (.ofError StreamId.notAboveZero)
        (engine.dispatch {} 5 least).2.1 := .sent (Prod.ext hleast rfl)
    rcases huntouched _ _ _ _ _ (by simp [least, Command.ofParts]) htries rfl with ⟨-, -, -, hkey⟩
    -- Either nothing is stored at the key, or the keyspace is the one before.
    rcases (hkey "t" rfl).1 (by decide +kernel) with hnone | hsame
    · exact hnone
    · rw [hsame]
      decide +kernel
  · have htries := @Tries.queued engine 5 add _ [add] [] _ _ _ rfl rfl hboth rfl
    rcases huntouched _ _ _ _ _ (by simp [add, Command.ofParts]) htries rfl with ⟨-, -, -, hkey⟩
    exact (hkey "s" rfl).2 _ hheld

end Engine

end KeyValue
