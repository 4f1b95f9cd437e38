import KeyValue.Proofs.Engine.Reachable
import KeyValue.Proofs.Keyspace.Streams
import KeyValue.Proofs.Replication.Replaying
import KeyValue.Proofs.Replication.Withholding
import KeyValue.Proofs.Sessions.Storing
import KeyValue.Proofs.Stream.Choosing

/-!
# Writes that look at the clock

A master forwards a write in the bytes that it came in, and a replica runs it again when it comes
in there. Two writes look at the clock: an entry that leaves its id to the stream, and a key that is
set for a time. So a replica that holds the same keys dates them anew.

The ids agree exactly if the stream takes the same milliseconds for the present at both times
(`nextId_auto_iff`), that is if the times are the same or neither lies behind the last entry. The
deadlines agree exactly if the times do, unless both deadlines lie beyond the last moment that can
be told (`afterNow_eq_iff`).

## Main definitions

* `Keyspace.open?`: The stream that an entry is added to.
* `Keyspace.entriesAfter`: The entries of a key when one with the present time was added.
* `KeyCommand.lifetime?`: The time for which options let a key live.

## Theorems

* `Engine.dispatch_direct`, `Following.receive_command`: A write on a master and on a replica.
* `Engine.dispatch_redates`: What both hold after a write that looks at the clock.
-/

namespace KeyValue

namespace Stream

/-- An entry is given the same id at another time exactly if the stream takes the same milliseconds
    for the present. -/
theorem nextId_auto_iff {stream : Stream} {now now' : UInt64} {id : StreamId}
    (h : stream.nextId .auto now = .ok id) :
    stream.nextId .auto now' = .ok id ↔ stream.presentMs now' = stream.presentMs now := by
  rw [nextId_auto] at h ⊢
  constructor
  · intro h'
    rw [← nextIn_ms h', ← nextIn_ms h]
  · intro hsame
    rw [hsame, h]

end Stream

namespace Keyspace

/-- The stream that an entry is added to: the one of the key, or one without entries if nothing is
    there; none if something else is. -/
def open? (keyspace : Keyspace) (now : UInt64) (key : String) : Option Stream :=
  match keyspace.live? now key with
  | none => some .empty
  | some ⟨.stream stream, _⟩ => some stream
  | some _ => none

/-- The entries of a key when one with the present time was added to its stream, as far as that
    succeeds. -/
def entriesAfter (keyspace : Keyspace) (now : UInt64) (key : String)
    (fields : List (String × String)) : List StreamEntry :=
  match keyspace.open? now key with
  | none => []
  | some stream =>
    match stream.nextId .auto now with
    | .ok id => stream.entries ++ [⟨id, fields⟩]
    | .error _ => stream.entries

variable {keyspace other : Keyspace} {now now' : UInt64} {key : String}
  {fields : List (String × String)}

theorem entriesOf_touch (keyspace : Keyspace) (now : UInt64) (key : String) :
    (keyspace.touch now key).entriesOf key =
      (keyspace.live? now key).elim [] (·.value.entries) := by
  rw [entriesOf, item?_touch, if_pos rfl]

/-- What adding an entry with the present time leaves behind. -/
theorem addEntry_auto (keyspace : Keyspace) (now : UInt64) (key : String)
    (fields : List (String × String)) :
    (keyspace.addEntry now key .auto fields).2.entriesOf key =
        keyspace.entriesAfter now key fields ∧
      ∀ id, (keyspace.addEntry now key .auto fields).1 = .ok id →
        ∃ stream, keyspace.open? now key = some stream ∧ stream.nextId .auto now = .ok id := by
  have htouch := keyspace.entriesOf_touch now key
  have herased : ∀ keyspace : Keyspace, (keyspace.erase key).entriesOf key = [] := by
    intro keyspace
    rw [entriesOf, item?_erase, if_pos rfl]
    rfl
  rw [addEntry_eq]
  unfold entriesAfter open?
  rcases hlive : keyspace.live? now key with _ | ⟨value, deadline⟩
  · rw [hlive] at htouch
    simp only [Option.getD_none]
    cases hid : Stream.empty.nextId .auto now with
    | error e => exact ⟨herased _, fun id h => by simp at h⟩
    | ok id =>
        refine ⟨?_, fun found h => ⟨_, rfl, ?_⟩⟩
        · simp only [entriesOf_insert, if_pos]
          rfl
        · rw [← Except.ok.inj h, hid]
  · rw [hlive] at htouch
    cases value with
    | text text => exact ⟨htouch, fun id h => by simp at h⟩
    | integer number => exact ⟨htouch, fun id h => by simp at h⟩
    | stream stream =>
        simp only [Option.getD_some]
        cases hid : stream.nextId .auto now with
        | error e =>
            refine ⟨?_, fun id h => by simp at h⟩
            -- Erased or not, the entries are those of the stream.
            by_cases hempty : stream.isEmpty = true
            · simp only [if_pos hempty, herased]
              exact (List.isEmpty_iff.mp hempty).symm
            · simp only [if_neg hempty]
              exact htouch
        | ok id =>
            refine ⟨?_, fun found h => ⟨_, rfl, ?_⟩⟩
            · simp only [entriesOf_insert, if_pos]
              rfl
            · rw [← Except.ok.inj h, hid]

/-- A stream does not expire, so its entries are those of the key, without a look at the clock. -/
theorem open?_entries {stream : Stream} (hsound : keyspace.Sound)
    (h : keyspace.open? now key = some stream) : stream.entries = keyspace.entriesOf key := by
  have htouch := (keyspace.touch_prunes now key).entriesOf_eq hsound key
  rw [entriesOf_touch] at htouch
  rw [← htouch]
  unfold open? at h
  split at h
  · rename_i hlive
    rw [hlive, ← Option.some.inj h]
    rfl
  · rename_i hlive
    rw [hlive, ← Option.some.inj h]
    rfl
  · simp only [reduceCtorEq] at h

/-- At two times a key is open with the same stream, unless it is not open at one of them. -/
theorem open?_unique {stream stream' : Stream} (hsound : keyspace.Sound)
    (h : keyspace.open? now key = some stream) (h' : keyspace.open? now' key = some stream') :
    stream' = stream := by
  have hentries := (open?_entries hsound h').trans (open?_entries hsound h).symm
  rcases stream with ⟨entries⟩
  rcases stream' with ⟨entries'⟩
  rw [Stream.mk.injEq]
  exact hentries

-- What a key is open with is told by what it holds.
theorem open?_congr (h : other.item? key = keyspace.item? key) :
    other.open? now key = keyspace.open? now key := by
  unfold open? live?
  rw [h]

/-- Another keyspace that holds the same, where the entry is added at another time, has the same
    entries afterwards exactly if the stream takes the same milliseconds for the present. -/
theorem entriesAfter_eq_iff {stream : Stream} {id : StreamId} (hsound : keyspace.Sound)
    (hshared : other.item? key = keyspace.item? key)
    (hopen : keyspace.open? now key = some stream) (hid : stream.nextId .auto now = .ok id) :
    other.entriesAfter now' key fields = stream.entries ++ [⟨id, fields⟩] ↔
      (other.open? now' key).isSome ∧ stream.presentMs now' = stream.presentMs now := by
  rw [← Stream.nextId_auto_iff hid]
  unfold entriesAfter
  rw [open?_congr hshared]
  cases hother : keyspace.open? now' key with
  | none => simp
  | some stream' =>
      obtain rfl := open?_unique hsound hopen hother
      simp only [Option.isSome_some, true_and]
      cases hid' : stream'.nextId .auto now' with
      | error e => simp
      | ok id' => simp

end Keyspace

namespace Deadline

/-- Deadlines after the same time agree exactly if they are counted from the same moment, or lie
    beyond the last one that can be told. -/
theorem afterNow_eq_iff {now now' amount : UInt64} {unitMs : Nat} :
    afterNow now amount unitMs = afterNow now' amount unitMs ↔
      now = now' ∨ (Decimal.maxUInt64 ≤ now.toNat + amount.toNat * unitMs ∧
        Decimal.maxUInt64 ≤ now'.toNat + amount.toNat * unitMs) := by
  have hmax : Decimal.maxUInt64 = 18446744073709551615 := rfl
  have hlt := now.toNat_lt
  have hlt' := now'.toNat_lt
  have hnat : ∀ now : UInt64, (UInt64.ofNat (min Decimal.maxUInt64
      (now.toNat + min Decimal.maxUInt64 (amount.toNat * unitMs)))).toNat =
        min Decimal.maxUInt64 (now.toNat + amount.toNat * unitMs) := by
    intro now
    rw [UInt64.toNat_ofNat_of_lt' (by simp [UInt64.size]; omega)]
    omega
  simp only [afterNow, mk.injEq, ← UInt64.toNat_inj, hnat]
  omega

end Deadline

namespace KeyCommand

/-- The amount and the unit, in milliseconds, of the time for which options let a key live; the last
    option counts. -/
def lifetime? : List String → Option (UInt64 × Nat)
  | [option, amount] => (Decimal.uint64? amount).bind fun n => (expiryUnit? option).map (n, ·)
  | _ :: _ :: rest => lifetime? rest
  | _ => none

/-- Options that are accepted let a key live for the same time whenever they are read. -/
theorem deadlineOf_lifetime {now : UInt64} {deadline found : Deadline} {options : List String}
    (hne : options ≠ []) (h : deadlineOf now deadline options = .ok found) :
    ∃ amount unitMs, lifetime? options = some (amount, unitMs) ∧
      ∀ now' deadline', deadlineOf now' deadline' options = .ok (.afterNow now' amount unitMs) := by
  fun_induction deadlineOf now deadline options with
  | case1 => exact absurd rfl hne
  | case2 | case3 | case4 | case5 => simp only [reduceCtorEq] at h
  | case6 deadline option unitMs hunit text rest amount hamount hzero ih =>
      cases rest with
      | nil =>
          refine ⟨amount, unitMs, ?_, fun now' deadline' => ?_⟩
          · simp only [lifetime?, hamount, hunit, Option.bind_some, Option.map_some]
          · simp only [deadlineOf, hunit, hamount, if_neg hzero]
      | cons later rest =>
          -- What was asked for before is overridden by what comes later.
          rcases ih (by simp) h with ⟨found, unit, hlifetime, hall⟩
          refine ⟨found, unit, ?_, fun now' deadline' => ?_⟩
          · simpa only [lifetime?] using hlifetime
          · rw [deadlineOf]
            simp only [hunit, hamount, if_neg hzero, hall]

end KeyCommand

/-- An entry that leaves its id to the stream asks for the present time. -/
theorem StreamCommand.addEntry_auto (keyspace : Keyspace) (now : UInt64) (key : String)
    {fields : List String} {pairs : List (String × String)} (h : pairs? fields = some pairs) :
    addEntry keyspace now key "*" fields = keyspace.addEntry now key .auto pairs := by
  simp [addEntry, IdRequest.ofText, h]

namespace Engine

theorem conclude_keyspace (engine : Engine) (index : Option Nat) (response : Response) :
    (engine.conclude index response).keyspace = engine.keyspace := by
  rcases engine.conclude_role index response with ⟨role, hconclude⟩
  rw [hconclude]

/-- A write that is run at once is answered with its result, and forwarded in its own bytes if it
    succeeds. -/
theorem dispatch_direct (engine : Engine) {session : Session} (now : UInt64) {command : Command}
    {request : Request} (hrequest : Request.ofCommand command = .ok request)
    (hwrite : request.isWrite = true) (hclosed : session.transaction = .closed) :
    ∃ recorded after : Engine, recorded.keyspace = engine.keyspace ∧
      engine.dispatch session now command =
        (.answered (.ofExcept (recorded.run now request).1), after, session) ∧
      after.keyspace = (recorded.run now request).2.keyspace ∧
      ∀ reply, (recorded.run now request).1 = .ok reply → Relays command.raw engine after := by
  have hrecord := engine.record_quiet command
  have hkind := (Request.kind_eq_write_iff hrequest).mpr hwrite
  have hhandle : (engine.record command).2.handle session now (engine.record command).1 command =
      _ := handle_of_closed hrequest hclosed
  rw [perform_write _ hkind hwrite] at hhandle
  have hrecorded : (engine.record command).2.keyspace = engine.keyspace := by
    rcases engine.record_role command with ⟨role, hrecorded⟩
    rw [hrecorded]
  refine ⟨_, _, hrecorded, engine.dispatch_of_handle now hhandle, ?_, fun reply hreply => ?_⟩
  · rw [conclude_keyspace, runAndForward]
    rcases (engine.record command).2.run now request with ⟨e | reply, ran⟩
    · rfl
    · exact ran.propagate_keyspace command.raw
  · -- Running changes no link, and what is forwarded is the command.
    rcases (engine.record command).2.run_frame now request with ⟨keyspace, readers, hframe⟩
    have hconclude := fun ran => conclude_quiet ran (engine.record command).1
      (.ofExcept ((engine.record command).2.run now request).1)
    have hran : (engine.record command).2.runAndForward now command.raw request =
        ((engine.record command).2.run now request).2.propagate command.raw := by
      unfold runAndForward
      split
      · rename_i hrun
        rw [hrun]
      · rename_i hrun
        simp only [hrun, reduceCtorEq] at hreply
    rw [hran, hframe]
    refine (propagate_relays _ command.raw).congr ?_ ?_ (hconclude _).links (hconclude _).peers
    · exact hrecord.links
    · exact hrecord.peers

end Engine

namespace Framer

/-- A framer that takes the bytes of a command hands it out, and is left as it was. -/
theorem absorb_framed {command : Command} (h : command.Framed) :
    empty.absorb command.raw = ([.ok command], empty) := by
  rcases drain_framerAt .start [] command.raw with ⟨events, last, left, hreads, hstops, hdrain⟩
  rcases hreads.unique hstops h (Or.inl rfl) with ⟨rfl, rfl, rfl⟩
  have hdrain : empty.drain command.raw = ([.ok command], empty) := hdrain
  simp only [absorb, hdrain]
  rfl

end Framer

namespace Following

/-- A command that comes in is run. -/
theorem receive_command {following : Following} (hframer : following.framer = .empty)
    (engine : Engine) (now : UInt64) {command : Command} {request : Request}
    (hrequest : Request.ofCommand command = .ok request) (hframed : command.Framed) :
    (following.receive engine now command.raw).2.2.keyspace =
      (engine.run now request).2.keyspace := by
  have happly := engine.apply_engine now command
  simp only [receive, hframer, Framer.absorb_framed hframed, applyAll, applyEvent, happly,
    updateReplica_keyspace, Engine.runCommand, hrequest]

end Following

/-- A request was run on a master with success, and the same request on a replica. -/
structure RunsTwice (master replica : Engine) (now now' : UInt64) (request : Request)
    (response : Response) (after follower : Engine) : Prop where
  /-- A command is recorded before it is run, which is no matter of the keyspace. -/
  answered : ∃ recorded : Engine, recorded.keyspace = master.keyspace ∧
    after.keyspace = (recorded.run now request).2.keyspace ∧
    ∃ reply, (recorded.run now request).1 = .ok reply ∧ response = .reply reply
  followed : follower.keyspace = (replica.run now' request).2.keyspace

namespace RunsTwice

variable {master replica after follower : Engine} {now now' : UInt64} {response : Response}
  {key value : String} {fields options : List String}

/-- An entry that leaves its id to the stream is given the id for the present on both sides. -/
theorem addEntry (h : RunsTwice master replica now now' (.addEntry key "*" fields) response after
      follower) (hsound : master.keyspace.Sound)
    (hshared : replica.keyspace.item? key = master.keyspace.item? key) :
    ∃ pairs stream id, StreamCommand.pairs? fields = some pairs ∧
      master.keyspace.open? now key = some stream ∧ stream.nextId .auto now = .ok id ∧
      response = .reply (.bulkText id.text) ∧
      after.keyspace.entriesOf key = stream.entries ++ [⟨id, pairs⟩] ∧
      follower.keyspace.entriesOf key = replica.keyspace.entriesAfter now' key pairs ∧
      (follower.keyspace.entriesOf key = after.keyspace.entriesOf key ↔
        (replica.keyspace.open? now' key).isSome ∧
          stream.presentMs now' = stream.presentMs now) := by
  rcases h with ⟨⟨recorded, hrecorded, hafter, reply, hrun, hreply⟩, hfollower⟩
  rw [(recorded.run_addEntry now key "*" fields).2, hrecorded] at hafter
  rw [(recorded.run_addEntry now key "*" fields).1, hrecorded] at hrun
  rw [(replica.run_addEntry now' key "*" fields).2] at hfollower
  cases hpairs : StreamCommand.pairs? fields with
  | none => simp [StreamCommand.addEntry, IdRequest.ofText, hpairs, Except.map] at hrun
  | some pairs =>
      rw [StreamCommand.addEntry_auto _ now key hpairs] at hafter hrun
      rw [StreamCommand.addEntry_auto _ now' key hpairs] at hfollower
      cases hid : (master.keyspace.addEntry now key .auto pairs).1 with
      | error e => simp only [hid, Except.map, reduceCtorEq] at hrun
      | ok id =>
          rw [hid] at hrun
          rcases master.keyspace.addEntry_auto now key pairs with ⟨hentries, hall⟩
          rcases hall id hid with ⟨stream, hstream, hnext⟩
          rw [← hafter, Keyspace.entriesAfter, hstream] at hentries
          simp only [hnext] at hentries
          have hentries' := (replica.keyspace.addEntry_auto now' key pairs).1
          rw [← hfollower] at hentries'
          refine ⟨pairs, stream, id, rfl, hstream, hnext, ?_, hentries, hentries', ?_⟩
          · rw [hreply, ← Except.ok.inj hrun]
          · rw [hentries, hentries']
            exact Keyspace.entriesAfter_eq_iff hsound hshared hstream hnext

/-- A key that is set for a time lives for this time on both sides. -/
theorem set (h : RunsTwice master replica now now' (.set key value options) response after
      follower) (hne : options ≠ []) :
    ∃ amount unitMs, KeyCommand.lifetime? options = some (amount, unitMs) ∧
      response = .reply .ok ∧
      after.keyspace.item? key = some ⟨.ofText value, .afterNow now amount unitMs⟩ ∧
      follower.keyspace.item? key = some ⟨.ofText value, .afterNow now' amount unitMs⟩ ∧
      (follower.keyspace.item? key = after.keyspace.item? key ↔ now' = now ∨
        Decimal.maxUInt64 ≤ now'.toNat + amount.toNat * unitMs ∧
          Decimal.maxUInt64 ≤ now.toNat + amount.toNat * unitMs) := by
  rcases h with ⟨⟨recorded, _, hafter, reply, hrun, hreply⟩, hfollower⟩
  simp only [Engine.run, Engine.withKeyspace, KeyCommand.set] at hrun hafter hfollower
  cases hdeadline : KeyCommand.deadlineOf now .never options with
  | error e => simp only [hdeadline, reduceCtorEq] at hrun
  | ok deadline =>
      rcases KeyCommand.deadlineOf_lifetime hne hdeadline with ⟨amount, unitMs, hlifetime, hall⟩
      simp only [hall] at hrun hafter hfollower
      have hmaster : after.keyspace.item? key =
          some ⟨.ofText value, .afterNow now amount unitMs⟩ := by
        rw [hafter, Keyspace.set, Keyspace.item?_insert, if_pos rfl]
      have hreplica : follower.keyspace.item? key =
          some ⟨.ofText value, .afterNow now' amount unitMs⟩ := by
        rw [hfollower, Keyspace.set, Keyspace.item?_insert, if_pos rfl]
      refine ⟨amount, unitMs, hlifetime, ?_, hmaster, hreplica, ?_⟩
      · rw [hreply, ← Except.ok.inj hrun]
      · rw [hmaster, hreplica, Option.some.injEq, Item.mk.injEq, Deadline.afterNow_eq_iff]
        exact ⟨fun h => h.2, fun h => ⟨rfl, h⟩⟩

end RunsTwice

namespace Engine

variable {master replica after : Engine} {session next : Session} {following : Following}
  {now now' : UInt64} {command : Command} {response : Response} {link : Nat}

/-- A write that succeeds on a master is forwarded in its own bytes, and run again where they come
    in. -/
theorem dispatch_runsTwice (hopen : master.links.isOpen link = true)
    (honce : master.peers.countP (·.link == link) = 1) (hclosed : session.transaction = .closed)
    (hdispatch : master.dispatch session now command = (.answered response, after, next))
    (hsuccess : response.isFailure = false) (hframed : command.Framed)
    (hframer : following.framer = .empty) (replica : Engine) (now' : UInt64) {request : Request}
    (hrequest : Request.ofCommand command = .ok request) (hwrite : request.isWrite = true) :
    RunsTwice master replica now now' request response after
        (following.receive replica now' command.raw).2.2 ∧
      after.links.written link = master.links.written link ++ command.raw := by
  rcases master.dispatch_direct now hrequest hwrite hclosed with
    ⟨recorded, done, hrecorded, hdone, hkeyspace, hrelays⟩
  rw [hdispatch, Prod.mk.injEq, Prod.mk.injEq, Dispatch.answered.injEq] at hdone
  rcases hdone with ⟨hresponse, rfl, -⟩
  have hfollowed := following.receive_command hframer replica now' hrequest hframed
  cases hrun : (recorded.run now request).1 with
  | error e =>
      rw [hresponse, hrun] at hsuccess
      simp [Response.ofExcept, Response.isFailure, Reply.ofExcept, Reply.ofError,
        Reply.isError] at hsuccess
  | ok reply =>
      refine ⟨⟨⟨recorded, hrecorded, hkeyspace, reply, hrun, ?_⟩, hfollowed⟩, ?_⟩
      · rw [hresponse, hrun]
        rfl
      · rw [(hrelays reply hrun).written link hopen, copies, honce]
        simp

/-- A master runs a write at once and forwards it, and a replica that holds the same keys runs it
    again when it comes in, at its own time. Each gives an entry that leaves its id to the stream the
    id for its own time, and each lets a key live from its own time on. -/
theorem dispatch_redates (hreachable : master.Reachable)
    (hshared : ∀ key, replica.keyspace.item? key = master.keyspace.item? key)
    (hopen : master.links.isOpen link = true)
    (honce : master.peers.countP (·.link == link) = 1)
    (hclosed : session.transaction = .closed) (hframed : command.Framed)
    (hdispatch : master.dispatch session now command = (.answered response, after, next))
    (hsuccess : response.isFailure = false) (hframer : following.framer = .empty) :
    let follower := (following.receive replica now' command.raw).2.2
    (command.name.kind = .write →
      after.links.written link = master.links.written link ++ command.raw) ∧
    (∀ key fields, Request.ofCommand command = .ok (.addEntry key "*" fields) →
      ∃ pairs stream id, StreamCommand.pairs? fields = some pairs ∧
        master.keyspace.open? now key = some stream ∧ stream.nextId .auto now = .ok id ∧
        response = .reply (.bulkText id.text) ∧
        after.keyspace.entriesOf key = stream.entries ++ [⟨id, pairs⟩] ∧
        follower.keyspace.entriesOf key = replica.keyspace.entriesAfter now' key pairs ∧
        (follower.keyspace.entriesOf key = after.keyspace.entriesOf key ↔
          (replica.keyspace.open? now' key).isSome ∧
            stream.presentMs now' = stream.presentMs now)) ∧
    (∀ key value options, Request.ofCommand command = .ok (.set key value options) →
      options ≠ [] → ∃ amount unitMs, KeyCommand.lifetime? options = some (amount, unitMs) ∧
        response = .reply .ok ∧
        after.keyspace.item? key = some ⟨.ofText value, .afterNow now amount unitMs⟩ ∧
        follower.keyspace.item? key = some ⟨.ofText value, .afterNow now' amount unitMs⟩ ∧
        (follower.keyspace.item? key = after.keyspace.item? key ↔ now' = now ∨
          Decimal.maxUInt64 ≤ now'.toNat + amount.toNat * unitMs ∧
            Decimal.maxUInt64 ≤ now.toNat + amount.toNat * unitMs)) := by
  intro follower
  have htwice := fun request => @dispatch_runsTwice master after session next following now command
    response link hopen honce hclosed hdispatch hsuccess hframed hframer replica now' request
  refine ⟨fun hkind => ?_, fun key fields hrequest => ?_, fun key value options hrequest hne => ?_⟩
  · cases hrequest : Request.ofCommand command with
    | error e =>
        -- What is no request is refused.
        have houtcome := (master.dispatch_outcome session now command).1
        rw [hdispatch, handle_refused hrequest, Dispatch.answered.injEq] at houtcome
        rw [houtcome] at hsuccess
        simp [Response.refusal, Response.isFailure, Reply.ofError, Reply.isError] at hsuccess
    | ok request =>
        exact (htwice request hrequest ((Request.kind_eq_write_iff hrequest).mp hkind)).2
  · exact (htwice _ hrequest rfl).1.addEntry hreachable.sound (hshared key)
  · exact (htwice _ hrequest rfl).1.set hne

/-- An entry is added and a key is set for a tenth of a second; both come in two milliseconds later,
    where they are given another id and another deadline. -/
theorem dispatch_redates_later :
    let add := Command.ofParts .xadd ["s", "*", "f", "v"]
    let set := Command.ofParts .set ["k", "v", "PX", "100"]
    let added := (withReplica.dispatch {} 5 add).2.1
    let set' := (withReplica.dispatch {} 5 set).2.1
    (Following.receive {} withReplica 7 add.raw).2.2.keyspace.entriesOf "s" ≠
        added.keyspace.entriesOf "s" ∧
      (Following.receive {} withReplica 7 set.raw).2.2.keyspace.item? "k" ≠
        set'.keyspace.item? "k" := by
  intro add set added set'
  have hreachable : withReplica.Reachable := .surroundings (.start {} .missing "id") _ _
  have hadd : add.Framed := Framer.framed_of_delivered ⟨[add.raw], by decide +kernel⟩
  have hset : set.Framed := Framer.framed_of_delivered ⟨[set.raw], by decide +kernel⟩
  have hok : (withReplica.dispatch {} 5 set).1 = .answered (.reply .ok) :=
    Dispatch.status?_eq_some_iff.mp (by decide +kernel)
  constructor
  · have hredates := @dispatch_redates withReplica withReplica _ {} _ {} 5 7 add
      (.reply (.bulkText "5-0")) 0 hreachable (fun _ => rfl) rfl rfl rfl hadd rfl rfl rfl
    rcases hredates.2.1 "s" ["f", "v"] rfl with ⟨_, stream, _, _, hstream, _, _, _, _, hiff⟩
    intro hsame
    obtain rfl : Stream.empty = stream := Option.some.inj hstream
    exact absurd (hiff.mp hsame).2 (by decide)
  · have hredates := @dispatch_redates withReplica withReplica _ {} _ {} 5 7 set (.reply .ok) 0
      hreachable (fun _ => rfl) rfl rfl rfl hset (Prod.ext hok rfl) rfl rfl
    rcases hredates.2.2 "k" "v" ["PX", "100"] rfl (by simp) with
      ⟨amount, unitMs, hlifetime, _, _, _, hiff⟩
    have htenth : KeyCommand.lifetime? ["PX", "100"] = some (100, 1) := by decide +kernel
    rw [htenth, Option.some.injEq, Prod.mk.injEq] at hlifetime
    rcases hlifetime with ⟨rfl, rfl⟩
    intro hsame
    rcases hiff.mp hsame with hnow | hlast
    · exact absurd hnow (by decide)
    · exact absurd hlast.1 (by decide)

/-- Ids and deadlines differ on the two sides if the write comes in later. -/
theorem dispatch_dates_apart :
    let add := Command.ofParts .xadd ["s", "*", "f", "v"]
    let set := Command.ofParts .set ["k", "v", "PX", "100"]
    (withReplica.dispatch {} 5 add).1 = .answered (.reply (.bulkText "5-0")) ∧
      (withReplica.dispatch {} 5 add).2.1.keyspace.entriesOf "s" = [⟨⟨5, 0⟩, [("f", "v")]⟩] ∧
      (Following.receive {} withReplica 7 add.raw).2.2.keyspace.entriesOf "s" =
        [⟨⟨7, 0⟩, [("f", "v")]⟩] ∧
      (withReplica.dispatch {} 5 set).1.status? = some "OK" ∧
      (withReplica.dispatch {} 5 set).2.1.keyspace.item? "k" = some ⟨.text "v", ⟨105⟩⟩ ∧
      (Following.receive {} withReplica 7 set.raw).2.2.keyspace.item? "k" =
        some ⟨.text "v", ⟨107⟩⟩ := by
  refine ⟨rfl, ?_, ?_, ?_, ?_, ?_⟩ <;> decide +kernel

end Engine

end KeyValue
