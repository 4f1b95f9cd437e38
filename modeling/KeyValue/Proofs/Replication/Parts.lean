import KeyValue.Proofs.Engine.Setup
import KeyValue.Proofs.Framing.Encoding
import KeyValue.Proofs.Replication.Handshaking
import KeyValue.Proofs.Sessions.Enrolling
import Mathlib.Data.Nat.Digits.Defs

/-!
# What a master answers to a new replica

What a replica asks in its handshake, as the master sees it.

The lines of the handshake are commands with their answers (`Part`). Framed in any way, the requests
are read as these commands. On a session with no open transaction, each greeting is answered as the
replica expects it, whatever the state of the server is, and nothing else happens
(`Engine.dispatch_greeting`). The request for a resync is answered by a master with what it
announces (`Engine.dispatch_plea`).

## Main definitions

* `Part`: A command of the replica, with the bytes that answer it.
* `Part.script`: The greetings, and then the request for a resync.

## Theorems

* `Part.carries`: The requests are read as what they are.
* `Part.script_lines`: The script is the handshake of the replica.
* `Engine.dispatch_greeting`, `Engine.dispatch_plea`: What the commands are answered with.
-/

namespace KeyValue

open Framer Handshake Wire

namespace Framer

/-- A command in its canonical wire form is read as itself. -/
theorem carries_ofParts (name : CommandName) {args : List String}
    (hcount : args.length < maxArrayLength)
    (hlengths : ∀ arg ∈ args, (Text.bytes arg).length ≤ maxBulkLength) :
    Carries .start (Command.ofParts name args).raw [.ok (.ofParts name args)] := by
  have hcarries := @carries_command name (args.map Text.bytes) (by simpa using hcount)
    (by simpa using hlengths)
  have hraw : encoded (Text.bytes name.text :: args.map Text.bytes) =
      (Command.ofParts name args).raw := by
    simp [encoded, Command.ofParts, Wire.request, Reply.bulkTexts, Function.comp_def,
      show Reply.bulkText = fun text => Reply.bulk (Text.bytes text) from rfl]
  have hargs : (args.map Text.bytes).map Text.ofBytes = args := by
    simp [Function.comp_def, Text.ofBytes_bytes]
  rwa [hraw, hargs] at hcarries

end Framer

/-- A command of the replica, with the bytes that answer it. -/
structure Part where
  command : Command
  answer : Bytes

namespace Part

/-- What the replica sees of it. -/
def line (part : Part) : Line := ⟨part.command.raw, part.answer⟩

/-- The greetings of a replica that listens on a port. -/
def greetings (port : UInt16) : List Part :=
  [⟨.ofParts .ping [], (Reply.simple "PONG").encode⟩,
    ⟨.ofParts .replconf ["listening-port", Nat.repr port.toNat], Reply.ok.encode⟩,
    ⟨.ofParts .replconf ["capa", "psync2"], Reply.ok.encode⟩]

/-- The request for a resync. -/
def plea (resync : Resync) : Part := ⟨.ofParts .psync ["?", "-1"], resync.welcome⟩

/-- All that is said. -/
def script (port : UInt16) (resync : Resync) : List Part := greetings port ++ [plea resync]

variable {port : UInt16} {resync : Resync} {part : Part} {answered later : List Part}

-- The request for a resync is the last one.
theorem greeting_or_plea (h : script port resync = answered ++ part :: later) :
    part ∈ greetings port ∧ later ≠ [] ∨ part = plea resync ∧ later = [] := by
  rcases List.eq_nil_or_concat' later with rfl | ⟨middle, last, rfl⟩
  · have hlast := (List.append_inj' h rfl).2
    exact Or.inr ⟨(List.singleton_inj.mp hlast).symm, rfl⟩
  · rw [← List.cons_append, ← List.append_assoc] at h
    have hgreetings := (List.append_inj' h rfl).1
    refine Or.inl ⟨?_, List.append_ne_nil_of_right_ne_nil _ (List.cons_ne_nil _ _)⟩
    rw [hgreetings]
    exact List.mem_append_right _ List.mem_cons_self

/-- A master leaves no part without an answer. -/
theorem answer_ne_nil (h : part ∈ script port resync) : part.answer ≠ [] := by
  simp only [script, greetings, List.mem_append, List.mem_cons, List.not_mem_nil, or_false] at h
  rcases h with (rfl | rfl | rfl) | rfl
  · exact List.length_pos_iff.mp (Reply.encode_length_pos _)
  · exact List.length_pos_iff.mp (Reply.encode_length_pos _)
  · exact List.length_pos_iff.mp (Reply.encode_length_pos _)
  · exact List.append_ne_nil_of_left_ne_nil (List.length_pos_iff.mp (Reply.encode_length_pos _)) _

/-- The requests are read as the commands that they are. -/
theorem carries (h : part ∈ script port resync) :
    Carries .start part.command.raw [.ok part.command] := by
  have hport : (Text.bytes (Nat.repr port.toNat)).length ≤ maxBulkLength := by
    have hbytes := Text.length_bytes_le (Nat.repr port.toNat)
    have hlength := Nat.repr_length port.toNat 5 (by decide)
      (port.toNat_lt.trans (by decide))
    rw [maxBulkLength]
    omega
  simp only [script, greetings, List.mem_append, List.mem_cons, List.not_mem_nil, or_false] at h
  rcases h with (rfl | rfl | rfl) | rfl
  · exact carries_ofParts .ping (by decide) (by simp)
  · refine carries_ofParts .replconf (show 2 < maxArrayLength by decide) ?_
    simp only [List.forall_mem_cons, hport, List.not_mem_nil, false_implies, implies_true,
      and_true]
    decide +kernel
  · exact carries_ofParts .replconf (by decide) (by decide +kernel)
  · exact carries_ofParts .psync (by decide) (by decide +kernel)

theorem script_lines (port : UInt16) (resync : Resync) :
    (script port resync).map line = lines (exchanges port) resync := rfl

/-- What a replica says in all parts is its commands in a row. -/
theorem requests_lines (parts : List Part) :
    requests (parts.map line) = parts.flatMap (·.command.raw) := List.flatMap_map ..

/-- What a master answers to all parts is its answers in a row. -/
theorem answers_lines (parts : List Part) : answers (parts.map line) = parts.flatMap (·.answer) :=
  List.flatMap_map ..

end Part

namespace Engine

/-- The two options that a replica tells of itself are answered with OK, and change nothing. -/
theorem converse_ok (engine : Engine) (replicaId : Option Nat) {option : String}
    (h : option.toLower = "listening-port" ∨ option.toLower = "capa") (arguments : List String) :
    engine.converse replicaId option arguments = (.reply .ok, engine) := by
  unfold converse
  rcases h with h | h <;> simp [h]

-- What is answered at once, and changes nothing.
theorem dispatch_of_perform (engine : Engine) {session : Session}
    (hclosed : session.transaction = .closed) (now : UInt64) {command : Command} {request : Request}
    (hrequest : Request.ofCommand command = .ok request) {response : Response}
    (hperform : ∀ (recorded : Engine) (index : Option Nat),
      recorded.perform session now index command request =
        (.answered response, recorded, session)) :
    ∃ after, engine.dispatch session now command = (.answered response, after, session) ∧
      engine.Quiet after :=
  ⟨_, engine.dispatch_of_handle now
      ((handle_of_closed hrequest hclosed).trans (hperform _ _)),
    (engine.record_quiet command).trans (conclude_quiet _ _ _)⟩

/-- A greeting is answered as it should be, and nothing else happens. -/
theorem dispatch_greeting (engine : Engine) {session : Session}
    (hclosed : session.transaction = .closed) (now : UInt64) {port : UInt16} {part : Part}
    (h : part ∈ Part.greetings port) :
    ∃ reply after, engine.dispatch session now part.command =
        (.answered (.reply reply), after, session) ∧
      reply.encode = part.answer ∧ engine.Quiet after := by
  have hping : ∀ (recorded : Engine) (index : Option Nat),
      recorded.perform session now index (.ofParts .ping []) (.ping none) =
        (.answered (.reply (.simple "PONG")), recorded, session) := fun _ _ => rfl
  have hreplconf (option argument : String)
      (hoption : option.toLower = "listening-port" ∨ option.toLower = "capa")
      (recorded : Engine) (index : Option Nat) :
      recorded.perform session now index (.ofParts .replconf [option, argument])
        (.replication option [argument]) = (.answered (.reply .ok), recorded, session) := by
    simp only [perform, recorded.converse_ok _ hoption]
  simp only [Part.greetings, List.mem_cons, List.not_mem_nil, or_false] at h
  rcases h with rfl | rfl | rfl
  · rcases engine.dispatch_of_perform hclosed now rfl hping with ⟨after, hdispatch, hquiet⟩
    exact ⟨_, after, hdispatch, rfl, hquiet⟩
  · have hoption : "listening-port".toLower = "listening-port" :=
      Text.toLower_eq_iff.mpr (by decide)
    rcases engine.dispatch_of_perform hclosed now rfl (hreplconf _ _ (Or.inl hoption)) with
      ⟨after, hdispatch, hquiet⟩
    exact ⟨_, after, hdispatch, rfl, hquiet⟩
  · have hoption : "capa".toLower = "capa" := Text.toLower_eq_iff.mpr (by decide)
    rcases engine.dispatch_of_perform hclosed now rfl (hreplconf _ _ (Or.inr hoption)) with
      ⟨after, hdispatch, hquiet⟩
    exact ⟨_, after, hdispatch, rfl, hquiet⟩

/-- To tell about oneself is not to ask for a resync. -/
theorem not_grants_greeting (engine : Engine) {session : Session}
    (hclosed : session.transaction = .closed) {port : UInt16} {part : Part}
    (h : part ∈ Part.greetings port) : ¬engine.grants session part.command = true := by
  rw [← @dispatch_fullResync_iff engine session 0 part.command]
  rcases engine.dispatch_greeting hclosed 0 h with ⟨reply, after, hdispatch, -⟩
  simp [hdispatch]

section Announcing

variable {engine : Engine} {session : Session} {resync : Resync}
  (h : engine.announced = some (resync.replicationId, resync.offset))
include h

/-- Whoever announces something is a master. -/
theorem isSome_of_announced : engine.role.master?.isSome = true := by
  have hsome := congrArg Option.isSome h
  rwa [announced, Option.isSome_map] at hsome

/-- A master answers with what it announces, and with a snapshot without keys. -/
theorem resync_of_announced (hsnapshot : resync.snapshot = Snapshot.empty) :
    engine.resync = .fullResync resync.header resync.snapshot := by
  rcases Role.eq_master_of_isSome (isSome_of_announced h) with ⟨master, hrole⟩
  simp only [announced, hrole, Role.master?, Option.map_some, Master.announced, Option.some_inj,
    Prod.mk.injEq] at h
  simp only [Engine.resync, hrole, Resync.header, hsnapshot, h]

/-- A master grants a resync to whoever asks for one outside of a transaction. -/
theorem grants_plea (hclosed : session.transaction = .closed) :
    engine.grants session (Part.plea resync).command = true := by
  simp only [grants, isSome_of_announced h, hclosed, Transaction.isOpen]
  rfl

/-- A master answers the request for a resync with what it announces. -/
theorem dispatch_plea (hsnapshot : resync.snapshot = Snapshot.empty)
    (hclosed : session.transaction = .closed) (now : UInt64) :
    ∃ after, engine.dispatch session now (Part.plea resync).command =
        (.answered (.fullResync resync.header resync.snapshot), after, session) ∧
      engine.Quiet after := by
  rcases dispatch_of_grants now (grants_plea h hclosed) with ⟨master, after, -, hdispatch, hquiet⟩
  rw [resync_of_announced h hsnapshot] at hdispatch
  exact ⟨after, hdispatch, hquiet⟩

end Announcing

end Engine

namespace Connection

/-- A greeting is answered on the connection, and nothing else happens. -/
theorem handle_greeting (connection : Connection) (engine : Engine)
    (hclosed : connection.session.transaction = .closed) (now : UInt64) {port : UInt16}
    {part : Part} (h : part ∈ Part.greetings port) :
    ∃ after, connection.handle engine now (.ok part.command) =
        (connection, connection.write after part.answer) ∧
      engine.Quiet after := by
  rcases engine.dispatch_greeting hclosed now h with ⟨reply, after, hdispatch, hanswer, hquiet⟩
  exact ⟨after, by simp only [handle, hdispatch, answer, hanswer], hquiet⟩

end Connection

end KeyValue
