import KeyValue.Proofs.Framing.Carrying
import KeyValue.Proofs.Sessions.Turns
import KeyValue.Replication.Following

/-!
# Replaying commands on a replica

A replica applies the commands that it finds in the bytes of its master.

On contents, applying a command is a function that knows no clock (`Contents.apply`). A replica
whose keyspace is settled does what that function says with every command that succeeds on its
contents (`Engine.apply_contents`), and the readings of its clients change nothing. The bytes may
arrive in any pieces: a replica that has taken some of them is in the middle of the stream
(`receive_replays`), and with the last of them it has applied every command
(`Follower.run_replays`).

## Main definitions

* `Contents.apply`, `Contents.applyAll`: What timeless commands do to contents.
* `Follower`: A replica with its clients.
* `Arrival`: What happens to a replica.

## Theorems

* `Engine.apply_contents`, `applyAll_contents`: Applying commands.
* `receive_replays`: A piece of the stream.
* `Follower.run_replays`: The whole stream.
-/

namespace KeyValue

/-- The command does the same at every time. -/
def Command.Timeless (command : Command) : Prop :=
  ∀ request, Request.ofCommand command = .ok request → request.Timeless

namespace Contents

/-- What a timeless command does to contents; none if it fails. -/
def apply (contents : Contents) (command : Command) : Option Contents :=
  match Request.ofCommand command with
  | .ok request => request.write contents
  | .error _ => some contents

/-- What timeless commands do to contents, one after another; none if one of them fails. -/
def applyAll (contents : Contents) : List Command → Option Contents
  | [] => some contents
  | command :: rest => (contents.apply command).bind (·.applyAll rest)

theorem applyAll_append (contents : Contents) (before after : List Command) :
    contents.applyAll (before ++ after) = (contents.applyAll before).bind (·.applyAll after) := by
  induction before generalizing contents with
  | nil => rfl
  | cons command rest ih =>
      rw [List.cons_append, applyAll, applyAll, Option.bind_assoc]
      congr 1
      funext next
      exact ih next

end Contents

namespace Engine

/-- The keyspace can be told by its contents from the time `since` on. -/
structure Steady (since : UInt64) (engine : Engine) : Prop where
  settled : engine.keyspace.Settled since
  sound : engine.keyspace.Sound

theorem Steady.of_prunes {since : UInt64} {before after : Engine} (h : Steady since before)
    (hprunes : before.keyspace.Prunes after.keyspace) : Steady since after :=
  ⟨hprunes.settled h.settled, hprunes.sound h.sound⟩

theorem Steady.of_keyspace {since : UInt64} {before after : Engine} (h : Steady since before)
    (hsame : after.keyspace = before.keyspace) : Steady since after :=
  ⟨hsame ▸ h.settled, hsame ▸ h.sound⟩

-- A timeless command that succeeds on the contents does to the keyspace what it does to them.
theorem runCommand_contents {engine : Engine} {since now : UInt64} (h : Steady since engine)
    (hle : since ≤ now) {command : Command} (htimeless : command.Timeless) {after : Contents}
    (happly : engine.keyspace.contents.apply command = some after) :
    (engine.runCommand now command).2.keyspace.contents = after ∧
      Steady since (engine.runCommand now command).2 := by
  unfold Contents.apply at happly
  unfold runCommand
  cases hrequest : Request.ofCommand command with
  | error e =>
      rw [hrequest] at happly
      exact ⟨Option.some.inj happly, h⟩
  | ok request =>
      rw [hrequest] at happly
      simp only at happly ⊢
      have htimeless := htimeless request hrequest
      refine ⟨?_, run_settled h.settled hle htimeless, run_sound h.sound now request⟩
      by_cases hwrite : request.isWrite = true
      · -- A failed write has no contents to lead to, so this one succeeded.
        have heffect := run_effect h.settled h.sound hle hwrite htimeless
        rw [happly] at heffect
        exact heffect.contents_eq
      · rcases engine.run_read now (Bool.not_eq_true _ ▸ hwrite) with ⟨keyspace, hprunes, hrun⟩
        have hsame : after = engine.keyspace.contents := by
          cases request <;> simp_all [Request.write, Request.isWrite]
        rw [hrun, hsame]
        exact hprunes.contents_eq

/-- Applying a command does what it says on contents. Commands that belong to a session say nothing
    there, and are ignored. -/
theorem apply_contents {engine : Engine} {since now : UInt64} (h : Steady since engine)
    (hle : since ≤ now) {command : Command} (htimeless : command.Timeless) {after : Contents}
    (happly : engine.keyspace.contents.apply command = some after) :
    (engine.apply now command).2.keyspace.contents = after ∧
      Steady since (engine.apply now command).2 := by
  rw [apply_engine]
  exact runCommand_contents h hle htimeless happly

end Engine

namespace Following

theorem updateReplica_keyspace (engine : Engine) (update : Replica → Replica) :
    (engine.updateReplica update).keyspace = engine.keyspace := by
  unfold Engine.updateReplica
  split <;> rfl

theorem applyAll_contents {since now : UInt64} (hle : since ≤ now) (commands : List Command) :
    ∀ {engine : Engine} {after : Contents}, engine.Steady since →
      (∀ command ∈ commands, command.Timeless) →
      engine.keyspace.contents.applyAll commands = some after →
      (applyAll engine now (commands.map .ok)).2.keyspace.contents = after ∧
        (applyAll engine now (commands.map .ok)).2.Steady since := by
  induction commands with
  | nil =>
      intro engine after h _ happly
      exact ⟨Option.some.inj happly, h⟩
  | cons command rest ih =>
      intro engine after h htimeless happly
      rw [Contents.applyAll, Option.bind_eq_some_iff] at happly
      rcases happly with ⟨next, hnext, hrest⟩
      have hcommand := Engine.apply_contents h hle (htimeless command List.mem_cons_self) hnext
      -- The offset is moved on afterwards, which is no matter of the keyspace.
      have hkeyspace : (applyEvent engine now (.ok command)).2.keyspace =
          (engine.apply now command).2.keyspace :=
        updateReplica_keyspace _ _
      have hsteady : (applyEvent engine now (.ok command)).2.Steady since :=
        hcommand.2.of_keyspace hkeyspace
      rw [← hcommand.1, ← hkeyspace] at hrest
      exact ih hsteady (fun other hother => htimeless other (List.mem_cons_of_mem _ hother)) hrest

/-- A piece of a stream that is read to its end without a refusal: the replica applies the commands
    that are complete with it, and is left in the middle of the stream. -/
theorem receive_replays {since now : UInt64} (hle : since ≤ now) {engine : Engine}
    (hsteady : engine.Steady since) {position : Framer.Position} {unread chunk rest : Bytes}
    {commands : List Command} {final : Contents}
    (hreads : Framer.Reads position (unread ++ chunk ++ rest) (commands.map .ok) .start [])
    (hshort : Framer.ShortLines position (unread ++ chunk ++ rest))
    (htimeless : ∀ command ∈ commands, command.Timeless)
    (happly : engine.keyspace.contents.applyAll commands = some final) :
    ∃ last left later,
      (receive ⟨Framer.framerAt position unread⟩ engine now chunk).2.1 =
        ⟨Framer.framerAt last left⟩ ∧
      Framer.look last left = .more ∧
      Framer.Reads last (left ++ rest) (later.map .ok) .start [] ∧
      Framer.ShortLines last (left ++ rest) ∧
      (∀ command ∈ later, command.Timeless) ∧
      (receive ⟨Framer.framerAt position unread⟩ engine now chunk).2.2.Steady since ∧
      (receive ⟨Framer.framerAt position unread⟩ engine now chunk).2.2.keyspace.contents.applyAll
        later = some final := by
  -- The piece is read as the beginning of the whole stream, so its events are commands.
  rcases Framer.Carries.absorb ⟨hreads, hshort⟩ with
    ⟨_, _, last, left, hevents, habsorb, hmore, hlater⟩
  rcases List.map_eq_append_iff.mp hevents with ⟨applied, later, rfl, rfl, rfl⟩
  rw [Contents.applyAll_append, Option.bind_eq_some_iff] at happly
  rcases happly with ⟨middle, hmiddle, hfinal⟩
  have happlied := applyAll_contents hle applied hsteady
    (fun command hmem => htimeless command (List.mem_append_left _ hmem)) hmiddle
  refine ⟨last, left, later, ?_, hmore, hlater.reads, hlater.short,
    fun command hmem => htimeless command (List.mem_append_right _ hmem), ?_, ?_⟩
  · simp only [receive, habsorb]
  · simp only [receive, habsorb]
    exact happlied.2
  · simp only [receive, habsorb]
    rw [happlied.1]
    exact hfinal

end Following

/-- A replica with its clients. -/
structure Follower where
  clients : Clients
  following : Following := {}

/-- What happens to a replica. -/
inductive Arrival where
  /-- A client takes its turn. -/
  | turn (turn : Turn)
  /-- Bytes come in from the master. -/
  | bytes (now : UInt64) (chunk : Bytes)

namespace Arrival

/-- The time of an arrival. -/
def now : Arrival → UInt64
  | turn own => own.now
  | bytes now _ => now

/-- What comes in from the master. -/
def chunk : Arrival → Bytes
  | turn _ => []
  | bytes _ chunk => chunk

end Arrival

/-- The command runs no write, neither at once nor in the queue of a transaction. -/
def Session.WritesNothing (session : Session) (command : Command) : Prop :=
  (session.transaction.isOpen = false → command.name.kind ≠ .write) ∧
    ∀ queue, session.transaction = .opened queue →
      Request.ofCommand command = .ok .runTransaction → ∀ queued ∈ queue, queued.name.kind ≠ .write

-- A command that runs no write only prunes the keyspace.
theorem Engine.dispatch_prunes (engine : Engine) {session : Session} (now : UInt64)
    {command : Command} (h : session.WritesNothing command) :
    engine.keyspace.Prunes (engine.dispatch session now command).2.1.keyspace := by
  have hdoes := dispatch_does engine session now command
  revert hdoes
  generalize (engine.dispatch session now command).2.1 = after
  intro hdoes
  cases hdoes with
  | quiet hquiet => exact hquiet.keyspace
  | @asks middle _ hbefore hafter =>
      have hsame := middle.propagate_keyspace Master.ackRequest
      exact hbefore.keyspace.trans (hsame ▸ hafter.keyspace)
  | writes _ hclosed hrequest hwrite _ =>
      exact absurd ((Request.kind_eq_write_iff hrequest).mpr hwrite) (h.1 hclosed)
  | @runs queue middle _ hbefore hopen hrequest hafter =>
      rcases runQueue_read now queue middle (h.2 queue hopen hrequest) with
        ⟨keyspace, hprunes, hqueue⟩
      rw [hqueue] at hafter
      exact (hbefore.keyspace.trans hprunes).trans hafter.keyspace

namespace Follower

/-- Something happens to a replica. -/
def take (follower : Follower) : Arrival → Follower
  | .turn turn => { follower with clients := follower.clients.take turn }
  | .bytes now chunk =>
    let received := follower.following.receive follower.clients.engine now chunk
    ⟨{ follower.clients with engine := received.2.2 }, received.2.1⟩

/-- Things happen in order. -/
def run (follower : Follower) : List Arrival → Follower
  | [] => follower
  | arrival :: rest => (follower.take arrival).run rest

/-- The clients of a replica run no write. -/
def WritesNothing : Follower → List Arrival → Prop
  | _, [] => True
  | follower, arrival :: rest =>
    (∀ client now command, arrival = .turn (.command client now command) →
      follower.clients.suspended client = none →
      (follower.clients.session client).WritesNothing command) ∧
    WritesNothing (follower.take arrival) rest

/-- A replica that is given a stream in pieces has applied all its commands at the end. -/
theorem run_replays {since : UInt64} {final : Contents} (arrivals : List Arrival) :
    ∀ (follower : Follower) (position : Framer.Position) (unread : Bytes)
      (commands : List Command), follower.following = ⟨Framer.framerAt position unread⟩ →
      Framer.look position unread = .more → follower.clients.engine.Steady since →
      Framer.Reads position (unread ++ arrivals.flatMap (·.chunk)) (commands.map .ok) .start [] →
      Framer.ShortLines position (unread ++ arrivals.flatMap (·.chunk)) →
      (∀ command ∈ commands, command.Timeless) →
      follower.clients.engine.keyspace.contents.applyAll commands = some final →
      (∀ arrival ∈ arrivals, since ≤ arrival.now) → follower.WritesNothing arrivals →
      (follower.run arrivals).clients.engine.keyspace.contents = final ∧
        (follower.run arrivals).clients.engine.Steady since := by
  induction arrivals with
  | nil =>
      intro follower position unread commands _ hmore hsteady hreads hshort _ happly _ _
      -- Nothing is to come, and the bytes at hand lead nowhere: no command is left.
      rw [List.flatMap_nil, List.append_nil] at hreads hshort
      have hdone := Framer.Carries.finished ⟨hreads, hshort⟩ hmore
      rw [List.map_eq_nil_iff.mp hdone] at happly
      exact ⟨Option.some.inj happly, hsteady⟩
  | cons arrival rest ih =>
      intro follower position unread commands hfollowing hmore hsteady hreads hshort htimeless
        happly hclock hwrites
      have hle := hclock arrival List.mem_cons_self
      have hrest : ∀ other ∈ rest, since ≤ other.now := fun other hother =>
        hclock other (List.mem_cons_of_mem _ hother)
      cases arrival with
      | turn turn =>
          -- The clients of the replica read at most, so the stream goes on from the same contents.
          have hprunes : follower.clients.engine.keyspace.Prunes
              (follower.clients.take turn).engine.keyspace := by
            rcases follower.clients.take_engine turn with
              hquiet | ⟨client, now, command, rfl, hwaits, htake⟩
            · exact hquiet.keyspace
            · rw [htake]
              exact Engine.dispatch_prunes _ now (hwrites.1 client now command rfl hwaits)
          refine ih _ position unread commands hfollowing hmore (hsteady.of_prunes hprunes) hreads
            hshort htimeless ?_ hrest hwrites.2
          rw [← happly]
          exact congrArg (·.applyAll commands) hprunes.contents_eq
      | bytes now chunk =>
          rw [List.flatMap_cons, ← List.append_assoc] at hreads hshort
          rcases Following.receive_replays hle hsteady hreads hshort htimeless happly with
            ⟨last, left, later, hreceive, hmore', hreads', hshort', htimeless', hsteady',
              happly'⟩
          rw [← hfollowing] at hreceive hsteady' happly'
          exact ih (follower.take (.bytes now chunk)) last left later hreceive hmore' hsteady'
            hreads' hshort' htimeless' happly' hrest hwrites.2

end Follower

end KeyValue
