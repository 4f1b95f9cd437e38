import KeyValue.Proofs.Engine.Dispatching
import KeyValue.Replication.Following

/-!
# Engines that a server can have

An engine starts without keys. Everything that writes to its keyspace afterwards goes through the
commands of clients, the commands of a master, or the snapshot that a replica takes over.

Replicas that come and go, acknowledgements and bytes on links do not touch the keyspace, so
`Reachable` lets the role and the links become anything at any time.

Whatever happens to a server runs requests, prunes keys, or copies the keys of a snapshot, which is
one of the writes again. So a property of keyspaces that pruning and writes preserve
(`Keyspace.Invariant`) holds of the keyspace of every engine that a server can have.

## Main definitions

* `Engine.Reachable`: The engines that a server can have.

## Theorems

* `Invariant.run`, `Invariant.dispatch`, `Invariant.apply`, `Invariant.load`: Single steps.
* `Invariant.reachable`: Invariants hold of every engine that a server can have.
* `Reachable.sound`: The streams of a server are sound.
* `Reachable.runCommand`: A queued command leaves an engine that a server can have.
-/

namespace KeyValue

namespace Engine

/-- The engines that a server can have. -/
inductive Reachable : Engine → Prop where
  | start (config : Config) (file : Snapshot.File) (replicationId : String) :
      Reachable (.start config file replicationId)
  | dispatch {engine : Engine} (h : Reachable engine) (session : Session) (now : UInt64)
      (command : Command) : Reachable (engine.dispatch session now command).2.1
  | resume {engine : Engine} (h : Reachable engine) (now : UInt64) (pending : Pending)
      (index : Option Nat) : Reachable (engine.resume now pending index).2
  | giveUp {engine : Engine} (h : Reachable engine) (now : UInt64) (pending : Pending)
      (index : Option Nat) : Reachable (engine.giveUp now pending index).2
  | apply {engine : Engine} (h : Reachable engine) (now : UInt64) (command : Command) :
      Reachable (engine.apply now command).2
  | load {engine : Engine} (h : Reachable engine) (now : UInt64)
      (entries : List Snapshot.Entry) : Reachable (engine.load now entries).2
  | surroundings {engine : Engine} (h : Reachable engine) (role : Role) (links : Links) :
      Reachable { engine with role, links }

-- A write that is run at once does what it is answered with; forwarding it writes nothing.
theorem runAndForward_keyspace (engine : Engine) (now : UInt64) (raw : Bytes) (request : Request) :
    (engine.runAndForward now raw request).keyspace = (engine.run now request).2.keyspace := by
  unfold runAndForward
  split
  · rename_i hrun
    rw [propagate_keyspace, hrun]
  · rename_i hrun
    rw [hrun]

end Engine

namespace Keyspace.Invariant

open Engine

variable {p : Keyspace → Prop} (hp : Invariant p) {engine : Engine} (h : p engine.keyspace)
include hp h

theorem quiet {after : Engine} (hquiet : Quiet engine after) : p after.keyspace :=
  hp.prunes h hquiet.keyspace

theorem run (now : UInt64) (request : Request) : p (engine.run now request).2.keyspace :=
  hp.changes h (engine.run_changes now request)

theorem runCommand (now : UInt64) (command : Command) :
    p (engine.runCommand now command).2.keyspace := by
  unfold Engine.runCommand
  cases Request.ofCommand command with
  | error e => exact h
  | ok request => exact hp.run h now request

omit h in
theorem runQueue (now : UInt64) (queue : List Command) :
    ∀ engine : Engine, p engine.keyspace → p (engine.runQueue now queue).2.keyspace := by
  induction queue with
  | nil => exact fun _ h => h
  | cons command rest ih => exact fun engine h => ih _ (hp.runCommand h now command)

theorem dispatch (session : Session) (now : UInt64) (command : Command) :
    p (engine.dispatch session now command).2.1.keyspace := by
  have hdoes := dispatch_does engine session now command
  revert hdoes
  generalize (engine.dispatch session now command).2.1 = after
  intro hdoes
  cases hdoes with
  | quiet hquiet => exact hp.quiet h hquiet
  | @asks middle _ hbefore hafter =>
      have hasked : p (middle.propagate Master.ackRequest).keyspace := by
        rw [propagate_keyspace]
        exact hp.quiet h hbefore
      exact hp.quiet hasked hafter
  | @writes request middle _ hbefore _ _ _ hafter =>
      have hran : p (middle.runAndForward now command.raw request).keyspace := by
        rw [runAndForward_keyspace]
        exact hp.run (hp.quiet h hbefore) now request
      exact hp.quiet hran hafter
  | runs hbefore _ _ hafter =>
      exact hp.quiet (hp.runQueue now _ _ (hp.quiet h hbefore)) hafter

theorem apply (now : UInt64) (command : Command) : p (engine.apply now command).2.keyspace := by
  rw [apply_engine]
  exact hp.runCommand h now command

theorem load (now : UInt64) (entries : List Snapshot.Entry) :
    p (engine.load now entries).2.keyspace := by
  simp only [Engine.load]
  -- The entries that are not expired are set one after the other.
  generalize engine.keyspace = keyspace at h
  generalize entries.filter (fun entry => !entry.isExpired now) = live
  induction live generalizing keyspace with
  | nil => exact h
  | cons entry rest ih => exact ih _ (hp.set h entry.key entry.value entry.deadline)

omit h in
/-- An invariant holds of every engine that a server can have. -/
theorem reachable (h : Reachable engine) : p engine.keyspace := by
  induction h with
  | start => exact hp.empty
  | dispatch _ session now command ih => exact hp.dispatch ih session now command
  | resume _ now pending index ih => exact hp.quiet ih (resume_quiet _ now pending index)
  | giveUp _ now pending index ih => exact hp.quiet ih (giveUp_quiet _ now pending index)
  | apply _ now command ih => exact hp.apply ih now command
  | load _ now entries ih => exact hp.load ih now entries
  | surroundings _ role links ih => exact ih

end Keyspace.Invariant

namespace Engine.Reachable

variable {engine : Engine} (h : engine.Reachable)
include h

/-- The streams of a server have entries, with increasing ids. -/
theorem sound : engine.keyspace.Sound := Keyspace.sound_invariant.reachable h

/-- A queued command does what the same command of a master would do. -/
theorem runCommand (now : UInt64) (command : Command) :
    (engine.runCommand now command).2.Reachable :=
  engine.apply_engine now command ▸ h.apply now command

end Engine.Reachable

end KeyValue
