import KeyValue.Connection
import KeyValue.Proofs.Engine.Reachable
import Mathlib.Logic.Function.Basic

/-!
# Sessions taking turns

Any number of clients share an engine, and act on it one after another.

Each client has a session of its own, and at most one command that waits. A command that does not
wait is one turn; a command that waits takes further turns, whenever it is woken or its time is
over. Nothing is assumed about which client is next or what the clock says then.

## Main definitions

* `Clients`: The engine with its sessions.
* `Turn`: What a client does.
* `Clients.take`, `Clients.run`: One turn and any number of them.
* `Clients.Throughout`: Every command of a run meets a condition.

## Theorems

* `Clients.take_engine`: A turn dispatches a command, or is quiet.
* `Clients.take_changes`: What holds of every command holds of every turn.
-/

namespace KeyValue

/-- The engine with the sessions that act on it. -/
structure Clients where
  engine : Engine
  session : Nat → Session := fun _ => {}
  /-- The commands that wait. -/
  suspended : Nat → Option Suspended := fun _ => none

/-- What a client does. -/
inductive Turn where
  /-- It sends a command. -/
  | command (client : Nat) (now : UInt64) (command : Command)
  /-- Its command that waits looks for a wake-up. -/
  | wake (client : Nat) (now : UInt64)
  /-- The time of its command that waits is over. -/
  | giveUp (client : Nat) (now : UInt64)

/-- The time of a turn. -/
def Turn.now : Turn → UInt64
  | command _ now _ => now
  | wake _ now => now
  | giveUp _ now => now

namespace Clients

/-- A client takes its turn. A client whose command waits sends nothing, and without one there is
    nothing to wake. -/
def take (clients : Clients) : Turn → Clients
  | .command client now command =>
    match clients.suspended client with
    | some _ => clients
    | none =>
      match clients.engine.dispatch (clients.session client) now command with
      | (.answered _, engine, session) =>
        { clients with engine, session := Function.update clients.session client session }
      | (.waits pending index, engine, session) =>
        { engine
          session := Function.update clients.session client session
          suspended := Function.update clients.suspended client (some ⟨pending, index⟩) }
  | .wake client now =>
    match clients.suspended client with
    | none => clients
    | some ⟨pending, index⟩ =>
      match clients.engine.resume now pending index with
      | (none, engine) => { clients with engine }
      | (some _, engine) =>
        { clients with engine, suspended := Function.update clients.suspended client none }
  | .giveUp client now =>
    match clients.suspended client with
    | none => clients
    | some ⟨pending, index⟩ =>
      { clients with
        engine := (clients.engine.giveUp now pending index).2
        suspended := Function.update clients.suspended client none }

/-- Turns are taken in order. -/
def run (clients : Clients) : List Turn → Clients
  | [] => clients
  | turn :: rest => (clients.take turn).run rest

/-- Every command of a run meets a condition on the session that sends it. -/
def Throughout (condition : Session → Command → Prop) : Clients → List Turn → Prop
  | _, [] => True
  | clients, turn :: rest =>
    (∀ client now command, turn = .command client now command →
      clients.suspended client = none → condition (clients.session client) command) ∧
    Throughout condition (clients.take turn) rest

/-- A turn dispatches a command of a client that does not wait, or it is quiet. -/
theorem take_engine (clients : Clients) (turn : Turn) :
    clients.engine.Quiet (clients.take turn).engine ∨
      ∃ client now command, turn = .command client now command ∧
        clients.suspended client = none ∧
        (clients.take turn).engine =
          (clients.engine.dispatch (clients.session client) now command).2.1 := by
  cases turn with
  | command client now command =>
      simp only [take]
      -- A client whose command waits sends nothing.
      cases hwaits : clients.suspended client with
      | some suspended => exact Or.inl (.refl _)
      | none =>
          refine Or.inr ⟨client, now, command, rfl, hwaits, ?_⟩
          simp only
          rcases clients.engine.dispatch (clients.session client) now command with
            ⟨response | ⟨pending, index⟩, engine, session⟩ <;> rfl
  | wake client now =>
      left
      simp only [take]
      rcases clients.suspended client with _ | ⟨pending, index⟩
      · exact .refl _
      · have hresume := Engine.resume_quiet clients.engine now pending index
        simp only
        rcases hresult : clients.engine.resume now pending index with ⟨_ | response, engine⟩
        · rw [hresult] at hresume
          exact hresume
        · rw [hresult] at hresume
          exact hresume
  | giveUp client now =>
      left
      simp only [take]
      rcases clients.suspended client with _ | ⟨pending, index⟩
      · exact .refl _
      · exact Engine.giveUp_quiet clients.engine now pending index

/-- What holds of every command, and of every command that goes on, holds of every turn. -/
theorem take_changes (clients : Clients) {changes : Engine → Engine → Prop}
    (hnothing : ∀ engine, changes engine engine)
    (hdispatch : ∀ session now command,
      changes clients.engine (clients.engine.dispatch session now command).2.1)
    (hresume : ∀ now pending index,
      changes clients.engine (clients.engine.resume now pending index).2)
    (hgiveUp : ∀ now pending index,
      changes clients.engine (clients.engine.giveUp now pending index).2) (turn : Turn) :
    changes clients.engine (clients.take turn).engine := by
  cases turn with
  | command client now command =>
      have h := hdispatch (clients.session client) now command
      simp only [take]
      split
      · exact hnothing _
      · split <;> (rename_i hresult; rw [hresult] at h; exact h)
  | wake client now =>
      simp only [take]
      split
      · exact hnothing _
      · rename_i pending index _
        have h := hresume now pending index
        split <;> (rename_i hresult; rw [hresult] at h; exact h)
  | giveUp client now =>
      simp only [take]
      split
      · exact hnothing _
      · exact hgiveUp now _ _

end Clients

end KeyValue
