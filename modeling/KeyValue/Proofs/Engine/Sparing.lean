import KeyValue.Proofs.Engine.Dispatching

/-!
# Links that commands spare

A command does not write to the link of a client. What it writes goes to replicas, and which links
are those of replicas is not changed by commands at all: a link is registered by the connection
that owns it, after a resync. So a link without a replica is spared (`Spares`) by every command,
whoever sends it, and what is written to it comes from its own connection only.

## Main definitions

* `Engine.Unlinked`: No replica is registered on a link.
* `Engine.Spares`: Nothing is written to a link, and no replica is registered on it.

## Theorems

* `Quiet.spares`, `propagate_spares`: What quiet changes and forwarded bytes spare.
* `dispatch_spares`: Commands spare links without replicas.
* `resume_spares`, `giveUp_spares`: Commands that wait spare all links.
-/

namespace KeyValue

namespace Engine

variable {link : Nat}

/-- No replica is registered on the link. -/
def Unlinked (engine : Engine) (link : Nat) : Prop := ∀ peer ∈ engine.peers, peer.link ≠ link

/-- Nothing is written to a link, it stays open or closed, and no replica is registered on it. -/
structure Spares (link : Nat) (before after : Engine) : Prop where
  written : after.links.written link = before.links.written link
  isOpen : after.links.isOpen link = before.links.isOpen link
  unlinked : before.Unlinked link → after.Unlinked link

namespace Spares

variable {before middle after : Engine}

theorem refl (link : Nat) (engine : Engine) : Spares link engine engine := ⟨rfl, rfl, fun h => h⟩

theorem trans (h : Spares link before middle) (h' : Spares link middle after) :
    Spares link before after :=
  ⟨h'.written.trans h.written, h'.isOpen.trans h.isOpen,
    fun hlink => h'.unlinked (h.unlinked hlink)⟩

end Spares

theorem Quiet.spares {before after : Engine} (h : Quiet before after) (link : Nat) :
    Spares link before after := by
  refine ⟨by rw [h.links], by rw [h.links], ?_⟩
  unfold Unlinked
  rw [h.peers]
  exact fun hlink => hlink

-- Running requests changes neither the links nor the replicas.
theorem spares_frame (engine : Engine) (keyspace : Keyspace) (readers : Readers) (link : Nat) :
    Spares link engine { engine with keyspace, readers } :=
  ⟨rfl, rfl, fun h => h⟩

/-- Forwarded bytes spare a link without a replica. -/
theorem propagate_spares {engine : Engine} (h : engine.Unlinked link) (bytes : Bytes) :
    Spares link engine (engine.propagate bytes) := by
  refine ⟨?_, engine.propagate_isOpen bytes link, ?_⟩
  · rw [propagate_eq]
    unfold Unlinked at h
    generalize engine.peers = peers at h
    generalize engine.links = links
    induction peers generalizing links with
    | nil => rfl
    | cons peer rest ih =>
        rw [List.forall_mem_cons] at h
        rw [List.foldl_cons]
        refine (ih h.2 _).trans ?_
        rw [links.written_write, if_neg fun hlink => h.1 hlink.1.symm]
  · unfold Unlinked
    rw [propagate_peers]
    exact fun hlink => hlink

theorem runAndForward_spares {engine : Engine} (h : engine.Unlinked link) (now : UInt64)
    (raw : Bytes) (request : Request) :
    Spares link engine (engine.runAndForward now raw request) := by
  rcases engine.run_frame now request with ⟨keyspace, readers, hrun⟩
  have hframe := engine.spares_frame keyspace readers link
  unfold runAndForward
  rcases hresult : engine.run now request with ⟨_ | reply, after⟩
  · rw [hresult] at hrun
    rw [← hrun] at hframe
    exact hframe
  · rw [hresult] at hrun
    rw [← hrun] at hframe
    exact hframe.trans (propagate_spares (hframe.unlinked h) raw)

theorem runQueue_spares (now : UInt64) (link : Nat) (queue : List Command) :
    ∀ engine : Engine, Spares link engine (engine.runQueue now queue).2 := by
  induction queue with
  | nil => exact .refl link
  | cons command rest ih =>
      intro engine
      rcases engine.runCommand_frame now command with ⟨keyspace, readers, hcommand⟩
      have hframe := engine.spares_frame keyspace readers link
      rw [← hcommand] at hframe
      exact hframe.trans (ih _)

/-- Commands spare a link without a replica. -/
theorem dispatch_spares {engine : Engine} (h : engine.Unlinked link) (session : Session)
    (now : UInt64) (command : Command) :
    Spares link engine (engine.dispatch session now command).2.1 := by
  have hdoes := dispatch_does engine session now command
  revert hdoes
  generalize (engine.dispatch session now command).2.1 = after
  intro hdoes
  cases hdoes with
  | quiet hquiet => exact hquiet.spares link
  | asks hbefore hafter =>
      have hspares := hbefore.spares link
      exact (hspares.trans (propagate_spares (hspares.unlinked h) _)).trans (hafter.spares link)
  | writes hbefore _ _ _ hafter =>
      have hspares := hbefore.spares link
      exact (hspares.trans (runAndForward_spares (hspares.unlinked h) now _ _)).trans
        (hafter.spares link)
  | runs hbefore _ _ hafter =>
      exact ((hbefore.spares link).trans (runQueue_spares now link _ _)).trans (hafter.spares link)

theorem resume_spares (engine : Engine) (now : UInt64) (pending : Pending) (index : Option Nat)
    (link : Nat) : Spares link engine (engine.resume now pending index).2 :=
  (resume_quiet engine now pending index).spares link

theorem giveUp_spares (engine : Engine) (now : UInt64) (pending : Pending) (index : Option Nat)
    (link : Nat) : Spares link engine (engine.giveUp now pending index).2 :=
  (giveUp_quiet engine now pending index).spares link

end Engine

end KeyValue
