import KeyValue.Engine

/-!
# What is forwarded

Bytes that are forwarded reach every open link once for each replica registered on it.

A link that is closed receives nothing, and which links are open does not change. So what a link
receives does not depend on the other links, whether they are open or not.

## Main definitions

* `Engine.copies`: How many replicas are registered on a link.

## Theorems

* `Links.written_write`, `Links.isOpen_write`: Writing to one link.
* `Master.written_propagate`, `Engine.written_propagate_copies`: What a link receives.
* `Engine.written_propagate`: The same, for the replica of a link that is registered once.
-/

namespace KeyValue

namespace Links

theorem isOpen_write (links : Links) (link other : Nat) (bytes : Bytes) :
    (links.write link bytes).isOpen other = links.isOpen other := by
  unfold isOpen write
  rw [List.getElem?_modify]
  cases links.all[other]? with
  | none => rfl
  | some found =>
      simp only [Option.map_eq_map, Option.map_some, Option.getD_some]
      by_cases hlink : link = other
      · rw [if_pos hlink]
        split <;> rfl
      · rw [if_neg hlink]

/-- A link receives what is written to it while it is open. -/
theorem written_write (links : Links) (link other : Nat) (bytes : Bytes) :
    (links.write link bytes).written other =
      if other = link ∧ links.isOpen link = true then links.written other ++ bytes
      else links.written other := by
  unfold written write isOpen
  rw [List.getElem?_modify]
  by_cases hlink : other = link
  · subst hlink
    cases links.all[other]? with
    | none => simp
    | some found =>
        by_cases hopen : found.isOpen = true
        · simp [hopen]
        · simp [hopen]
  · have hne : ¬ link = other := fun h => hlink h.symm
    rw [if_neg fun h => hlink h.1]
    simp [hne]

end Links

namespace Master

/-- The registered replicas and the next id for one. -/
def registry (master : Master) : List Peer × Nat := (master.peers, master.nextPeerId)

theorem isOpen_propagate (master : Master) (links : Links) (bytes : Bytes) (link : Nat) :
    (master.propagate links bytes).2.isOpen link = links.isOpen link := by
  unfold propagate
  generalize master.peers = peers
  induction peers generalizing links with
  | nil => rfl
  | cons peer rest ih =>
      rw [List.foldl_cons]
      exact (ih _).trans (links.isOpen_write peer.link link bytes)

/-- An open link receives the bytes once for each replica registered on it. -/
theorem written_propagate (master : Master) (links : Links) (bytes : Bytes) {link : Nat}
    (hopen : links.isOpen link = true) :
    (master.propagate links bytes).2.written link = links.written link ++
      (List.replicate (master.peers.countP (·.link == link)) bytes).flatten := by
  unfold propagate
  generalize master.peers = peers
  induction peers generalizing links with
  | nil => simp
  | cons peer rest ih =>
      have hstep := links.written_write peer.link link bytes
      -- One replica after the other: the link stays open, and receives the bytes if it is its own.
      rw [List.foldl_cons, ih _ ((links.isOpen_write peer.link link bytes).trans hopen), hstep]
      by_cases hlink : link = peer.link
      · subst hlink
        rw [if_pos ⟨rfl, hopen⟩, List.countP_cons_of_pos (by simp), List.replicate_succ,
          List.flatten_cons, List.append_assoc]
      · have hne : (peer.link == link) = false := by
          simpa using fun h => hlink h.symm
        rw [if_neg fun h => hlink h.1, List.countP_cons_of_neg (by simp [hne])]

end Master

namespace Engine

/-- The registered replicas and the next id for one; a replica has none of its own. -/
def registry (engine : Engine) : List Peer × Nat :=
  match engine.role with
  | .master master => master.registry
  | .replica _ => ([], 0)

/-- The registered replicas. -/
def peers (engine : Engine) : List Peer := engine.registry.1

/-- At the start no replica is registered. -/
theorem start_peers (config : Config) (file : Snapshot.File) (replicationId : String) :
    (start config file replicationId).peers = [] := by
  simp only [start, Role.start, peers, registry]
  cases config.replicaOf <;> rfl

/-- Forwarding writes to one link after the other. -/
theorem propagate_eq (engine : Engine) (bytes : Bytes) :
    engine.propagate bytes =
      { engine with
        links := engine.peers.foldl (fun links peer => links.write peer.link bytes)
          engine.links } := by
  rcases engine with ⟨config, keyspace, readers, file, role, links⟩
  cases role <;> rfl

theorem propagate_keyspace (engine : Engine) (bytes : Bytes) :
    (engine.propagate bytes).keyspace = engine.keyspace := by
  unfold propagate
  split <;> rfl

theorem propagate_peers (engine : Engine) (bytes : Bytes) :
    (engine.propagate bytes).peers = engine.peers := by
  unfold propagate peers registry
  cases hrole : engine.role <;> simp [hrole]

theorem propagate_isOpen (engine : Engine) (bytes : Bytes) (link : Nat) :
    (engine.propagate bytes).links.isOpen link = engine.links.isOpen link := by
  unfold propagate
  split
  · exact Master.isOpen_propagate _ _ _ _
  · rfl

/-- How many replicas are registered on a link. -/
def copies (engine : Engine) (link : Nat) : Nat := engine.peers.countP (·.link == link)

/-- An open link receives the bytes once for each replica registered on it. -/
theorem written_propagate_copies (engine : Engine) (bytes : Bytes) {link : Nat}
    (hopen : engine.links.isOpen link = true) :
    (engine.propagate bytes).links.written link =
      engine.links.written link ++ (List.replicate (engine.copies link) bytes).flatten := by
  unfold propagate copies peers registry
  cases hrole : engine.role with
  | master master =>
      simp only
      exact Master.written_propagate master engine.links bytes hopen
  | replica replica => simp

/-- A replica that is registered once, on an open link, receives the bytes once. -/
theorem written_propagate (engine : Engine) (bytes : Bytes) {link : Nat}
    (hopen : engine.links.isOpen link = true)
    (honce : engine.peers.countP (·.link == link) = 1) :
    (engine.propagate bytes).links.written link = engine.links.written link ++ bytes := by
  rw [written_propagate_copies engine bytes hopen, copies, honce]
  simp

end Engine

end KeyValue
