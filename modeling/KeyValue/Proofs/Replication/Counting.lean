import KeyValue.Replication.Master

/-!
# Counting acknowledgements

A history only grows, and each of its entries keeps what it is. Its count of acknowledgements grows
by one with each that is counted there, and by nothing else.

What a client that waits does with the state of a master, and what an acknowledgement does, is taken
apart here into what happens at once and what other clients can come between. A client looks at its
signals, takes one and then looks at the count (`poll_eq`). An acknowledgement is heard if the
replica is registered, and then counts (`recordAck_eq`).

## Main definitions

* `History.kind?`: Whether the command at a place reads or writes.
* `Master.admits`, `Master.countAck`: The two steps of an acknowledgement.
* `Master.signals?`, `Master.takeSignal`: What a waiting client does with its signals.
* `Master.Keeps`: A change that records and counts nothing.

## Theorems

* `History.ackCount_recordAck`: An acknowledgement counts once, and in one place.
* `recordAck_eq`, `poll_eq`: What happens at once, in two steps.
* `waitTarget_of_write`, `waitTarget_eq_inr`: When a client waits, and for what.
-/

namespace KeyValue

namespace History

variable (history : History)

/-- Whether the command at a place reads or writes. -/
def kind? (index : Nat) : Option CommandKind := (history.get? index).map (·.kind)

section Append

variable (name : CommandName) (kind : CommandKind) (args : List String)

/-- A history grows by one command at a time. -/
theorem size_append : (history.append name kind args).2.size = history.size + 1 := by
  simp [append, size]

/-- The command that was appended is at the place where the history ended. -/
theorem kind?_append_size : (history.append name kind args).2.kind? history.size = some kind := by
  simp [append, kind?, get?, size]

/-- The commands before it keep their kinds. -/
theorem kind?_append_of_lt {index : Nat} (h : index < history.size) :
    (history.append name kind args).2.kind? index = history.kind? index := by
  simp only [append, kind?, get?]
  rw [List.getElem?_append_left h]

/-- No acknowledgement is counted for a command that is only just recorded. -/
theorem ackCount_append (index : Nat) :
    (history.append name kind args).2.ackCount index = history.ackCount index := by
  simp only [append, ackCount, get?, List.getElem?_append]
  split
  · rfl
  · rename_i hlast
    rw [List.getElem?_eq_none (l := history.entries) (by omega)]
    cases index - history.entries.length <;> rfl

end Append

section Changes

variable (index other : Nat)

/-- Marking a command records none. -/
theorem size_markSuccess (succeeded : Bool) :
    (history.markSuccess index succeeded).size = history.size := by
  simp [markSuccess, size]

theorem kind?_markSuccess (succeeded : Bool) :
    (history.markSuccess index succeeded).kind? other = history.kind? other := by
  simp only [markSuccess, kind?, get?, List.getElem?_modify]
  cases history.entries[other]? <;> simp
  split <;> rfl

/-- Whether a command succeeded does not change how often it was acknowledged. -/
theorem ackCount_markSuccess (succeeded : Bool) :
    (history.markSuccess index succeeded).ackCount other = history.ackCount other := by
  simp only [markSuccess, ackCount, get?, List.getElem?_modify]
  cases history.entries[other]? <;> simp
  split <;> rfl

/-- Counting an acknowledgement records no command. -/
theorem size_recordAck : (history.recordAck index).2.size = history.size := by
  simp [recordAck, size]

theorem kind?_recordAck : (history.recordAck index).2.kind? other = history.kind? other := by
  simp only [recordAck, kind?, get?, List.getElem?_modify]
  cases history.entries[other]? <;> simp
  split <;> rfl

/-- An acknowledgement counts once, and in one place. -/
theorem ackCount_recordAck (h : index < history.size) :
    (history.recordAck index).2.ackCount other =
      history.ackCount other + if index = other then 1 else 0 := by
  simp only [recordAck, ackCount, get?, List.getElem?_modify]
  by_cases heq : index = other
  · subst heq
    rw [List.getElem?_eq_getElem h]
    simp
  · cases history.entries[other]? <;> simp [heq]

/-- A command that is found is in the history. -/
theorem lt_size_of_kind? {kind : CommandKind} (h : history.kind? index = some kind) :
    index < history.size := by
  simp only [kind?, get?, Option.map_eq_some_iff] at h
  rcases h with ⟨entry, hentry, _⟩
  exact (List.getElem?_eq_some_iff.mp hentry).1

end Changes

end History

namespace Master

variable (master : Master)

/-- Whether a replica is registered under the id. -/
def admits (id : Nat) : Bool := master.peers.any (·.id == id)

/-- An acknowledgement counts for the client that waits, and signals it. -/
def countAck : Master :=
  match master.waiter with
  | some ⟨target, signals⟩ =>
    { master with
      history := (master.history.recordAck target).2
      waiter := some ⟨target, signals + 1⟩ }
  | none => master

theorem recordAck_eq (id : Nat) :
    master.recordAck id = if master.admits id then master.countAck else master := rfl

/-- The signals that a waiting client has not looked at; none if it has lost its place. -/
def signals? (wait : AckWait) : Option Nat :=
  match master.waiter with
  | some ⟨target, signals⟩ => if target = wait.target then some signals else none
  | none => none

/-- The client in the place takes one of its signals. -/
def takeSignal : Master :=
  { master with
    waiter := master.waiter.map fun waiter => { waiter with signals := waiter.signals - 1 } }

/-- A waiting client looks at its signals, and only then at the count. -/
theorem poll_eq (wait : AckWait) :
    master.poll wait =
      let acks := master.history.ackCount wait.target
      match master.signals? wait with
      | none => .over acks
      | some 0 => .idle
      | some (_ + 1) => if wait.wanted ≤ acks then .over acks else .again master.takeSignal := by
  rcases hwaiter : master.waiter with _ | ⟨target, signals⟩
  · simp only [poll, signals?, hwaiter]
  · simp only [poll, signals?, takeSignal, hwaiter]
    split
    · cases signals <;> rfl
    · rfl

-- A client that leaves its place leaves it the same way after it took a signal.
theorem leave_takeSignal {wait : AckWait} {signals : Nat}
    (h : master.signals? wait = some signals) :
    master.takeSignal.leave wait = master.leave wait := by
  unfold signals? at h
  unfold leave takeSignal
  split at h
  · rename_i hwaiter
    split at h
    · rename_i htarget
      simp [hwaiter, htarget]
    · simp only [reduceCtorEq] at h
  · simp only [reduceCtorEq] at h

/-- No command is recorded and no acknowledgement counts, and nobody takes the place for a waiting
    client. -/
structure Keeps (before after : Master) : Prop where
  size : after.history.size = before.history.size
  kind : ∀ index, after.history.kind? index = before.history.kind? index
  acks : ∀ index, after.history.ackCount index = before.history.ackCount index
  placed : ∀ waiter, after.waiter = some waiter →
    ∃ old, before.waiter = some old ∧ old.target = waiter.target

namespace Keeps

theorem refl : Keeps master master :=
  ⟨rfl, fun _ => rfl, fun _ => rfl, fun waiter h => ⟨waiter, h, rfl⟩⟩

/-- To mark a command as a success is to change none of what is kept. -/
theorem markSuccess (index : Nat) (succeeded : Bool) :
    Keeps master { master with history := master.history.markSuccess index succeeded } :=
  ⟨master.history.size_markSuccess index succeeded,
    fun other => master.history.kind?_markSuccess index other succeeded,
    fun other => master.history.ackCount_markSuccess index other succeeded,
    fun waiter h => ⟨waiter, h, rfl⟩⟩

/-- To take a signal leaves the place to the client that has it. -/
theorem takeSignal : Keeps master master.takeSignal := by
  refine ⟨rfl, fun _ => rfl, fun _ => rfl, ?_⟩
  intro waiter h
  simp only [Master.takeSignal, Option.map_eq_some_iff] at h
  rcases h with ⟨old, hold, rfl⟩
  exact ⟨old, hold, rfl⟩

/-- Leaving may clear the place, and gives it to no one else. -/
theorem leave (wait : AckWait) : Keeps master (master.leave wait) := by
  unfold Master.leave
  split
  · split
    · exact ⟨rfl, fun _ => rfl, fun _ => rfl, nofun⟩
    · exact refl master
  · exact refl master

/-- A replica that comes has acknowledged nothing yet. -/
theorem register (link : Nat) : Keeps master (master.register link).2 :=
  ⟨rfl, fun _ => rfl, fun _ => rfl, fun waiter h => ⟨waiter, h, rfl⟩⟩

/-- A replica that goes has been counted for all that it has acknowledged. -/
theorem remove (id : Nat) : Keeps master (master.remove id) :=
  ⟨rfl, fun _ => rfl, fun _ => rfl, fun waiter h => ⟨waiter, h, rfl⟩⟩

end Keeps

variable {master} {wanted : Nat}

/-- After a write, and with a replica, a client waits for acknowledgements unless there are enough
    already. -/
theorem waitTarget_of_write {target : Nat} (hpeers : master.peers ≠ [])
    (hwrite : master.history.kind? target = some .write) :
    master.waitTarget (target + 1) wanted =
      if wanted ≤ master.history.ackCount target then .inl (master.history.ackCount target)
      else .inr ⟨target, wanted⟩ := by
  have hcount : master.peerCount ≠ 0 := by simpa [peerCount] using hpeers
  simp only [History.kind?, Option.map_eq_some_iff] at hwrite
  rcases hwrite with ⟨⟨name, kind, args, succeeded, acks⟩, hentry, rfl⟩
  simp only [waitTarget, if_neg hcount, hentry, History.ackCount, Option.map_some, Option.getD_some]

/-- What a client waits for is the write right before it, and it does so only with a replica. -/
theorem waitTarget_eq_inr {index : Nat} {wait : AckWait}
    (h : master.waitTarget index wanted = .inr wait) :
    index = wait.target + 1 ∧ wait.wanted = wanted ∧
      master.history.kind? wait.target = some .write ∧ master.peers ≠ [] := by
  unfold waitTarget at h
  split at h
  · simp only [reduceCtorEq] at h
  · rename_i hcount
    have hpeers : master.peers ≠ [] := by
      rintro hnone
      exact hcount (by rw [peerCount, hnone]; rfl)
    split at h
    · simp only [reduceCtorEq] at h
    · rename_i target
      split at h
      · rename_i hentry
        split at h
        · simp only [reduceCtorEq] at h
        · rw [← Sum.inr.inj h]
          exact ⟨rfl, rfl, by simp only [History.kind?, hentry, Option.map_some], hpeers⟩
      · simp only [reduceCtorEq] at h

/-- What a client that does not wait is answered after a write is a count of acknowledgements; or it
    is zero, without replicas. -/
theorem waitTarget_eq_inl {target acks : Nat}
    (hwrite : master.history.kind? target = some .write)
    (h : master.waitTarget (target + 1) wanted = .inl acks) :
    acks = 0 ∨ acks = master.history.ackCount target := by
  by_cases hpeers : master.peers = []
  · left
    simp only [waitTarget, peerCount, hpeers, List.length_nil, if_true, Sum.inl.injEq] at h
    exact h.symm
  · rw [waitTarget_of_write hpeers hwrite] at h
    split at h
    · exact Or.inr (Sum.inl.inj h).symm
    · simp only [reduceCtorEq] at h

end Master

end KeyValue
