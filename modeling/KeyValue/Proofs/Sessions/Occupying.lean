import KeyValue.Proofs.Sessions.Tallying

/-!
# The place for a waiting client

All clients of a master that wait for replicas share one place. An acknowledgement that was heard
raises the count of the client that has the place, and signals it afterwards; the place does not
change hands in between, but other clients go on, and may look at the count before the signal is
sent. So an acknowledgement is taken apart here into these two steps (`Exchange`), on top of the steps
of `Quorum`.

There are few things that a step can do to the place, to the counts and to the signal that is due
(`Effect`): a client takes the place, takes a signal or leaves, an acknowledgement counts, and its
signal is sent. All other steps leave them alone.

## Main definitions

* `Engine.place`, `Engine.acks`: The place, and the counts.
* `Quorum.Exchange`: The clients of a master, one of which may be about to signal.
* `Exchange.Step`, `Exchange.Run`: A step of some client, and any number of steps.
* `Quorum.Turns`, `Quorum.Effect`: What a step does to the clients, and to the place.

## Theorems

* `Exchange.Step.orderly`: Also the two steps of an acknowledgement keep the books of `Orderly`.
* `Exchange.Step.effect`: What a step does.
* `Step.own`: What a client does next.
-/

namespace KeyValue

namespace Master

variable (master : Master)

/-- The first half of an acknowledgement that counts: the count is raised. -/
def raiseCount : Master :=
  match master.waiter with
  | some waiter => { master with history := (master.history.recordAck waiter.target).2 }
  | none => master

/-- The second half: the client in the place is signalled. -/
def signal : Master :=
  { master with
    waiter := master.waiter.map fun waiter => { waiter with signals := waiter.signals + 1 } }

/-- An acknowledgement counts in two halves. -/
theorem countAck_eq : master.countAck = master.raiseCount.signal := by
  unfold countAck raiseCount signal
  cases hwaiter : master.waiter with
  | none => rcases master with ⟨id, offset, peers, next, history, waiter⟩; subst hwaiter; rfl
  | some waiter => rfl

/-- A signal is sent to whoever has the place, and counts nothing. -/
theorem Keeps.signal : Keeps master.signal master := by
  refine ⟨rfl, fun _ => rfl, fun _ => rfl, fun waiter hwaiter => ?_⟩
  exact ⟨{ waiter with signals := waiter.signals + 1 }, by simp [Master.signal, hwaiter], rfl⟩

/-- A signal records nothing, counts nothing, and gives the place to no one else. -/
theorem Keeps.signalled : Keeps master master.signal := by
  refine ⟨rfl, fun _ => rfl, fun _ => rfl, fun waiter hwaiter => ?_⟩
  simp only [Master.signal, Option.map_eq_some_iff] at hwaiter
  rcases hwaiter with ⟨old, hold, rfl⟩
  exact ⟨old, hold, rfl⟩

/-- Leaving clears the place if the target in it is the own one. -/
theorem waiter_leave (wait : AckWait) :
    (master.leave wait).waiter = master.waiter.filter (·.target != wait.target) := by
  unfold leave
  cases hwaiter : master.waiter with
  | none => exact hwaiter
  | some waiter =>
      by_cases htarget : waiter.target = wait.target
      · simp [htarget, Option.filter_some]
      · simp [htarget, hwaiter, Option.filter_some]

/-- Whoever waits wants more acknowledgements than there are. -/
theorem lt_of_waitTarget {index wanted : Nat} {wait : AckWait}
    (h : master.waitTarget index wanted = .inr wait) :
    master.history.ackCount wait.target < wait.wanted := by
  rcases waitTarget_eq_inr h with ⟨rfl, hwanted, hkind, hpeers⟩
  rw [waitTarget_of_write hpeers hkind] at h
  split at h
  · simp only [reduceCtorEq] at h
  · rename_i hfew
    rw [hwanted]
    exact Nat.not_le.mp hfew

end Master

namespace Engine

/-- The place for a waiting client; none if nobody has it. -/
def place (engine : Engine) : Option AckWaiter := engine.role.master?.bind (·.waiter)

/-- The acknowledgements that have counted for the command at a place of the history. -/
def acks (engine : Engine) (target : Nat) : Nat :=
  (engine.role.master?.map (·.history.ackCount target)).getD 0

variable {engine after : Engine} {master : Master}

/-- The place for a waiting client is kept by the master. -/
theorem place_of_master (hrole : engine.role = .master master) : engine.place = master.waiter := by
  simp only [place, hrole, Role.master?, Option.bind_some]

theorem acks_of_master (hrole : engine.role = .master master) (target : Nat) :
    engine.acks target = master.history.ackCount target := by
  simp only [acks, hrole, Role.master?, Option.map_some, Option.getD_some]

/-- Where the role is the same, so is the place. -/
theorem place_of_role (h : after.role = engine.role) : after.place = engine.place := by
  simp only [place, h]

theorem acks_of_role (h : after.role = engine.role) (target : Nat) :
    after.acks target = engine.acks target := by
  simp only [acks, h]

/-- Changing the state of a master keeps it a master. -/
theorem role_updateMaster (hrole : engine.role = .master master) (update : Master → Master) :
    (engine.updateMaster update).role = .master (update master) := by
  simp only [updateMaster, hrole]

/-- A request to wait that asks the replicas wants more acknowledgements than there are. -/
theorem lt_wanted_of_asks {session : Session} {index : Nat} {command : Command} {wait : AckWait}
    {ms : UInt64} (hrole : engine.role = .master master)
    (h : engine.route session (some index) command = .asks wait ms) :
    engine.acks wait.target < wait.wanted := by
  rcases route_asks h with ⟨wanted, text, -, -, hwait⟩
  simp only [waitOf, hrole] at hwait
  split at hwait
  · rename_i hmaster hindex
    obtain rfl := Role.master.inj hmaster
    split at hwait
    · rename_i htarget
      rw [(Prod.mk.inj (Option.some.inj hwait)).1] at htarget
      rw [acks_of_master hrole]
      exact master.lt_of_waitTarget htarget
    · simp only [reduceCtorEq] at hwait
  · simp only [reduceCtorEq] at hwait

end Engine

namespace Stage

/-- What a client waits for that took the place and has not left it, be it its own or not. -/
def held? : Stage → Option AckWait
  | installed _ wait => some wait
  | asks _ wait _ => some wait
  | waits _ wait => some wait
  | woken _ wait _ => some wait
  | counted _ wait _ => some wait
  | _ => none

/-- What a client waits for, from when it knows it until it has left the place. -/
def wait? : Stage → Option AckWait
  | aims _ wait => some wait
  | stage => stage.held?

/-- What a client waits for that has yet to look at its signals, before it looks at the count. -/
def listens? : Stage → Option AckWait
  | installed _ wait => some wait
  | asks _ wait _ => some wait
  | waits _ wait => some wait
  | _ => none

/-- The client needs the place to itself for its next step. -/
def NeedsPlace : Stage → Prop
  | aims _ _ => True
  | counted _ _ _ => True
  | heard _ _ => True
  | _ => False

/-- The client neither aims for the place nor has found that it lost it. -/
def plain : Stage → Bool
  | aims _ _ => false
  | woken _ _ lost => !lost
  | _ => true

/-- A client that has taken the place knows what it waits for. -/
theorem wait?_of_held {stage : Stage} {wait : AckWait} (h : stage.held? = some wait) :
    stage.wait? = some wait := by
  cases stage <;> first
    | exact h
    | simp only [held?, reduceCtorEq] at h

/-- A client that listens has taken the place. -/
theorem held?_of_listens {stage : Stage} {wait : AckWait} (h : stage.listens? = some wait) :
    stage.held? = some wait := by
  cases stage <;> first
    | exact h
    | simp only [listens?, reduceCtorEq] at h

end Stage

namespace Quorum

/-- An acknowledgement counts. -/
def Mark.IsCounted : Mark → Prop
  | acknowledged _ _ _ _ => True
  | _ => False

/-- The clients of a master. One of them may have raised the count of the client in the place, and
    has yet to signal it; until then it keeps the place from the others. -/
structure Exchange extends Quorum where
  signaller : Option Nat := none

namespace Exchange

/-- The signals that have not been taken, and the one that is about to be sent. -/
def due (state : Exchange) : Nat :=
  state.engine.place.elim 0 (·.signals) + if state.signaller.isSome then 1 else 0

/-- A step of some client. -/
inductive Step : Exchange → Mark → Exchange → Prop
  /-- Whoever is about to signal does nothing else, and who needs the place waits for that. -/
  | step {state : Exchange} {mark : Mark} {next : Quorum}
      (hstep : Quorum.Step state.toQuorum mark next)
      (hlocked : ∀ speaker, state.signaller = some speaker → ∀ client,
        client = speaker ∨ (state.stage client).NeedsPlace →
          next.stage client = state.stage client) :
      Step state mark { state with toQuorum := next }
  /-- A client that has lost the place finds a signal from before. -/
  | linger {state : Exchange} {client : Nat} {errand : Errand} {wait : AckWait} {master : Master}
      (hstage : state.stage client = .waits errand wait)
      (hrole : state.engine.role = .master master) (hlost : master.signals? wait = none) :
      Step state .nothing
        { state with toQuorum := state.go client state.engine (.woken errand wait false) }
  /-- An acknowledgement that was heard counts for the client that has the place. -/
  | raise {state : Exchange} {client id : Nat} {errand : Errand} {master : Master}
      {waiter : AckWaiter} (hfree : state.signaller = none)
      (hstage : state.stage client = .heard errand id)
      (hrole : state.engine.role = .master master) (hwaiter : master.waiter = some waiter) :
      Step state (.acknowledged client errand id waiter.target)
        { toQuorum := state.go client (state.engine.updateMaster (·.raiseCount))
            (.handled errand .silent)
          signaller := some client }
  /-- The client in the place is signalled. -/
  | signal {state : Exchange} {client : Nat} (hsignaller : state.signaller = some client) :
      Step state .nothing
        { toQuorum := { state with engine := state.engine.updateMaster (·.signal) }
          signaller := none }

/-- Any number of steps, with what can be seen of them. -/
inductive Run (before : Exchange) : List Mark → Exchange → Prop
  | done : Run before [] before
  | step {middle after : Exchange} {log : List Mark} {mark : Mark} (h : Run before log middle)
      (h' : Step middle mark after) : Run before (log ++ [mark]) after

/-- The clients of a server that starts. -/
def start (config : Config) (file : Snapshot.File) (replicationId : String) : Exchange :=
  { toQuorum := Quorum.start config file replicationId }

end Exchange

section Orderly

variable {log : List Mark} {mark : Mark} {state : Quorum} {master after : Master}

/-- The books say nothing of signals. -/
theorem Tallies.keeps (h : Tallies log master) (hkeeps : master.Keeps after) :
    Tallies log after := by
  refine ⟨⟨hkeeps.size ▸ h.history.size, hkeeps.size ▸ h.history.all, fun client errand hmem => ?_⟩,
    ⟨fun target => ?_, fun waiter hwaiter => ?_, h.counts.served⟩, hkeeps.size ▸ h.spent, h.waits⟩
  · rw [hkeeps.kind]
    exact h.history.kind client errand hmem
  · rw [hkeeps.acks, h.counts.acks]
  · rcases hkeeps.placed waiter hwaiter with ⟨old, hold, htarget⟩
    exact htarget ▸ h.counts.placed old hold

/-- Where the books are kept, clients may stay as they are. -/
theorem Orderly.keeps {engine : Engine} (h : Orderly log state) (hkept : Kept state.engine engine) :
    Orderly log { state with engine } := by
  rcases h.master with ⟨master, hrole, htallies⟩
  rcases hkept master hrole with ⟨after, hafter, hkeeps⟩
  exact ⟨⟨after, hafter, htallies.keeps hkeeps⟩, h.stage, h.apart⟩

/-- A step in which nothing is seen needs no entry in the books. -/
theorem Orderly.nothing (h : Orderly log state) : Orderly (log ++ [.nothing]) state :=
  h.stay state.session rfl <| by
    rcases h.master with ⟨master, hrole, htallies⟩
    exact ⟨master, hrole, htallies.append (.refl master) rfl rfl (by simp [Mark.waits?])⟩

/-- Also the steps of an acknowledgement keep the books, one by one. -/
theorem Exchange.Step.orderly {state next : Exchange} (h : Orderly log state.toQuorum)
    (hstep : Exchange.Step state mark next) : Orderly (log ++ [mark]) next.toQuorum := by
  cases hstep with
  | step hstep => exact hstep.orderly h
  | @linger client errand wait master hstage hrole hlost =>
      have herrand : (state.stage client).errand? = some errand := by rw [hstage]; rfl
      have hfollows := h.stage client
      rw [hstage] at hfollows
      exact h.move state.session herrand (by simp [Stage.errand?]) (kept_of_role rfl) rfl rfl
        (by simp [Mark.waits?]) (Engaged.append hfollows)
  | @raise client id errand master waiter hfree hstage hrole hwaiter =>
      -- The state is that of the whole acknowledgement, without its signal.
      have hcounted := (Quorum.Step.acknowledge hstage hrole hwaiter).orderly h
      refine hcounted.keeps (?_ : Kept _ (state.engine.updateMaster (·.raiseCount)))
      intro counted hcounted
      have hsame := hcounted.symm.trans (Engine.role_updateMaster hrole _)
      obtain rfl := Role.master.inj hsame
      refine ⟨master.raiseCount, Engine.role_updateMaster hrole _, ?_⟩
      rw [Master.countAck_eq]
      exact .signal master.raiseCount
  | signal hsignaller =>
      exact h.nothing.keeps (kept_updateMaster _ _ .signalled)

/-- Runs with halves of acknowledgements keep the same books as runs without. -/
theorem Exchange.Run.orderly {state next : Exchange} (h : Exchange.Run state log next)
    (hstate : Orderly [] state.toQuorum) : Orderly log next.toQuorum := by
  induction h with
  | done => exact hstate
  | step _ hstep ih => exact hstep.orderly ih

/-- A client with the place, or that has lost it, was seen to take it. -/
theorem Orderly.took {client : Nat} {wait : AckWait} (h : Orderly log state)
    (hheld : (state.stage client).held? = some wait) : .took client wait.target ∈ log := by
  have hfollows := h.stage client
  cases hstage : state.stage client <;>
    simp only [hstage, Stage.held?, Option.some.injEq, reduceCtorEq] at hheld <;> subst hheld <;>
      rw [hstage] at hfollows
  case installed => exact hfollows.2.2
  case counted => exact hfollows.1.took
  all_goals exact Engaged.took hfollows

end Orderly

section Effect

/-- What a step does to where the clients are, unless one takes the place or leaves it: at most one
    client moves. It listens only if it did before or wants more than there is, aims only if it wants
    anything, and finds itself lost only if the place is not its own. -/
structure Turns (state next : Quorum) (client : Nat) : Prop where
  others : ∀ other, other ≠ client → next.stage other = state.stage other
  held : (next.stage client).held? = (state.stage client).held?
  listens : ∀ wait, (next.stage client).listens? = some wait →
    (state.stage client).listens? = some wait ∨ state.engine.acks wait.target < wait.wanted
  aims : ∀ errand wait, next.stage client = .aims errand wait →
    state.stage client = .aims errand wait ∨ 0 < wait.wanted
  lost : ∀ errand wait, next.stage client = .woken errand wait true →
    state.stage client = .woken errand wait true ∨
      ∀ waiter, state.engine.place = some waiter → waiter.target ≠ wait.target

/-- What a step does to the place, to the counts and to the signal that is due. -/
inductive Effect (state : Exchange) (mark : Mark) (next : Exchange) : Prop
  | none (client : Nat) (hturns : Turns state.toQuorum next.toQuorum client)
      (hmark : ¬mark.IsCounted) (hsignaller : next.signaller = state.signaller)
      (hplace : next.engine.place = state.engine.place)
      (hacks : ∀ target, next.engine.acks target = state.engine.acks target)
  /-- A client takes the place. -/
  | takes {client : Nat} {errand : Errand} {wait : AckWait}
      (hothers : ∀ other, other ≠ client → next.stage other = state.stage other)
      (hmark : mark = .took client wait.target) (hstage : state.stage client = .aims errand wait)
      (hnext : next.stage client = .installed errand wait) (hfree : state.signaller = none)
      (hsignaller : next.signaller = none) (hplace : next.engine.place = some ⟨wait.target, 0⟩)
      (hacks : ∀ target, next.engine.acks target = state.engine.acks target)
  /-- The client in the place takes a signal. -/
  | wakes {client signals : Nat} {wait : AckWait} (hturns : Turns state.toQuorum next.toQuorum client)
      (hmark : ¬mark.IsCounted) (hsignaller : next.signaller = state.signaller)
      (hheld : (state.stage client).held? = some wait) (hnext : (next.stage client).listens? = none)
      (hplace : state.engine.place = some ⟨wait.target, signals + 1⟩)
      (htaken : next.engine.place = some ⟨wait.target, signals⟩)
      (hacks : ∀ target, next.engine.acks target = state.engine.acks target)
  /-- A client leaves the place, if it is its own. -/
  | leaves {client acks : Nat} {errand : Errand} {wait : AckWait}
      (hothers : ∀ other, other ≠ client → next.stage other = state.stage other)
      (hmark : ¬mark.IsCounted) (hstage : state.stage client = .counted errand wait acks)
      (hnext : next.stage client = .handled errand (.reply (Engine.countReply acks)))
      (hfree : state.signaller = Option.none) (hsignaller : next.signaller = Option.none)
      (hplace : next.engine.place = state.engine.place.filter (·.target != wait.target))
      (hacks : ∀ target, next.engine.acks target = state.engine.acks target)
  /-- An acknowledgement counts for who has the place, which is signalled now or later. -/
  | counts {client id signals : Nat} {errand : Errand} {waiter : AckWaiter}
      (hturns : Turns state.toQuorum next.toQuorum client)
      (hmark : mark = .acknowledged client errand id waiter.target)
      (hstage : state.stage client = .heard errand id) (hfree : state.signaller = Option.none)
      (hplace : state.engine.place = some waiter)
      (hnext : next.engine.place = some ⟨waiter.target, signals⟩)
      (hdue : signals = waiter.signals + 1 ∧ next.signaller = Option.none ∨
        signals = waiter.signals ∧ next.signaller = some client)
      (hacks : ∀ target, next.engine.acks target =
        state.engine.acks target + if waiter.target = target then 1 else 0)
  /-- A signal that was due is sent. -/
  | signals {client : Nat} (hstage : next.stage = state.stage) (hmark : ¬mark.IsCounted)
      (hdue : state.signaller = some client) (hsignaller : next.signaller = Option.none)
      (hplace : next.engine.place =
        state.engine.place.map fun waiter => { waiter with signals := waiter.signals + 1 })
      (hacks : ∀ target, next.engine.acks target = state.engine.acks target)

variable {log : List Mark} {mark : Mark} {master after : Master}

namespace Turns

variable {state next : Quorum} {client : Nat} {old new : Stage}

/-- Nobody moves. -/
theorem still (hstage : next.stage = state.stage) (client : Nat) : Turns state next client := by
  refine ⟨fun other _ => ?_, ?_, fun wait h => ?_, fun errand wait h => ?_, fun errand wait h => ?_⟩
  · rw [hstage]
  · rw [hstage]
  · exact Or.inl (hstage ▸ h)
  · exact Or.inl (hstage ▸ h)
  · exact Or.inl (hstage ▸ h)

theorem go (hnext : next.stage = Function.update state.stage client new)
    (hstage : state.stage client = old) (hheld : new.held? = old.held?)
    (hlistens : ∀ wait, new.listens? = some wait →
      old.listens? = some wait ∨ state.engine.acks wait.target < wait.wanted)
    (haims : ∀ errand wait, new = .aims errand wait → 0 < wait.wanted)
    (hlost : ∀ errand wait, new = .woken errand wait true →
      ∀ waiter, state.engine.place = some waiter → waiter.target ≠ wait.target) :
    Turns state next client := by
  have hself : next.stage client = new := by rw [hnext, Function.update_self]
  refine ⟨fun other hother => ?_, ?_, ?_, fun errand wait h => ?_, fun errand wait h => ?_⟩
  · rw [hnext, Function.update_of_ne hother]
  · rw [hself, hstage, hheld]
  · rwa [hself, hstage]
  · exact Or.inr (haims errand wait (hself.symm.trans h))
  · exact Or.inr (hlost errand wait (hself.symm.trans h))

/-- Most clients that move listen if they did before, or no more. -/
theorem plain (hnext : next.stage = Function.update state.stage client new)
    (hstage : state.stage client = old) (hheld : new.held? = old.held?)
    (hlistens : new.listens? = old.listens? ∨ new.listens? = none) (hplain : new.plain = true) :
    Turns state next client := by
  refine go hnext hstage hheld (fun wait h => Or.inl ?_) ?_ ?_
  · rcases hlistens with hsame | hnone
    · exact hsame ▸ h
    · simp only [hnone, reduceCtorEq] at h
  · rintro errand wait rfl
    simp [Stage.plain] at hplain
  · rintro errand wait rfl
    simp [Stage.plain] at hplain

end Turns

/-- What is waited for in the place has been recorded. -/
theorem Tallies.lt_size (h : Tallies log master) {waiter : AckWaiter}
    (hwaiter : master.waiter = some waiter) : waiter.target < master.history.size := by
  rcases h.counts.placed waiter hwaiter with ⟨taker, htook⟩
  have hspent := h.spent.lt _ (List.mem_filterMap.mpr ⟨_, htook, rfl⟩)
  exact Nat.lt_of_succ_lt hspent

-- The client in the place has signals that it can take.
theorem waiter_of_signals {wait : AckWait} {signals : Nat}
    (h : master.signals? wait = some signals) : master.waiter = some ⟨wait.target, signals⟩ := by
  unfold Master.signals? at h
  split at h
  · rename_i target number hwaiter
    split at h
    · rename_i htarget
      rw [hwaiter, htarget, Option.some.inj h]
    · simp only [reduceCtorEq] at h
  · simp only [reduceCtorEq] at h

-- A client that finds no signals has lost the place.
theorem ne_target_of_signals {wait : AckWait} {waiter : AckWaiter}
    (h : master.signals? wait = none) (hwaiter : master.waiter = some waiter) :
    waiter.target ≠ wait.target := by
  rintro htarget
  simp only [Master.signals?, hwaiter, htarget, if_true, reduceCtorEq] at h

/-- What a step of the clients does, while nobody that is about to signal is in its way. -/
theorem Step.effect {state : Exchange} {next : Quorum} (h : Orderly log state.toQuorum)
    (hstep : Step state.toQuorum mark next)
    (hlocked : ∀ speaker, state.signaller = some speaker → ∀ client,
      client = speaker ∨ (state.stage client).NeedsPlace → next.stage client = state.stage client) :
    Effect state mark { state with toQuorum := next } := by
  rcases h.master with ⟨master, hrole, htallies⟩
  have hupdated : ∀ update : Master → Master,
      (state.engine.updateMaster update).role = .master (update master) :=
    Engine.role_updateMaster hrole
  have hplace := Engine.place_of_master hrole
  have hacks := Engine.acks_of_master hrole
  -- Whoever needs the place and moves finds it free.
  have hfree : ∀ {client}, (state.stage client).NeedsPlace →
      next.stage client ≠ state.stage client → state.signaller = none := by
    intro client hneeds hmoves
    cases hsignaller : state.signaller with
    | none => rfl
    | some speaker => exact absurd (hlocked speaker hsignaller client (Or.inr hneeds)) hmoves
  -- What leaves the state of the master as it is.
  have hquiet : ∀ client, Turns state.toQuorum next client → ¬mark.IsCounted →
      next.engine.role = state.engine.role → Effect state mark { state with toQuorum := next } :=
    fun client hturns hmark hsame =>
      .none client hturns hmark rfl (Engine.place_of_role hsame) (Engine.acks_of_role hsame)
  -- What changes it, but neither the place nor a count.
  have hkept : ∀ client {after : Master}, Turns state.toQuorum next client → ¬mark.IsCounted →
      next.engine.role = .master after → after.waiter = master.waiter →
      (∀ target, after.history.ackCount target = master.history.ackCount target) →
      Effect state mark { state with toQuorum := next } := by
    intro client after hturns hmark hafter hwaiter hcounts
    refine .none client hturns hmark rfl ?_ fun target => ?_
    · exact ((Engine.place_of_master hafter).trans hwaiter).trans hplace.symm
    · exact ((Engine.acks_of_master hafter target).trans (hcounts target)).trans (hacks target).symm
  cases hstep with
  | @record client index after command hstage hrecord =>
      simp only [Engine.record, hrole, Prod.mk.injEq] at hrecord
      rcases hrecord with ⟨-, rfl⟩
      exact hkept client (.plain rfl hstage rfl (Or.inl rfl) rfl) id rfl rfl
        (History.ackCount_append _ _ _ _)
  | @handle client errand response after session now hstage hasks hheeds hhandle =>
      have hsame := Engine.handle_role now hasks hheeds
      rw [hhandle] at hsame
      exact hquiet client (.plain rfl hstage rfl (Or.inl rfl) rfl) id hsame
  | @block client reader errand cursors count deadline place after session now hstage hasks hheeds
      hhandle =>
      have hsame := Engine.handle_role now hasks hheeds
      rw [hhandle] at hsame
      exact hquiet client (.plain rfl hstage rfl (Or.inl rfl) rfl) id hsame
  | @aim client errand wait ms hstage hroute =>
      have hwanted := Nat.zero_lt_of_lt (Engine.lt_wanted_of_asks hrole hroute)
      refine hquiet client (.go rfl hstage rfl (fun _ => Or.inl) ?_ (by simp)) id rfl
      intro errand' wait' haims
      rw [← (Stage.aims.inj haims).2]
      exact hwanted
  | @install client errand wait hstage =>
      refine .takes (fun other hother => Function.update_of_ne hother ..) rfl hstage (go_stage ..)
        ?_ ?_ ?_ fun target => ?_
      · exact hfree (by rw [hstage]; trivial) (by simp [go_stage, hstage])
      · exact hfree (by rw [hstage]; trivial) (by simp [go_stage, hstage])
      · exact Engine.place_of_master (hupdated _)
      · rw [hacks]
        exact Engine.acks_of_master (hupdated _) target
  | @ask client errand wait hstage =>
      exact hquiet client (.plain rfl hstage rfl (Or.inl rfl) rfl) id rfl
  | @deliver client errand wait peer left hstage =>
      exact hquiet client (.plain rfl hstage rfl (Or.inl rfl) rfl) id rfl
  | @park client errand wait hstage =>
      exact hquiet client (.plain rfl hstage rfl (Or.inl rfl) rfl) id rfl
  | @wake client signals errand wait master' hstage hrole' hsignals =>
      obtain rfl := Role.master.inj (hrole.symm.trans hrole')
      have hwaiter := waiter_of_signals hsignals
      refine .wakes (.plain rfl hstage rfl (Or.inr rfl) rfl) id rfl (by rw [hstage]; rfl)
        (by rw [go_stage]; rfl) (hplace.trans hwaiter) ?_ fun target => ?_
      · refine (Engine.place_of_master (hupdated _)).trans ?_
        simp only [Master.takeSignal, hwaiter, Option.map_some, Nat.add_sub_cancel]
      · rw [hacks]
        exact Engine.acks_of_master (hupdated _) target
  | @lose client errand wait master' hstage hrole' hlost =>
      obtain rfl := Role.master.inj (hrole.symm.trans hrole')
      refine hquiet client (.go rfl hstage rfl (by simp [Stage.listens?]) (by simp) ?_) id rfl
      rintro errand' wait' hwoken waiter hwaiter
      rw [← (Stage.woken.inj hwoken).2.1]
      exact ne_target_of_signals hlost (hplace.symm.trans hwaiter)
  | @goOn client errand wait master' hstage hrole' hfew =>
      obtain rfl := Role.master.inj (hrole.symm.trans hrole')
      refine hquiet client (.go rfl hstage rfl ?_ (by simp) (by simp)) id rfl
      intro wait' hlistens
      rw [← Option.some.inj hlistens, hacks]
      exact Or.inr hfew
  | @count client errand wait lost master' hstage =>
      exact hquiet client (.plain rfl hstage rfl (Or.inr rfl) rfl) id rfl
  | @ring client errand wait master' htimed hstage =>
      exact hquiet client (.plain rfl hstage rfl (Or.inr rfl) rfl) id rfl
  | @leave client acks errand wait hstage =>
      have hkeeps := Master.Keeps.leave master wait
      refine .leaves (fun other hother => Function.update_of_ne hother ..) id hstage (go_stage ..)
        ?_ ?_ ?_ fun target => ?_
      · exact hfree (by rw [hstage]; trivial) (by simp [go_stage, hstage])
      · exact hfree (by rw [hstage]; trivial) (by simp [go_stage, hstage])
      · refine (Engine.place_of_master (hupdated _)).trans ?_
        rw [hplace, Master.waiter_leave]
      · rw [hacks]
        exact (Engine.acks_of_master (hupdated _) target).trans (hkeeps.acks target)
  | @hear client id errand master' hstage =>
      exact hquiet client (.plain rfl hstage rfl (Or.inl rfl) rfl) (fun h => h) rfl
  | @acknowledge client id errand master' waiter hstage hrole' hwaiter =>
      obtain rfl := Role.master.inj (hrole.symm.trans hrole')
      have hnone := hfree (by rw [hstage]; trivial) (by simp [go_stage, hstage])
      refine .counts (.plain rfl hstage rfl (Or.inl rfl) rfl) rfl hstage hnone
        (hplace.trans hwaiter) ?_ (Or.inl ⟨rfl, hnone⟩) fun target => ?_
      · refine (Engine.place_of_master (hupdated _)).trans ?_
        simp only [Master.countAck, hwaiter]
      · refine (Engine.acks_of_master (hupdated _) target).trans ?_
        rw [hacks]
        simp only [Master.countAck, hwaiter]
        exact History.ackCount_recordAck _ _ _ (htallies.lt_size hwaiter)
  | @ignore client id errand master' hstage =>
      exact hquiet client (.plain rfl hstage rfl (Or.inl rfl) rfl) (fun h => h) rfl
  | @look client reader errand cursors count after now hstage hpoll =>
      have hsame := state.engine.poll_role now reader cursors count
      rw [hpoll] at hsame
      exact hquiet client (.plain rfl hstage rfl (Or.inl rfl) rfl) id hsame
  | @find client reader errand cursors count result after now hstage hfound =>
      have hsame : after.role = state.engine.role := by
        rcases hfound with hpoll | hexpire
        · rw [← state.engine.poll_role now reader cursors count, hpoll]
        · rw [← state.engine.expire_role now reader cursors count, hexpire]
      exact hquiet client (.plain rfl hstage rfl (Or.inl rfl) rfl) id hsame
  | @conclude client errand response hstage =>
      exact hkept client (.plain rfl hstage rfl (Or.inl rfl) rfl) id (hupdated _) rfl
        fun _ => History.ackCount_markSuccess ..
  | register hrole' =>
      obtain rfl := Role.master.inj (hrole.symm.trans hrole')
      exact hkept 0 (.still (by rfl) 0) id rfl rfl fun _ => rfl
  | remove id => exact hkept 0 (.still (by rfl) 0) (fun h => h) (hupdated _) rfl fun _ => rfl
  | others hsame => exact hquiet 0 (.still (by rfl) 0) id hsame

/-- What any step does. -/
theorem Exchange.Step.effect {state next : Exchange} (h : Orderly log state.toQuorum)
    (hstep : Exchange.Step state mark next) : Effect state mark next := by
  rcases h.master with ⟨master, hrole, htallies⟩
  have hupdated : ∀ update : Master → Master,
      (state.engine.updateMaster update).role = .master (update master) :=
    Engine.role_updateMaster hrole
  have hplace := Engine.place_of_master hrole
  have hacks := Engine.acks_of_master hrole
  cases hstep with
  | step hstep hlocked => exact hstep.effect h hlocked
  | @linger client errand wait master' hstage hrole' hlost =>
      exact .none client (.plain rfl hstage rfl (Or.inr rfl) rfl) id rfl rfl fun _ => rfl
  | @raise client id errand master' waiter hfree hstage hrole' hwaiter =>
      obtain rfl := Role.master.inj (hrole.symm.trans hrole')
      refine .counts (.plain rfl hstage rfl (Or.inl rfl) rfl) rfl hstage hfree
        (hplace.trans hwaiter) ?_ (Or.inr ⟨rfl, rfl⟩) fun target => ?_
      · refine (Engine.place_of_master (hupdated _)).trans ?_
        simp only [Master.raiseCount, hwaiter]
      · refine (Engine.acks_of_master (hupdated _) target).trans ?_
        rw [hacks]
        simp only [Master.raiseCount, hwaiter]
        exact History.ackCount_recordAck _ _ _ (htallies.lt_size hwaiter)
  | @signal client hsignaller =>
      refine .signals rfl id hsignaller rfl ?_ fun target => ?_
      · rw [hplace]
        exact Engine.place_of_master (hupdated _)
      · rw [hacks]
        exact Engine.acks_of_master (hupdated _) target

/-- What a client does next: one that has taken its last count leaves, one whose acknowledgement was
    heard counts it for who has the place, and one that sends the acknowledgement of a registered
    replica is heard. -/
theorem Step.own {state next : Quorum} {client : Nat} (hstep : Step state mark next)
    (hmoves : next.stage client ≠ state.stage client) :
    (∀ errand wait acks, state.stage client = .counted errand wait acks →
      mark = .nothing ∧ next = state.go client (state.engine.updateMaster (·.leave wait))
        (.handled errand (.reply (Engine.countReply acks)))) ∧
    (∀ errand id, state.stage client = .heard errand id →
      mark = state.engine.place.elim .nothing fun waiter =>
        .acknowledged client errand id waiter.target) ∧
    (∀ errand, state.stage client = .recorded errand →
      state.engine.Heeds (state.session client) errand.command →
      ∃ id, mark = .heard client errand id ∧ next.stage client = .heard errand id) := by
  -- Whoever moves took the step.
  have howns : ∀ {other stage}, Function.update state.stage other stage client ≠
      state.stage client → client = other := by
    intro other stage hne
    by_contra hother
    exact hne (Function.update_of_ne hother ..)
  cases hstep with
  | register | remove | others => exact absurd rfl hmoves
  | leave hstage =>
      obtain rfl := howns hmoves
      simp [hstage]
  | ignore hstage hrole hwaiter =>
      obtain rfl := howns hmoves
      simp [hstage, Engine.place_of_master hrole, hwaiter]
  | acknowledge hstage hrole hwaiter =>
      obtain rfl := howns hmoves
      simp [hstage, Engine.place_of_master hrole, hwaiter]
  | hear hstage hspeaks hrole hadmits =>
      obtain rfl := howns hmoves
      simp [hstage, go_stage]
  | aim hstage hroute =>
      obtain rfl := howns hmoves
      refine ⟨by simp [hstage], by simp [hstage], fun errand hrecorded hheeds => ?_⟩
      -- An acknowledgement is no request to wait.
      obtain rfl := Stage.recorded.inj (hstage.symm.trans hrecorded)
      rcases hheeds with ⟨id, master, hspeaks, -⟩
      have hwaits := (Engine.handle_of_acknowledges 0 hspeaks).symm.trans
        (Engine.handle_of_asks hroute)
      simp only [Prod.mk.injEq, reduceCtorEq, false_and] at hwaits
  | handle _ hstage _ hheeds =>
      obtain rfl := howns hmoves
      refine ⟨by simp [hstage], by simp [hstage], fun errand hrecorded hheeds' => ?_⟩
      obtain rfl := Stage.recorded.inj (hstage.symm.trans hrecorded)
      exact absurd hheeds' hheeds
  | block _ hstage _ hheeds =>
      obtain rfl := howns hmoves
      refine ⟨by simp [hstage], by simp [hstage], fun errand hrecorded hheeds' => ?_⟩
      obtain rfl := Stage.recorded.inj (hstage.symm.trans hrecorded)
      exact absurd hheeds' hheeds
  | record _ hstage | look _ hstage | find _ hstage | ring _ hstage =>
      obtain rfl := howns hmoves
      simp [hstage]
  | install hstage | ask hstage | deliver hstage | park hstage | wake hstage | lose hstage
  | goOn hstage | count hstage | conclude hstage =>
      obtain rfl := howns hmoves
      simp [hstage]

end Effect

end Quorum

end KeyValue
