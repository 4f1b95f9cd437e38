import KeyValue.Proofs.Sessions.Occupying
import Mathlib.Data.List.Nodup

/-!
# Books on the place for a waiting client

The place for a waiting client belongs to one that has not finished, and whoever took it and has not
finished has it still, unless another client took it over (`Replaced`). What carries the rest is that
a client which has yet to look at its signals, and whose count is what it wants, has a signal that it
has not taken, or one that is about to be sent (`Placed`). So no wake-up is lost.

## Main definitions

* `Replaced`: Another client took the place over.
* `Placed`: The invariant of a run.
* `Exchange.Books`, `Exchange.Moves`: What is known of a state, and of a step from it.

## Theorems

* `Exchange.Step.placed`, `Exchange.Run.placed`: Each step keeps the invariant, and each run.
* `Exchange.Step.moves`: What a step does.
* `Exchange.Run.keeps_books`: The books of a run.
-/

namespace KeyValue

namespace Quorum

/-- The place in the history of a recorded command. -/
def Mark.index? : Mark → Option Nat
  | recorded _ errand => some errand.index
  | _ => none

/-- What a client waits for that takes the place. -/
def Mark.target? : Mark → Option Nat
  | took _ target => some target
  | _ => none

/-- The client took the place, and another client took it over. -/
def Replaced (log : List Mark) (client target : Nat) : Prop :=
  ∃ before during other target', log = before ++ .took client target :: during ∧
    .took other target' ∈ during ∧ other ≠ client

/-- Who has the place and who has lost it; and no wake-up is lost. -/
structure Placed (log : List Mark) (state : Exchange) : Prop where
  aims : ∀ client errand wait, state.stage client = .aims errand wait → 0 < wait.wanted
  /-- The place belongs to a client that has not left it. -/
  belongs : ∀ waiter, state.engine.place = some waiter →
    ∃ client wait, (state.stage client).held? = some wait ∧ wait.target = waiter.target
  /-- A client that has not left the place has it, or another client took it over. -/
  holds : ∀ client wait, (state.stage client).held? = some wait →
    (∃ signals, state.engine.place = some ⟨wait.target, signals⟩) ∨ Replaced log client wait.target
  lost : ∀ client errand wait, state.stage client = .woken errand wait true →
    Replaced log client wait.target
  /-- A client that will look at its signals, and whose count is what it wants, finds one. -/
  ready : ∀ client wait signals, (state.stage client).listens? = some wait →
    state.engine.place = some ⟨wait.target, signals⟩ →
      wait.wanted ≤ state.engine.acks wait.target → 0 < signals ∨ state.signaller.isSome
  /-- A signal that is due goes to the client whose count was raised. -/
  owes : ∀ speaker, state.signaller = some speaker → ∃ errand id waiter,
    state.engine.place = some waiter ∧ .acknowledged speaker errand id waiter.target ∈ log

section Placed

variable {log : List Mark} {mark : Mark} {state next : Exchange} {client : Nat}

/-- Whoever has been replaced stays so. -/
theorem Replaced.append {target : Nat} (h : Replaced log client target) (mark : Mark) :
    Replaced (log ++ [mark]) client target := by
  rcases h with ⟨before, during, other, target', rfl, htook, hother⟩
  exact ⟨before, during ++ [mark], other, target', by simp, List.mem_append_left _ htook, hother⟩

-- Whoever took the place before another client takes it is replaced.
theorem Replaced.of_took {target target' other : Nat} (h : .took client target ∈ log)
    (hother : other ≠ client) : Replaced (log ++ [.took other target']) client target := by
  rcases List.append_of_mem h with ⟨before, during, rfl⟩
  exact ⟨before, during ++ [.took other target'], other, target', by simp, by simp, hother⟩

-- No two clients wait for the same.
theorem Orderly.eq_of_wait {state : Quorum} {other : Nat} {wait wait' : AckWait}
    (h : Orderly log state) (hwait : (state.stage client).wait? = some wait)
    (hother : (state.stage other).wait? = some wait') (htarget : wait.target = wait'.target) :
    client = other := by
  have hindex : ∀ {client wait}, (state.stage client).wait? = some wait →
      ∃ errand, (state.stage client).errand? = some errand ∧ errand.index = wait.target + 1 := by
    intro client wait hwait
    have hfollows := h.stage client
    cases hstage : state.stage client <;>
      simp only [hstage, Stage.wait?, Stage.held?, Option.some.injEq, reduceCtorEq] at hwait <;>
        subst hwait <;> rw [hstage] at hfollows
    case aims => exact ⟨_, rfl, hfollows.2.2⟩
    case installed => exact ⟨_, rfl, hfollows.2.1⟩
    case counted => exact ⟨_, rfl, hfollows.1.index⟩
    all_goals exact ⟨_, rfl, Engaged.index hfollows⟩
  rcases hindex hwait with ⟨errand, herrand, hplace⟩
  rcases hindex hother with ⟨errand', herrand', hplace'⟩
  exact h.apart client other errand errand' herrand herrand' (by omega)

/-- No two clients hold the place for the same command. -/
theorem Orderly.eq_of_held {state : Quorum} {other : Nat} {wait wait' : AckWait}
    (h : Orderly log state) (hheld : (state.stage client).held? = some wait)
    (hother : (state.stage other).held? = some wait') (htarget : wait.target = wait'.target) :
    client = other :=
  h.eq_of_wait (Stage.wait?_of_held hheld) (Stage.wait?_of_held hother) htarget

namespace Placed

/-- A step after which the place belongs to the same client, if to any, keeps the invariant, if it
    does so for the clients that will look at their signals. -/
theorem keep (h : Placed log state) (hturns : Turns state.toQuorum next.toQuorum client)
    (hplace : next.engine.place.map (·.target) = state.engine.place.map (·.target))
    (hready : ∀ other wait signals, (next.stage other).listens? = some wait →
      next.engine.place = some ⟨wait.target, signals⟩ →
        wait.wanted ≤ next.engine.acks wait.target → 0 < signals ∨ next.signaller.isSome)
    (howes : ∀ speaker, next.signaller = some speaker → ∃ errand id waiter,
      next.engine.place = some waiter ∧
        .acknowledged speaker errand id waiter.target ∈ log ++ [mark]) :
    Placed (log ++ [mark]) next := by
  have hheld : ∀ other, (next.stage other).held? = (state.stage other).held? := by
    intro other
    by_cases heq : other = client
    · exact heq ▸ hturns.held
    · rw [hturns.others other heq]
  refine ⟨?_, ?_, ?_, ?_, hready, howes⟩
  · intro other errand wait haims
    by_cases heq : other = client
    · subst heq
      exact (hturns.aims errand wait haims).elim (h.aims other errand wait) id
    · exact h.aims other errand wait (hturns.others other heq ▸ haims)
  · intro waiter hwaiter
    rw [hwaiter, Option.map_some, eq_comm, Option.map_eq_some_iff] at hplace
    rcases hplace with ⟨old, hold, htarget⟩
    rcases h.belongs old hold with ⟨owner, wait, howner, hwait⟩
    exact ⟨owner, wait, (hheld owner).trans howner, hwait.trans htarget⟩
  · intro other wait hother
    rcases h.holds other wait ((hheld other).symm.trans hother) with ⟨signals, hold⟩ | hreplaced
    · rw [hold, Option.map_some, Option.map_eq_some_iff] at hplace
      rcases hplace with ⟨⟨target, signals⟩, hwaiter, rfl⟩
      exact Or.inl ⟨signals, hwaiter⟩
    · exact Or.inr (hreplaced.append mark)
  · intro other errand wait hwoken
    refine Replaced.append ?_ mark
    by_cases heq : other = client
    · subst heq
      rcases hturns.lost errand wait hwoken with hbefore | hnot
      · exact h.lost other errand wait hbefore
      · -- It finds that the place is not its own, so another client took it over.
        have hother : (state.stage other).held? = some wait := by rw [← hheld, hwoken]; rfl
        refine (h.holds other wait hother).resolve_left ?_
        rintro ⟨signals, hown⟩
        exact hnot _ hown rfl
    · exact h.lost other errand wait (hturns.others other heq ▸ hwoken)

-- Who listens after a step, and finds what it wants where it was before, listened before.
theorem listened (hturns : Turns state.toQuorum next.toQuorum client)
    (hacks : ∀ target, next.engine.acks target = state.engine.acks target) {other : Nat}
    {wait : AckWait} (hlistens : (next.stage other).listens? = some wait)
    (hwanted : wait.wanted ≤ next.engine.acks wait.target) :
    (state.stage other).listens? = some wait := by
  by_cases heq : other = client
  · subst heq
    refine (hturns.listens wait hlistens).resolve_right ?_
    rw [← hacks]
    exact Nat.not_lt.mpr hwanted
  · exact hturns.others other heq ▸ hlistens

end Placed

/-- Each step keeps the invariant. -/
theorem Exchange.Step.placed (horderly : Orderly log state.toQuorum) (h : Placed log state)
    (hstep : Exchange.Step state mark next) : Placed (log ++ [mark]) next := by
  cases hstep.effect horderly with
  | none client hturns hmark hsignaller hplace hacks =>
      refine h.keep hturns (by rw [hplace]) ?_ ?_
      · intro other wait signals hlistens hown hwanted
        have hbefore := Placed.listened hturns hacks hlistens hwanted
        rw [hplace] at hown
        rw [hacks] at hwanted
        rw [hsignaller]
        exact h.ready other wait signals hbefore hown hwanted
      · intro speaker hspeaker
        rcases h.owes speaker (hsignaller ▸ hspeaker) with ⟨errand, id, waiter, hwaiter, hmem⟩
        exact ⟨errand, id, waiter, hplace.trans hwaiter, List.mem_append_left _ hmem⟩
  | @takes client errand wait hothers hmark hstage hnext hfree hsignaller hplace hacks =>
      subst hmark
      have hheld : (next.stage client).held? = some wait := by rw [hnext]; rfl
      have hafter := hstep.orderly horderly
      have hstays : ∀ other stage, next.stage other = stage → stage ≠ .installed errand wait →
          other ≠ client ∧ state.stage other = stage := by
        rintro other stage hother hne
        have hdiff : other ≠ client := by
          rintro rfl
          exact hne (hother.symm.trans hnext)
        exact ⟨hdiff, (hothers other hdiff).symm.trans hother⟩
      refine ⟨?_, ?_, ?_, ?_, ?_, by simp [hsignaller]⟩
      · intro other errand' wait' haims
        exact h.aims other errand' wait' (hstays other _ haims (by simp)).2
      · intro waiter hwaiter
        rw [← Option.some.inj (hplace.symm.trans hwaiter)]
        exact ⟨client, wait, hheld, rfl⟩
      · -- All others that have not left the place are replaced.
        intro other wait' hother
        by_cases heq : other = client
        · subst heq
          rw [← Option.some.inj (hheld.symm.trans hother)]
          exact Or.inl ⟨0, hplace⟩
        · rw [hothers other heq] at hother
          exact Or.inr (.of_took (horderly.took hother) (Ne.symm heq))
      · intro other errand' wait' hwoken
        exact (h.lost other errand' wait' (hstays other _ hwoken (by simp)).2).append _
      · -- Nothing has counted for the client that took the place, and it wants something.
        intro other wait' signals hlistens hown hwanted
        have hsame : wait.target = wait'.target := by
          rw [hplace] at hown
          exact congrArg AckWaiter.target (Option.some.inj hown)
        obtain rfl := hafter.eq_of_held hheld (Stage.held?_of_listens hlistens) hsame
        rw [hnext] at hlistens
        rw [hacks, ← Option.some.inj hlistens] at hwanted
        have hfresh := horderly.stage client
        rw [hstage] at hfresh
        rcases horderly.master with ⟨master, hrole, htallies⟩
        rw [Engine.acks_of_master hrole,
          htallies.counts.ackCount_of_fresh (hfresh.2.2 ▸ hfresh.2.1)] at hwanted
        exact absurd (h.aims client errand wait hstage) (by omega)
  | @wakes client signals wait hturns hmark hsignaller hheld hnext hplace htaken hacks =>
      refine h.keep hturns (by rw [hplace, htaken]; rfl) ?_ ?_
      · intro other wait' signals' hlistens hown hwanted
        have hbefore := Stage.held?_of_listens (Placed.listened hturns hacks hlistens hwanted)
        -- It is not the client that took the signal, so the place is not its own.
        have hsame : wait.target = wait'.target := by
          rw [htaken] at hown
          exact congrArg AckWaiter.target (Option.some.inj hown)
        obtain rfl := horderly.eq_of_held hheld hbefore hsame
        simp only [hnext, reduceCtorEq] at hlistens
      · intro speaker hspeaker
        rcases h.owes speaker (hsignaller ▸ hspeaker) with ⟨errand, id, waiter, hwaiter, hmem⟩
        refine ⟨errand, id, _, htaken, List.mem_append_left _ ?_⟩
        rw [hplace] at hwaiter
        rwa [← Option.some.inj hwaiter] at hmem
  | @leaves client acks errand wait hothers hmark hstage hnext hfree hsignaller hplace hacks =>
      have hheld : (state.stage client).held? = some wait := by rw [hstage]; rfl
      -- Whoever has not left the place is another client, and stays.
      have hstays : ∀ {other wait}, (next.stage other).held? = some wait →
          other ≠ client ∧ next.stage other = state.stage other := by
        intro other wait hother
        have hdiff : other ≠ client := by
          rintro rfl
          simp only [hnext, Stage.held?, reduceCtorEq] at hother
        exact ⟨hdiff, hothers other hdiff⟩
      have hothers' : ∀ other stage, next.stage other = stage →
          stage ≠ .handled errand (.reply (Engine.countReply acks)) → state.stage other = stage := by
        intro other stage hother hne
        refine (hothers other ?_).symm.trans hother
        rintro rfl
        exact hne (hother.symm.trans hnext)
      refine ⟨?_, ?_, ?_, ?_, ?_, by simp [hsignaller]⟩
      · intro other errand' wait' haims
        exact h.aims other errand' wait' (hothers' other _ haims (by simp))
      · intro waiter hwaiter
        rw [hplace, Option.filter_eq_some_iff] at hwaiter
        rcases h.belongs waiter hwaiter.1 with ⟨owner, wait', howner, hwait⟩
        refine ⟨owner, wait', ?_, hwait⟩
        rw [hothers owner]
        · exact howner
        · rintro rfl
          rw [Option.some.inj (hheld.symm.trans howner)] at hwaiter
          simp [hwait] at hwaiter
      · intro other wait' hother
        rcases hstays hother with ⟨hdiff, hsame⟩
        rw [hsame] at hother
        rcases h.holds other wait' hother with ⟨signals, hown⟩ | hreplaced
        · refine Or.inl ⟨signals, ?_⟩
          have hne : wait'.target ≠ wait.target :=
            fun heq => hdiff (horderly.eq_of_held hother hheld heq)
          rw [hplace, hown, Option.filter_some, if_pos (by simpa using hne)]
        · exact Or.inr (hreplaced.append mark)
      · intro other errand' wait' hwoken
        exact (h.lost other errand' wait' (hothers' other _ hwoken (by simp))).append _
      · intro other wait' signals hlistens hown hwanted
        rcases hstays (Stage.held?_of_listens hlistens) with ⟨hdiff, hsame⟩
        rw [hsame] at hlistens
        rw [hacks] at hwanted
        rw [hplace, Option.filter_eq_some_iff] at hown
        rw [hsignaller, ← hfree]
        exact h.ready other wait' signals hlistens hown.1 hwanted
  | @counts client id signals errand waiter hturns hmark hstage hfree hplace hnext hdue hacks =>
      refine h.keep hturns (by rw [hplace, hnext]; rfl) ?_ ?_
      · intro other wait signals' hlistens hown hwanted
        rcases hdue with ⟨hraised, hnone⟩ | ⟨hsame, hspeaks⟩
        · rw [hnext, hraised] at hown
          have hsignals := congrArg AckWaiter.signals (Option.some.inj hown)
          exact Or.inl (by simp only at hsignals; omega)
        · exact Or.inr (by rw [hspeaks]; rfl)
      · intro speaker hspeaker
        rcases hdue with ⟨hraised, hnone⟩ | ⟨hsame, hspeaks⟩
        · simp only [hnone, reduceCtorEq] at hspeaker
        · rw [hspeaks] at hspeaker
          obtain rfl := Option.some.inj hspeaker
          exact ⟨errand, id, _, hnext, by simp [hmark]⟩
  | @signals client hstage hmark hdue hsignaller hplace hacks =>
      refine h.keep (.still hstage client) ?_ ?_ (by simp [hsignaller])
      · rw [hplace, Option.map_map]
        rfl
      · intro other wait signals hlistens hown hwanted
        rw [hplace, Option.map_eq_some_iff] at hown
        rcases hown with ⟨old, -, hsent⟩
        have hsignals := congrArg AckWaiter.signals hsent
        exact Or.inl (by simp only at hsignals; omega)

/-- At each moment of a run the place is held as the books have it. -/
theorem Exchange.Run.placed (h : Exchange.Run state log next) (horderly : Orderly [] state.toQuorum)
    (hstate : Placed [] state) : Placed log next := by
  induction h with
  | done => exact hstate
  | step hrun hstep ih => exact hstep.placed (hrun.orderly horderly) ih

theorem Exchange.start_placed (config : Config) (file : Snapshot.File) (replicationId : String)
    (hmaster : config.replicaOf = none) : Placed [] (start config file replicationId) := by
  have hplace : (Engine.start config file replicationId).place = none := by
    simp only [Engine.place, Engine.start, Role.start, hmaster, Role.master?, Option.bind_some]
  refine ⟨?_, ?_, ?_, ?_, ?_, ?_⟩ <;>
    simp [hplace, start, Quorum.start, Stage.held?, Stage.listens?]

end Placed

namespace Exchange

/-- What is known of a state, from what was seen before. -/
structure Books (log : List Mark) (state : Exchange) : Prop where
  /-- The places in the history are handed out one by one. -/
  indices : log.filterMap Mark.index? = List.range (log.countP Mark.isRecorded)
  /-- No two clients ever take the place for the same command, and no two wait for the same. -/
  targets : (log.filterMap Mark.target?).Nodup
  apart : ∀ client other wait wait', (state.stage client).wait? = some wait →
    (state.stage other).wait? = some wait' → wait.target = wait'.target → client = other
  /-- The place belongs to a client that has not left it. -/
  belongs : ∀ waiter, state.engine.place = some waiter →
    ∃ client wait, (state.stage client).held? = some wait ∧ wait.target = waiter.target
  /-- A client that waits, and whose count is what it wants, has a signal, or one is about to be sent
      to it; or another client took the place over. -/
  ready : ∀ client errand wait, state.stage client = .waits errand wait →
    wait.wanted ≤ state.engine.acks wait.target →
      (∃ signals, state.engine.place = some ⟨wait.target, signals⟩ ∧
        (0 < signals ∨ state.signaller.isSome)) ∨ Replaced log client wait.target
  owes : ∀ speaker, state.signaller = some speaker → ∃ errand id waiter,
    state.engine.place = some waiter ∧ .acknowledged speaker errand id waiter.target ∈ log

/-- What is known of a step, from what was seen before. -/
structure Moves (log : List Mark) (state : Exchange) (mark : Mark) (next : Exchange) : Prop where
  /-- A client that has taken its last count leaves the place exactly if the place is its own, and is
      answered with its count. -/
  leaves : ∀ client errand wait acks, state.stage client = .counted errand wait acks →
    next.stage client ≠ state.stage client →
      next.stage client = .handled errand (.reply (Engine.countReply acks)) ∧
      next.engine.place = state.engine.place.filter (·.target != wait.target)
  /-- Nothing else empties the place. -/
  empties : ∀ waiter, state.engine.place = some waiter → next.engine.place = none →
    ∃ client errand wait acks, state.stage client = .counted errand wait acks ∧
      next.stage client ≠ state.stage client ∧ wait.target = waiter.target
  /-- The acknowledgement of a replica that is registered when it is looked up is heard. -/
  heeds : ∀ client errand, state.stage client = .recorded errand →
    state.engine.Heeds (state.session client) errand.command →
      next.stage client ≠ state.stage client →
        ∃ id, mark = .heard client errand id ∧ next.stage client = .heard errand id
  /-- And no other is. -/
  hears : ∀ client errand id, mark = .heard client errand id → state.stage client = .recorded errand ∧
    state.engine.Heeds (state.session client) errand.command
  /-- What was heard counts for the client that has the place. -/
  places : ∀ client errand id, state.stage client = .heard errand id →
    next.stage client ≠ state.stage client →
      mark = state.engine.place.elim .nothing fun waiter =>
        .acknowledged client errand id waiter.target
  /-- It raises one count by one, and one signal is due for it. -/
  counts : ∀ client errand id target, mark = .acknowledged client errand id target →
    .heard client errand id ∈ log ∧ (∃ signals, state.engine.place = some ⟨target, signals⟩) ∧
      (∀ other, next.engine.acks other =
        state.engine.acks other + if target = other then 1 else 0) ∧
      next.due = state.due + 1
  /-- Whatever else happens changes no count, and is no reason for a signal. -/
  quiet : ¬mark.IsCounted →
    (∀ target, next.engine.acks target = state.engine.acks target) ∧ next.due ≤ state.due
  grows : ∀ target, state.engine.acks target ≤ next.engine.acks target
  /-- A client that takes its last count has what it wants, or another client took the place over, or
      its time is over. -/
  counted : ∀ client target acks, mark = .counted client target acks →
    acks = state.engine.acks target ∧ ∃ errand wait, wait.target = target ∧
      ((∃ lost, state.stage client = .woken errand wait lost ∧
          (wait.wanted ≤ acks ∨ Replaced log client target)) ∨
        state.stage client = .waits errand wait ∧ errand.command.IsTimed)

section Books

variable {log : List Mark} {mark : Mark} {state next : Exchange}

/-- A step records at most one command, and gives it the next index. -/
theorem Step.index (h : Orderly log state.toQuorum) (hstep : Exchange.Step state mark next) :
    mark.index? = if mark.isRecorded then some (log.countP Mark.isRecorded) else none := by
  cases mark with
  | recorded client errand =>
      cases hstep with
      | step hstep =>
          cases hstep with
          | record command hstage hrecord =>
              rcases h.master with ⟨master, hrole, htallies⟩
              simp only [Engine.record, hrole, Prod.mk.injEq] at hrecord
              rw [← htallies.history.size]
              exact hrecord.1.symm
  | _ => rfl

/-- The indices of the recorded commands are in the order of their records, and none is left out. -/
theorem Run.indices (h : Exchange.Run state log next) (hstate : Orderly [] state.toQuorum) :
    log.filterMap Mark.index? = List.range (log.countP Mark.isRecorded) := by
  induction h with
  | done => rfl
  | @step middle after log mark hrun hstep ih =>
      rw [List.filterMap_append, ih, List.countP_append, List.filterMap_cons,
        hstep.index (hrun.orderly hstate)]
      cases hrecorded : mark.isRecorded <;> simp [hrecorded, List.range_succ]

-- Taking the place is part of what a command does once.
theorem targets_sublist (log : List Mark) :
    ((log.filterMap Mark.target?).map (· + 1)).Sublist (log.filterMap Mark.spends?) := by
  induction log with
  | nil => exact .slnil
  | cons mark rest ih =>
      cases mark with
      | took client target => exact ih.cons_cons (target + 1)
      | acknowledged client errand id target => exact ih.cons errand.index
      | _ => exact ih

theorem books (horderly : Orderly log state.toQuorum) (h : Placed log state)
    (hindices : log.filterMap Mark.index? = List.range (log.countP Mark.isRecorded)) :
    Books log state where
  indices := hindices
  targets := by
    rcases horderly.master with ⟨master, -, htallies⟩
    exact List.Nodup.of_map _ ((targets_sublist log).nodup htallies.spent.once)
  apart _ _ _ _ hwait hother htarget := horderly.eq_of_wait hwait hother htarget
  belongs := h.belongs
  ready client errand wait hstage hwanted := by
    have hlistens : (state.stage client).listens? = some wait := by rw [hstage]; rfl
    rcases h.holds client wait (Stage.held?_of_listens hlistens) with ⟨signals, hown⟩ | hreplaced
    · exact Or.inl ⟨signals, hown, h.ready client wait signals hlistens hown hwanted⟩
    · exact Or.inr hreplaced
  owes := h.owes

-- How the counts and the due signals change, by what is seen of the step.
theorem due_of_effect (heffect : Effect state mark next) :
    (¬mark.IsCounted →
      (∀ target, next.engine.acks target = state.engine.acks target) ∧ next.due ≤ state.due) ∧
    (mark.IsCounted → next.due = state.due + 1) := by
  cases heffect with
  | none client hturns hmark hsignaller hplace hacks =>
      exact ⟨fun _ => ⟨hacks, Nat.le_of_eq (by rw [due, due, hplace, hsignaller])⟩,
        fun h => absurd h hmark⟩
  | takes hothers hmark hstage hnext hfree hsignaller hplace hacks =>
      refine ⟨fun _ => ⟨hacks, ?_⟩, fun h => ?_⟩
      · simp [due, hplace, hsignaller]
      · simp only [hmark, Mark.IsCounted] at h
  | wakes hturns hmark hsignaller hheld hnext hplace htaken hacks =>
      refine ⟨fun _ => ⟨hacks, ?_⟩, fun h => absurd h hmark⟩
      simp only [due, hplace, htaken, hsignaller, Option.elim_some]
      omega
  | leaves hothers hmark hstage hnext hfree hsignaller hplace hacks =>
      refine ⟨fun _ => ⟨hacks, ?_⟩, fun h => absurd h hmark⟩
      simp only [due, hplace, hsignaller, hfree]
      cases state.engine.place with
      | none => exact Nat.le_refl _
      | some waiter =>
          rw [Option.filter_some]
          split
          · exact Nat.le_refl _
          · exact Nat.zero_le _
  | counts hturns hmark hstage hfree hplace hnext hdue hacks =>
      refine ⟨fun h => absurd (by rw [hmark]; trivial) h, fun _ => ?_⟩
      rcases hdue with ⟨rfl, hnone⟩ | ⟨rfl, hspeaks⟩
      · simp [due, hplace, hnext, hfree, hnone]
      · simp [due, hplace, hnext, hfree, hspeaks]
  | signals hstage hmark hdue hsignaller hplace hacks =>
      refine ⟨fun _ => ⟨hacks, ?_⟩, fun h => absurd h hmark⟩
      simp only [due, hplace, hdue, hsignaller]
      cases state.engine.place <;> simp

/-- How the books go on is told by the mark of the step. -/
theorem Step.moves (horderly : Orderly log state.toQuorum) (h : Placed log state)
    (hstep : Exchange.Step state mark next) : Moves log state mark next := by
  have heffect := hstep.effect horderly
  have hcounts : ∀ client errand id target, mark = .acknowledged client errand id target →
      .heard client errand id ∈ log ∧ (∃ signals, state.engine.place = some ⟨target, signals⟩) ∧
      (∀ other, next.engine.acks other =
        state.engine.acks other + if target = other then 1 else 0) ∧
      next.due = state.due + 1 := by
    rintro client errand id target rfl
    have hdue := (due_of_effect heffect).2 trivial
    cases heffect with
    | @counts client' id' signals errand' waiter hturns hmark hstage hfree hplace hnext _ hacks =>
        rcases Mark.acknowledged.inj hmark with ⟨rfl, rfl, rfl, rfl⟩
        have hfollows := horderly.stage client
        rw [hstage] at hfollows
        exact ⟨hfollows.2.2, ⟨waiter.signals, hplace⟩, hacks, hdue⟩
    | none _ _ hmark | wakes _ hmark | leaves _ hmark | signals _ hmark =>
        exact absurd trivial hmark
    | takes _ hmark => simp only [reduceCtorEq] at hmark
  have hquiet := (due_of_effect heffect).1
  -- What a client does that leaves, sends an acknowledgement or counts one.
  have hown : ∀ client, next.stage client ≠ state.stage client →
      (∀ errand wait acks, state.stage client = .counted errand wait acks →
        next.stage client = .handled errand (.reply (Engine.countReply acks)) ∧
        next.engine.place = state.engine.place.filter (·.target != wait.target)) ∧
      (∀ errand id, state.stage client = .heard errand id →
        mark = state.engine.place.elim .nothing fun waiter =>
          .acknowledged client errand id waiter.target) ∧
      (∀ errand, state.stage client = .recorded errand →
        state.engine.Heeds (state.session client) errand.command →
          ∃ id, mark = .heard client errand id ∧ next.stage client = .heard errand id) := by
    intro client hmoves
    cases hstep with
    | step hstep hlocked =>
        rcases hstep.own hmoves with ⟨hleaves, hcounts, hheeds⟩
        refine ⟨fun errand wait acks hstage => ?_, hcounts, hheeds⟩
        rcases hleaves errand wait acks hstage with ⟨-, rfl⟩
        refine ⟨go_stage .., ?_⟩
        rcases horderly.master with ⟨master, hrole, -⟩
        refine (Engine.place_of_master (Engine.role_updateMaster hrole _)).trans ?_
        rw [Engine.place_of_master hrole, Master.waiter_leave]
    | @linger other errand wait master hstage =>
        obtain rfl : client = other := by
          by_contra hother
          exact hmoves (Function.update_of_ne hother ..)
        simp [hstage]
    | @raise other id errand master waiter hfree hstage hrole hwaiter =>
        obtain rfl : client = other := by
          by_contra hother
          exact hmoves (Function.update_of_ne hother ..)
        simp [hstage, Engine.place_of_master hrole, hwaiter]
    | signal => exact absurd rfl hmoves
  refine ⟨fun client errand wait acks hstage hmoves => (hown client hmoves).1 _ _ _ hstage, ?_,
    fun client errand hstage hheeds hmoves => (hown client hmoves).2.2 _ hstage hheeds, ?_,
    fun client errand id hstage hmoves => (hown client hmoves).2.1 _ _ hstage, hcounts, hquiet,
    ?_, ?_⟩
  · intro waiter hwaiter hempty
    cases heffect with
    | none _ _ _ _ hplace => simp [hplace, hwaiter] at hempty
    | takes _ _ _ _ _ _ hplace => simp [hplace] at hempty
    | wakes _ _ _ _ _ _ htaken => simp [htaken] at hempty
    | counts _ _ _ _ _ hnext => simp [hnext] at hempty
    | signals _ _ _ _ hplace => simp [hplace, hwaiter] at hempty
    | @leaves client acks errand wait _ _ hstage hnext _ _ hplace =>
        refine ⟨client, errand, wait, acks, hstage, by simp [hstage, hnext], ?_⟩
        rw [hplace, hwaiter, Option.filter_some] at hempty
        by_contra htarget
        simp [Ne.symm htarget] at hempty
  · rintro client errand id rfl
    cases hstep with
    | step hstep =>
        cases hstep with
        | hear hstage hspeaks hrole hadmits =>
            exact ⟨hstage, id, _, hspeaks, hrole, hadmits⟩
  · intro target
    by_cases hmark : mark.IsCounted
    · cases mark with
      | acknowledged client errand id place =>
          rw [(hcounts client errand id place rfl).2.2.1 target]
          exact Nat.le_add_right ..
      | _ => exact hmark.elim
    · exact Nat.le_of_eq ((hquiet hmark).1 target).symm
  · rintro client target acks rfl
    cases hstep with
    | step hstep =>
        cases hstep with
        | @count _ errand wait lost master hstage hrole hdone =>
            refine ⟨(Engine.acks_of_master hrole _).symm, errand, wait, rfl,
              Or.inl ⟨lost, hstage, hdone.imp id fun hlost => ?_⟩⟩
            exact h.lost client errand wait (hlost ▸ hstage)
        | @ring _ errand wait master htimed hstage hrole =>
            exact ⟨(Engine.acks_of_master hrole _).symm, errand, wait, rfl,
              Or.inr ⟨hstage, htimed⟩⟩

end Books

/-- The books of a master on the clients that wait for replicas. Places in the history are handed out
    once, and the place for a waiting client belongs to one that has not finished; who leaves clears it
    only if it is its own. Exactly the acknowledgements of replicas that are registered when they are
    heard count, each once, for the client that has the place. A client that takes its last count
    before its time is over has what it wants, or another took the place over; and while it waits with
    what it wants, its signal is there or about to be sent. -/
theorem Run.keeps_books {config : Config} {file : Snapshot.File} {replicationId : String}
    {log : List Mark} {state : Exchange} (hmaster : config.replicaOf = none)
    (h : Exchange.Run (start config file replicationId) log state) :
    Books log state ∧
      ∀ mark next, Exchange.Step state mark next → Moves log state mark next := by
  have hstart := start_orderly file replicationId hmaster
  have horderly := h.orderly hstart
  have hplaced := h.placed hstart (start_placed config file replicationId hmaster)
  exact ⟨books horderly hplaced (h.indices hstart), fun mark next hstep =>
    hstep.moves horderly hplaced⟩

/-- Clients that nobody signals in between take the steps of `Quorum`. -/
theorem Run.of_run {first last : Quorum} {log : List Mark} (h : Quorum.Run first log last) :
    Exchange.Run { toQuorum := first } log { toQuorum := last } := by
  induction h with
  | done => exact .done
  | step _ hstep ih => exact ih.step (.step hstep (by simp))

/-- A client waits for one acknowledgement. It has counted, and the client has yet to be signalled. -/
theorem Run.keeps_books_of_raised :
    let wait : Errand := ⟨.ofParts .wait ["1", "50"], 1⟩
    let ack : Errand := ⟨.ofParts .replconf ["ACK", "0"], 2⟩
    ∃ log state next,
      Exchange.Run (start {} .missing "id") (log ++ [.acknowledged 1 ack 1 0]) state ∧
      state.stage 0 = .waits wait ⟨0, 1⟩ ∧ state.engine.acks 0 = 1 ∧
      state.engine.place = some ⟨0, 0⟩ ∧ state.signaller = some 1 ∧
      Exchange.Step state .nothing next ∧ next.engine.place = some ⟨0, 1⟩ ∧
      Books (log ++ [.acknowledged 1 ack 1 0]) state ∧
      Moves (log ++ [.acknowledged 1 ack 1 0]) state .nothing next := by
  intro wait ack
  let set : Errand := ⟨.ofParts .set ["k", "v"], 0⟩
  have hspeaks : ({ replicaId := some 1 } : Session).acknowledgesAs? ack.command = some 1 := by
    decide +kernel
  have hregister := Quorum.Run.step .done
    (@Quorum.Step.register (Quorum.start {} .missing "id") 1 0 { replicationId := "id" } rfl)
  have hwrite := ((hregister.step (@Quorum.Step.record _ 0 0 _ set.command rfl rfl)).step
    (@Quorum.Step.handle _ 0 set (.reply .ok) _ _ 7 rfl (by rintro _ _ ⟨⟩)
      (by rintro ⟨_, _, ⟨⟩, _⟩) rfl)).step
    (@Quorum.Step.conclude _ 0 set (.reply .ok) rfl)
  have hrequest := hwrite.step (@Quorum.Step.record _ 0 1 _ wait.command rfl rfl)
  have haims := hrequest.step (@Quorum.Step.aim _ 0 wait ⟨0, 1⟩ 50 rfl rfl)
  have hparks := (((haims.step (@Quorum.Step.install _ 0 wait ⟨0, 1⟩ rfl)).step
    (@Quorum.Step.ask _ 0 wait ⟨0, 1⟩ rfl)).step
    (@Quorum.Step.deliver _ 0 wait ⟨0, 1⟩ ⟨1, 0⟩ [] rfl)).step
    (@Quorum.Step.park _ 0 wait ⟨0, 1⟩ rfl)
  have hheard := (hparks.step (@Quorum.Step.record _ 1 2 _ ack.command rfl rfl)).step
    (@Quorum.Step.hear _ 1 1 ack _ rfl hspeaks rfl rfl)
  have hraised := (Run.of_run hheard).step (@Step.raise _ 1 1 ack _ ⟨0, 0⟩ rfl rfl rfl rfl)
  have hbooks := Run.keeps_books rfl hraised
  exact ⟨_, _, _, hraised, rfl, rfl, rfl, rfl, .signal rfl, rfl, hbooks.1,
    hbooks.2 _ _ (.signal rfl)⟩

end Exchange

end Quorum

end KeyValue
