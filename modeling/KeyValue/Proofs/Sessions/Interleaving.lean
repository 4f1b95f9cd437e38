import KeyValue.Proofs.Sessions.Acting
import KeyValue.Proofs.Sessions.Transacting

/-!
# Transactions between other sessions

The threads that serve the clients use the engine one after the other: each step is some deeds of
one client, or of nobody (`Performs`), and what is found tells what the client is answered. The
commands of a transaction are run in separate steps. So what a thread does to run a queue is told by
`Runs`, whatever other threads do in between (`Telling.interleaves`).

A transaction is not run as a whole (`interferes`). It is as good as that if nobody comes across it
(`isolates_queues`).

## Main definitions

* `Threads.AnswersTo`, `Threads.GoesOn`: What was found tells the answers.
* `Threads.Performs`, `Threads.Performing`: What a step does to the engine, and any number of steps.

## Theorems

* `Step.acts`, `Tells.performs`, `Telling.performing`: Everything that is done is a list of deeds.
* `Telling.interleaves`: What is done while a queue is run.
* `isolates_queues`: A queue that nobody comes across.
* `interferes`: A queue that somebody comes across.
-/

namespace KeyValue

namespace Threads

/-- The response to its command that a client has when the command was handled, or the write was
    run. -/
def response? (threads : Threads) (client : Nat) : Option Response :=
  match threads.task client with
  | .handled _ response => some response
  | .writes =>
    match threads.lock with
    | .ran write => some (.ofExcept write.result)
    | _ => none
  | _ => none

/-- The plain command that the client gives outside of a transaction is answered what was found. -/
def AnswersTo (client : Nat) (deeds : List Deed) (before after : Threads) : Prop :=
  ∀ command index request response, before.task client = .recorded command index →
    Request.ofCommand command = .ok request → request.isPlain = true →
    (before.session client).transaction = .closed → after.response? client = some response →
      ∃ result, Makes client request deeds result ∧ response = .ofExcept result

/-- The client that runs a queue goes on with it by these commands, which are answered what was
    found. -/
def GoesOn (client : Nat) (ran : List (Command × Reply)) (deeds : List Deed)
    (before after : Threads) : Prop :=
  ∀ rest replies index, before.task client = .runs rest replies index →
    ∃ left, Runs client (ran.map (·.1)) (own client deeds) (ran.map (·.2)) ∧
      rest = ran.map (·.1) ++ left ∧ after.task client = .runs left (replies ++ ran.map (·.2)) index

/-- What is done to the engine in a step, with what it tells. -/
structure Performs (event : Event) (deeds : List Deed) (before after : Threads) : Prop where
  replays : Replays before.engine deeds after.engine
  answers : ∀ client, AnswersTo client deeds before after
  goesOn : ∀ client, ¬event.IsTurn client →
    GoesOn client (event.ranBy client).toList deeds before after

/-- Any number of steps, with what is done to the engine. -/
inductive Performing (first : Threads) : List Event → List Deed → Threads → Prop
  | done : Performing first [] [] first
  | step {middle after : Threads} {events : List Event} {event : Event} {deeds later : List Deed}
      (h : Performing first events deeds middle) (h' : Tells middle event after)
      (hperforms : Performs event later middle after) :
      Performing first (events ++ [event]) (deeds ++ later) after

section Steps

variable {before after : Threads} {mark : Mark} {event : Event} {deeds : List Deed}
  {client : Nat} {task : Task}

-- A client that is still to be answered is told nothing.
theorem answersTo_of_eq (h : after.task client = before.task client) :
    AnswersTo client deeds before after := by
  intro command index request response htask _ _ _ hresponse
  simp [response?, h, htask] at hresponse

theorem answersTo_of_none (h : after.response? client = none) :
    AnswersTo client deeds before after := by
  intro command index request response _ _ _ _ hresponse
  simp [h] at hresponse

theorem answersTo_of_ne (h : ∀ command index, before.task client ≠ .recorded command index) :
    AnswersTo client deeds before after :=
  fun command index _ _ htask => absurd htask (h command index)

/-- Only one client goes on. -/
theorem answersTo_of_update (hafter : after.task = Function.update before.task client task)
    (h : AnswersTo client deeds before after) (other : Nat) :
    AnswersTo other deeds before after := by
  by_cases hother : other = client
  · rwa [hother]
  · exact answersTo_of_eq (by rw [hafter, Function.update_of_ne hother])

/-- One client acts, or nobody. A client that runs a queue acts only to go on with it. -/
structure ActsAlone (actor : Option Nat) (deeds : List Deed) (before after : Threads) : Prop where
  acts : before.engine.Acts actor deeds after.engine
  answers : ∀ client, AnswersTo client deeds before after
  runs : ∀ client rest replies index, actor = some client →
    before.task client = .runs rest replies index → after.task client ≠ .runs rest replies index

/-- A client acts that runs no queue. -/
theorem ActsAlone.of_client (hafter : after.task = Function.update before.task client task)
    (hacts : before.engine.Acts (some client) deeds after.engine)
    (hanswers : AnswersTo client deeds before after)
    (hruns : ∀ rest replies index, before.task client ≠ .runs rest replies index) :
    ActsAlone (some client) deeds before after := by
  refine ⟨hacts, answersTo_of_update hafter hanswers, ?_⟩
  intro other rest replies index hother hrunning
  obtain rfl := Option.some.inj hother
  exact absurd hrunning (hruns rest replies index)

/-- The engine stays the same. -/
theorem ActsAlone.of_same (hafter : after.task = Function.update before.task client task)
    (hsame : before.engine.Same after.engine) (hanswers : AnswersTo client [] before after) :
    ActsAlone none [] before after :=
  ⟨hsame.acts, answersTo_of_update hafter hanswers, by simp⟩

/-- Nobody goes on. -/
theorem ActsAlone.of_still (htask : after.task = before.task)
    (hacts : before.engine.Acts none deeds after.engine) : ActsAlone none deeds before after :=
  ⟨hacts, fun client => answersTo_of_eq (by rw [htask]), by simp⟩

-- The role changes.
theorem acts_become {engine : Engine} (role : Role) :
    engine.Acts none [⟨none, 0, .become role, .nothing⟩] { engine with role } :=
  ⟨.step rfl (.done (.refl _)), by simp⟩

/-- A step is what one client does to the engine, or nobody. -/
theorem Step.acts (h : Step before mark after) :
    ∃ actor deeds, ActsAlone actor deeds before after := by
  cases h with
  | record command htask =>
      exact ⟨none, [], .of_same rfl (before.engine.same_record command)
        (answersTo_of_none (by simp [response?, go]))⟩
  | @handle client command index dispatch engine session now htask hroute hhandle =>
      rcases before.engine.handle_acts client now hroute with ⟨deeds, hacts, hmakes⟩
      rw [hhandle] at hacts hmakes
      refine ⟨some client, deeds, .of_client rfl hacts ?_ (by simp [htask])⟩
      intro command' index' request response htask' hrequest hplain hclosed hresponse
      rcases Task.recorded.inj (htask.symm.trans htask') with ⟨rfl, rfl⟩
      refine hmakes request response hrequest hplain hclosed ?_
      cases dispatch with
      | answered other => simpa [response?, go, Task.ofDispatch] using hresponse
      | waits pending index => simp [response?, go, Task.ofDispatch] at hresponse
  | @run client command index request result engine now htask hroute hlock hrun =>
      rcases before.engine.run_acts client now request with ⟨deeds, hacts, hmakes⟩
      rw [hrun] at hacts hmakes
      refine ⟨some client, deeds, .of_client rfl hacts ?_ (by simp [htask])⟩
      intro command' index' request' response htask' hrequest _ _ hresponse
      rcases Task.recorded.inj (htask.symm.trans htask') with ⟨rfl, rfl⟩
      obtain rfl := Except.ok.inj ((Engine.route_writes hroute).1.symm.trans hrequest)
      refine ⟨result, hmakes, ?_⟩
      simpa [response?, go, eq_comm] using hresponse
  | fail | release | ask | asked | start =>
      exact ⟨none, [], .of_same rfl (.refl _) (answersTo_of_none (by simp [response?, go]))⟩
  | reply | conclude =>
      exact ⟨none, [], .of_same rfl (before.engine.same_conclude _ _)
        (answersTo_of_none (by simp [response?, go]))⟩
  | forward => exact ⟨none, [], .of_still rfl (Engine.Same.refl _).acts⟩
  | deliver | connect | close =>
      exact ⟨none, [], .of_still rfl (before.engine.same_links _).acts⟩
  | install now htask hroute =>
      exact ⟨none, [], .of_same rfl (before.engine.same_updateMaster _ fun _ => rfl)
        (answersTo_of_none (by simp [response?, go]))⟩
  | deliverAsk htask =>
      exact ⟨none, [], .of_same rfl (before.engine.same_links _)
        (answersTo_of_none (by simp [response?, go]))⟩
  | @poll client pending index now htask =>
      rcases before.engine.poll_acts client now pending.waiting with ⟨deeds, hacts⟩
      exact ⟨some client, deeds, .of_client rfl hacts (answersTo_of_ne (by simp [htask]))
        (by simp [htask])⟩
  | @expire client pending index now htask =>
      rcases before.engine.expire_acts client now pending.waiting with ⟨deeds, hacts⟩
      exact ⟨some client, deeds, .of_client rfl hacts (answersTo_of_ne (by simp [htask]))
        (by simp [htask])⟩
  | @runNext client command rest replies index now htask hlock =>
      rcases Runs.of_runCommand client now before.engine command with
        ⟨deeds, -, hreplays, hclient⟩
      refine ⟨some client, deeds, ⟨hreplays, hclient⟩,
        answersTo_of_update rfl (answersTo_of_ne (by simp [htask])), ?_⟩
      rintro other rest' replies' index' ⟨⟩ hrunning
      rcases Task.runs.inj (htask.symm.trans hrunning) with ⟨rfl, rfl, rfl⟩
      simp [go]
  | finish htask =>
      exact ⟨none, [], .of_same rfl (.refl _) (answersTo_of_ne (by simp [htask]))⟩
  | register hrole hlink hunsending => exact ⟨none, _, .of_still rfl (acts_become _)⟩
  | remove id hunsending =>
      simp only [Engine.updateMaster]
      cases hrole : before.engine.role with
      | master master => exact ⟨none, _, .of_still rfl (acts_become _)⟩
      | replica replica => exact ⟨none, [], .of_still rfl (Engine.Same.refl _).acts⟩

/-- The same of a step that is told, with the command of a queue that is run. -/
theorem Tells.performs (h : Tells before event after) :
    ∃ deeds, Performs event deeds before after := by
  rcases h.step with ⟨mark, hstep⟩
  rcases hstep.acts with ⟨actor, deeds, hacts⟩
  -- What others do is not the client's own, and leaves it where it is.
  have hothers : (∀ client, ¬event.IsTurn client → event.ranBy client = none ∧
      ∀ rest replies index, before.task client = .runs rest replies index →
        after.task client = .runs rest replies index) →
      ∃ deeds, Performs event deeds before after := by
    intro hstays
    refine ⟨deeds, hacts.acts.replays, hacts.answers, ?_⟩
    intro client hturn rest replies index htask
    rcases hstays client hturn with ⟨hran, hstay⟩
    have hafter := hstay rest replies index htask
    have hne : actor ≠ some client := fun heq =>
      hacts.runs client rest replies index heq htask hafter
    refine ⟨rest, ?_, by simp [hran], by simp [hran, hafter]⟩
    rw [own_of_ne hacts.acts.client_eq hne, hran]
    exact .done
  have hmoves : ∀ {client other : Nat} {task : Task}, other ≠ client →
      Function.update before.task other task client = before.task client :=
    fun hother => Function.update_of_ne (Ne.symm hother) ..
  cases h with
  | quiet hstep hsame hruns hstays =>
      exact hothers fun client _ => ⟨rfl, fun _ _ _ => (hruns _ _ _ _).mpr⟩
  | handled now htask hroute hhandle =>
      exact hothers fun client hturn => ⟨rfl, fun _ _ _ => (hmoves hturn).trans⟩
  | began htask hroute =>
      exact hothers fun client hturn => ⟨rfl, fun _ _ _ => (hmoves hturn).trans⟩
  | finished htask =>
      exact hothers fun client hturn => ⟨rfl, fun _ _ _ => (hmoves hturn).trans⟩
  | @ran other command left replies index now htask hlock =>
      rcases Runs.of_runCommand other now before.engine command with
        ⟨deeds, hruns, hreplays, hclient⟩
      refine ⟨deeds, hreplays, answersTo_of_update rfl (answersTo_of_ne (by simp [htask])), ?_⟩
      intro client _ rest' replies' index' htask'
      by_cases hother : other = client
      · subst hother
        rcases Task.runs.inj (htask.symm.trans htask') with ⟨rfl, rfl, rfl⟩
        refine ⟨left, ?_, by simp [Event.ranBy], by simp [Event.ranBy, go]⟩
        simpa [Event.ranBy, own_of_client hclient] using hruns
      · refine ⟨rest', ?_, by simp [Event.ranBy, hother], ?_⟩
        · rw [own_of_ne hclient fun heq => hother (Option.some.inj heq)]
          simpa [Event.ranBy, hother] using Runs.done
        · simpa [Event.ranBy, hother, go] using (hmoves hother).trans htask'

end Steps

section Runs

variable {first last opened ended middle : Threads} {client : Nat} {events : List Event}
  {deeds later : List Deed} {ran more : List (Command × Reply)}

/-- Everything that is done in a run is a list of deeds. -/
theorem Telling.performing (h : Telling first events last) :
    ∃ deeds, Performing first events deeds last := by
  induction h with
  | done => exact ⟨[], .done⟩
  | step _ hstep ih =>
      rcases ih with ⟨deeds, hperforming⟩
      rcases hstep.performs with ⟨later, hperforms⟩
      exact ⟨deeds ++ later, hperforming.step hstep hperforms⟩

theorem Performing.replays (h : Performing first events deeds last) :
    Replays first.engine deeds last.engine := by
  induction h with
  | done => exact .done (.refl _)
  | step _ _ hperforms ih => exact ih.append hperforms.replays

theorem GoesOn.trans (h : GoesOn client ran deeds first middle)
    (h' : GoesOn client more later middle last) :
    GoesOn client (ran ++ more) (deeds ++ later) first last := by
  intro rest replies index htask
  rcases h rest replies index htask with ⟨left, hruns, hrest, hmiddle⟩
  rcases h' _ _ _ hmiddle with ⟨left', hruns', hleft, hlast⟩
  refine ⟨left', ?_, ?_, ?_⟩
  · rw [own_append, List.map_append, List.map_append]
    exact hruns.append hruns'
  · rw [List.map_append, List.append_assoc, hrest, hleft]
  · rw [List.map_append, ← List.append_assoc]
    exact hlast

/-- A client that runs a queue goes on with it, whatever others do in between. -/
theorem Performing.goesOn (h : Performing first events deeds last)
    (hturns : ∀ event ∈ events, ¬event.IsTurn client) :
    GoesOn client (ranIn client events) deeds first last := by
  induction h with
  | done =>
      intro rest replies index htask
      exact ⟨rest, .done, rfl, by simpa [ranIn] using htask⟩
  | step _ _ hperforms ih =>
      rw [ranIn_concat]
      exact (ih fun other hother => hturns other (List.mem_append_left _ hother)).trans
        (hperforms.goesOn client (hturns _ (by simp)))

/-- A client that runs a queue from its start to its end does what the queue does, whatever others
    do before, in between and after. -/
theorem Telling.interleaves {queue : List Command} {replies : List Reply}
    {early during late : List Event}
    (h : Telling first
      (early ++ .began client queue :: (during ++ .finished client replies :: late)) last)
    (hturns : ∀ event ∈ during, ¬event.IsTurn client) :
    ∃ opened ended before between after,
      Performing first (early ++ [.began client queue]) before opened ∧
      Performing opened during between ended ∧
      Performing ended (.finished client replies :: late) after last ∧
      Interleaving client queue replies first.engine before between after last.engine := by
  rcases h.split with ⟨unopened, opened, hearly, hbegan, hrest⟩
  rcases hrest.split with ⟨ended, finished, hduring, hfinished, hlate⟩
  rcases (hearly.step hbegan).performing with ⟨before, hbefore⟩
  rcases hduring.performing with ⟨between, hbetween⟩
  rcases ((Telling.step .done hfinished).append hlate).performing with ⟨after, hafter⟩
  refine ⟨opened, ended, before, between, after, hbefore, hbetween, hafter,
    (hbefore.replays.append hbetween.replays).append hafter.replays, ?_⟩
  cases hbegan with
  | began htask hroute =>
      rcases hbetween.goesOn hturns queue [] _ (go_task ..) with ⟨left, hruns, hqueue, hended⟩
      cases hfinished with
      | finished hfinished =>
          rcases Task.runs.inj (hended.symm.trans hfinished) with ⟨rfl, rfl, -⟩
          rw [List.append_nil] at hqueue
          rwa [← hqueue] at hruns

end Runs

/-- A transaction is as good as run as a whole if nobody comes across it. -/
theorem isolates_queues :
    (∀ (client : Nat) (queue : List Command) (replies : List Reply) (first last : Threads)
      (early during late : List Event),
      Telling first (early ++ .began client queue :: (during ++ .finished client replies :: late))
        last →
      (∀ event ∈ during, ¬event.IsTurn client) →
      ∃ opened ended before between after,
        Performing first (early ++ [.began client queue]) before opened ∧
        Performing opened during between ended ∧
        Performing ended (.finished client replies :: late) after last ∧
        Interleaving client queue replies first.engine before between after last.engine) ∧
    ∀ (client : Nat) (queue : List Command) (replies : List Reply) (first last : Engine)
      (early during late : List Deed),
      Interleaving client queue replies first early during late last → KeepsOff client during →
      Isolated client queue replies first early during late last :=
  ⟨fun _ _ _ _ _ _ _ _ htelling hturns => htelling.interleaves hturns,
    fun _ _ _ _ _ _ _ _ hinterleaving hoff => hinterleaving.isolated hoff⟩

/-- One client reads a key twice in a transaction, and another writes a different key in between. -/
theorem isolates_queues_of_apart :
    let get := Command.ofParts .get ["k"]
    let engine := (start {} .missing "id").engine
    let reads : UInt64 → Deed := fun now =>
      ⟨some 0, now, .run (.get "k") (by simp), .reply (.ok .null)⟩
    let writes : Deed := ⟨some 1, 8, .run (.set "j" "1" []) (by simp), .reply (.ok .ok)⟩
    let during : List Event := [.ran 0 get .null, .quiet, .quiet, .ran 0 get .null]
    (∃ first last opened ended before between after, first.engine = engine ∧
      Telling first (.began 0 [get, get] :: (during ++ [.finished 0 [.null, .null]])) last ∧
      Performing first [.began 0 [get, get]] before opened ∧
      Performing opened during between ended ∧
      Performing ended [.finished 0 [.null, .null]] after last ∧
      Interleaving 0 [get, get] [.null, .null] engine before between after last.engine) ∧
    ∃ last, Interleaving 0 [get, get] [.null, .null] engine [] [reads 7, writes, reads 9] [] last ∧
      KeepsOff 0 [reads 7, writes, reads 9] ∧
      Isolated 0 [get, get] [.null, .null] engine [] [reads 7, writes, reads 9] [] last := by
  intro get engine reads writes during
  let set := Command.ofParts .set ["j", "1"]
  let first : Threads :=
    { engine
      session := Function.update (fun _ => {}) 0 { transaction := .opened [get, get] }
      task := Function.update (fun _ => .idle) 0 (.recorded (Command.ofParts .exec []) none) }
  have htelling := ((((((@Telling.done first).step (@Tells.began _ 0 _ _ _ rfl rfl)).step
    (@Tells.ran _ 0 get _ _ _ 7 rfl fun _ => rfl)).step (@Tells.record _ 1 set rfl)).step
    (@Tells.run _ 1 set _ _ _ _ 8 rfl rfl rfl rfl)).step
    (@Tells.ran _ 0 get _ _ _ 9 rfl fun hkind => absurd hkind (by decide))).step
    (@Tells.finished _ 0 _ _ rfl)
  rcases isolates_queues.1 0 [get, get] [.null, .null] first _ [] during [] htelling
      (by simp [during, Event.IsTurn]) with
    ⟨opened, ended, before, between, after, hplayed⟩
  refine ⟨⟨first, _, opened, ended, before, between, after, rfl, htelling, hplayed⟩, ?_⟩
  have hruns : Runs 0 [get, get] (own 0 [reads 7, writes, reads 9]) [.null, .null] :=
    .step rfl (.whole 7 _ (.ok .null)) (.step rfl (.whole 9 _ (.ok .null)) .done)
  obtain ⟨last, hreplays⟩ : ∃ last, Replays engine [reads 7, writes, reads 9] last :=
    ⟨_, .step rfl (.step rfl (.step rfl (.done (.refl _))))⟩
  have hoff : KeepsOff 0 [reads 7, writes, reads 9] := by
    intro deed hdeed other hother place hreads hwrites
    have hplace : place = .key "k" := by
      simp only [own, reads, writes, List.mem_filter, List.mem_cons, List.not_mem_nil] at hdeed
      rcases hdeed with ⟨rfl | rfl | rfl | hnone, hclient⟩
      · exact hreads
      · simp at hclient
      · exact hreads
      · exact hnone.elim
    have hplace' : place = .key "j" := by
      simp only [others, reads, writes, List.mem_filter, List.mem_cons, List.not_mem_nil] at hother
      rcases hother with ⟨rfl | rfl | rfl | hnone, hclient⟩
      · simp at hclient
      · exact hwrites
      · simp at hclient
      · exact hnone.elim
    exact absurd (hplace.symm.trans hplace') (by decide)
  have hinterleaving : Interleaving 0 [get, get] [.null, .null] engine [] [reads 7, writes, reads 9]
      [] last := ⟨hreplays, hruns⟩
  exact ⟨last, hinterleaving, hoff, isolates_queues.2 _ _ _ _ _ _ _ _ hinterleaving hoff⟩

/-- One client reads a key twice in a transaction, and another writes it in between. If the two reads
    came directly after each other, before the write or after it, the first client would be answered
    something else. -/
theorem interferes :
    let get := Command.ofParts .get ["k"]
    let set := Command.ofParts .set ["k", "10"]
    let replies : List Reply := [.null, .bulkText "10"]
    let runs : Engine → UInt64 → UInt64 → List Reply := fun engine now later =>
      [(engine.runCommand now get).1, ((engine.runCommand now get).2.runCommand later get).1]
    ∃ queued last : Threads, Leads (start {} .missing "id") queued ∧
      queued.session 0 = { transaction := .opened [get, get] } ∧ queued.session 1 = {} ∧
      queued.task 0 = .idle ∧ queued.task 1 = .idle ∧ Leads queued last ∧
      (∃ index, last.task 0 = .handled index (.reply (.array replies))) ∧
      (∃ index, last.task 1 = .wrote set index (.reply .ok)) ∧
      ∀ now later latest, runs queued.engine now later ≠ replies ∧
        runs (queued.engine.dispatch (queued.session 1) now set).2.1 later latest ≠ replies := by
  intro get set replies runs
  let multi := Command.ofParts .multi []
  let exec := Command.ofParts .exec []
  have hmulti := (((Leads.refl (start {} .missing "id")).next (@Step.record _ 0 multi rfl)).next
    (@Step.handle _ 0 multi _ _ _ _ 7 rfl rfl rfl)).next (@Step.conclude _ 0 _ _ rfl)
  have hfirst := ((hmulti.next (@Step.record _ 0 get rfl)).next
    (@Step.handle _ 0 get _ _ _ _ 7 rfl rfl rfl)).next (@Step.conclude _ 0 _ _ rfl)
  have hqueued := ((hfirst.next (@Step.record _ 0 get rfl)).next
    (@Step.handle _ 0 get _ _ _ _ 7 rfl rfl rfl)).next (@Step.conclude _ 0 _ _ rfl)
  refine ⟨_, _, hqueued, rfl, rfl, rfl, rfl, ((((((((((Leads.refl _).next
    (@Step.record _ 0 exec rfl)).next (@Step.start _ 0 exec _ _ rfl rfl)).next
    (@Step.runNext _ 0 get _ _ _ 7 rfl fun _ => rfl)).next (@Step.record _ 1 set rfl)).next
    (@Step.run _ 1 set _ _ _ _ 7 rfl rfl rfl rfl)).next (@Step.forward _ _ _ rfl rfl)).next
    (@Step.release _ _ rfl)).next (@Step.runNext _ 0 get _ _ _ 7 rfl fun _ => rfl)).next
    (@Step.finish _ 0 _ _ rfl)), ⟨some 3, rfl⟩, ⟨some 4, rfl⟩, ?orders⟩
  case orders =>
    refine fun now later latest => ⟨fun hfirst => ?_, fun hlast => ?_⟩
    · have hnulls := (rfl : [Reply.null, Reply.null] = _).trans hfirst
      simp [replies, Reply.bulkText] at hnulls
    · have htens := (rfl : [Reply.bulkText "10", Reply.bulkText "10"] = _).trans hlast
      simp [replies, Reply.bulkText] at htens

end Threads

end KeyValue
