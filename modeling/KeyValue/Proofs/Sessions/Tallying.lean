import KeyValue.Proofs.Sessions.Quorum

/-!
# Books of what clients that wait have done

What is seen of a run of `Quorum` decides what the state of the master is: how long the history is
and what is in it, and how many acknowledgements have counted for each of its entries (`Tallies`). It
also decides how far each client can be with its command (`Follows`), and what it can be told in the
end (`Told`).

The invariant rests on places in the history. What a request to wait waits for is the entry right
before its own, and no two commands share a place. So at most one client ever takes the place for a
given entry, and takes it once. Before it does, nothing has counted for the entry, since
acknowledgements count only for what somebody waits for (`Counts.tally_of_fresh`). In the same way an
acknowledgement counts at most once (`Spent`).

## Main definitions

* `Mark.spends?`, `Mark.countsAt?`, `Mark.waits?`: What a mark says of the command that leaves it.
* `tally`: The acknowledgements that counted for an entry.
* `Fresh`: The command has not taken the place for a waiting client, and has not counted.
* `Recorded`, `Counts`, `Spent`, `Tallies`: What is seen, and the state of the master.
* `Engaged`, `Told`, `Follows`: What is seen, and where a client is.
* `Orderly`: The invariant of a run.

## Theorems

* `Tallies.append`, `Tallies.record`, `Tallies.install`, `Tallies.acknowledge`: What a change of the
  master leaves in the books.
* `Tallies.told`: What a command is told that is handled at once.
* `Step.orderly`, `Run.orderly`: Each step keeps the invariant, and each run.
-/

namespace KeyValue

namespace Quorum

namespace Mark

def isRecorded : Mark → Bool
  | recorded _ _ => true
  | _ => false

/-- The place in the history of a command that leaves its mark once: a request to wait that takes the
    place for a waiting client, or an acknowledgement that counts. -/
def spends? : Mark → Option Nat
  | took _ target => some (target + 1)
  | acknowledged _ errand _ _ => some errand.index
  | _ => none

/-- The place of an acknowledgement that counts at the target, with the id of its replica. -/
def countsAt? (target : Nat) : Mark → Option (Nat × Nat)
  | acknowledged _ errand id place => if place = target then some (errand.index, id) else none
  | _ => none

/-- The client and the target of a mark that a client leaves when it has taken the place. -/
def waits? : Mark → Option (Nat × Nat)
  | asks client target _ => some (client, target)
  | asked client target _ => some (client, target)
  | counted client target _ => some (client, target)
  | _ => none

/-- A client that was seen to take the place may leave marks that need it. -/
theorem waits_of_took {log : List Mark} {mark : Mark} {client target : Nat}
    (htook : .took client target ∈ log) (h : mark.waits? = some (client, target)) :
    ∀ other place, mark.waits? = some (other, place) → .took other place ∈ log := by
  intro other place hwaits
  rcases Prod.mk.inj (Option.some.inj (h.symm.trans hwaits)) with ⟨rfl, rfl⟩
  exact htook

/-- A mark that spends no command counts no acknowledgement. -/
theorem countsAt?_eq_none {mark : Mark} (h : mark.spends? = none) (target : Nat) :
    mark.countsAt? target = none := by
  cases mark <;> first
    | rfl
    | simp only [spends?, reduceCtorEq] at h

end Mark

/-- The acknowledgements that counted at the target: the place of each in the history, and the id of
    its replica. -/
def tally (log : List Mark) (target : Nat) : List (Nat × Nat) := log.filterMap (·.countsAt? target)

/-- The command at the place has not taken the place for a waiting client, and has not counted. -/
def Fresh (log : List Mark) (index : Nat) : Prop := index ∉ log.filterMap Mark.spends?

/-- The history is what was seen to be recorded. -/
structure Recorded (log : List Mark) (history : History) : Prop where
  size : history.size = log.countP Mark.isRecorded
  all : ∀ index < history.size, ∃ client command, .recorded client ⟨command, index⟩ ∈ log
  kind : ∀ client errand, .recorded client errand ∈ log →
    history.kind? errand.index = some errand.command.name.kind

/-- What was counted is what was seen to count, for clients that were seen to take the place. -/
structure Counts (log : List Mark) (master : Master) : Prop where
  acks : ∀ target, master.history.ackCount target = (tally log target).length
  placed : ∀ waiter, master.waiter = some waiter → ∃ client, .took client waiter.target ∈ log
  served : ∀ target, tally log target ≠ [] → ∃ client, .took client target ∈ log

/-- Only recorded commands take the place or count, and each of them once. -/
structure Spent (log : List Mark) (size : Nat) : Prop where
  lt : ∀ index ∈ log.filterMap Mark.spends?, index < size
  once : (log.filterMap Mark.spends?).Nodup

/-- The state of the master is what was seen. -/
structure Tallies (log : List Mark) (master : Master) : Prop where
  history : Recorded log master.history
  counts : Counts log master
  spent : Spent log master.history.size
  /-- Clients ask and count when they have taken the place. -/
  waits : ∀ client target, some (client, target) ∈ log.map Mark.waits? → .took client target ∈ log

/-- A client has taken the place, and has asked the replicas up to those that are left. -/
structure Engaged (log : List Mark) (client : Nat) (errand : Errand) (wait : AckWait)
    (left : List Peer) : Prop where
  recorded : .recorded client errand ∈ log
  index : errand.index = wait.target + 1
  took : .took client wait.target ∈ log
  asked : ∃ peers, .asks client wait.target peers ∈ log ∧
    ∀ peer ∈ peers, peer ∈ left ∨ .asked client wait.target peer ∈ log

/-- What a client is told agrees with what was seen. -/
structure Told (log : List Mark) (client : Nat) (errand : Errand) (response : Response) :
    Prop where
  /-- A client that took the place is told the count that it was seen to take. -/
  waited : ∀ target, errand.index = target + 1 → .took client target ∈ log →
    ∃ acks, response = .reply (Engine.countReply acks) ∧ .counted client target acks ∈ log
  /-- One that waits for a write without taking the place is told of no acknowledgement. -/
  atOnce : errand.command.name = .wait → ∀ number, response = .reply (.integer number) →
    ∀ target, errand.index = target + 1 → .took client target ∉ log →
      (∀ other write, .recorded other ⟨write, target⟩ ∈ log → write.name.kind = .write) →
      Reply.integer number = Engine.countReply 0

/-- Where a client is agrees with what was seen. -/
def Follows (log : List Mark) (client : Nat) : Stage → Prop
  | .idle => True
  | .recorded errand => .recorded client errand ∈ log ∧ Fresh log errand.index
  | .aims errand wait => .recorded client errand ∈ log ∧ Fresh log errand.index ∧
      errand.index = wait.target + 1
  | .installed errand wait => .recorded client errand ∈ log ∧ errand.index = wait.target + 1 ∧
      .took client wait.target ∈ log
  | .asks errand wait left => Engaged log client errand wait left
  | .waits errand wait => Engaged log client errand wait []
  | .woken errand wait _ => Engaged log client errand wait []
  | .counted errand wait acks => Engaged log client errand wait [] ∧
      .counted client wait.target acks ∈ log
  | .heard errand id => .recorded client errand ∈ log ∧ Fresh log errand.index ∧
      .heard client errand id ∈ log
  | .reads errand _ _ _ => .recorded client errand ∈ log ∧ Fresh log errand.index ∧
      errand.command.name ≠ .wait
  | .handled errand response => .recorded client errand ∈ log ∧ Told log client errand response

/-- The state of the master and where the clients are agree with what was seen. -/
structure Orderly (log : List Mark) (state : Quorum) : Prop where
  master : ∃ master, state.engine.role = .master master ∧ Tallies log master
  stage : ∀ client, Follows log client (state.stage client)
  /-- No two clients are with the same command. -/
  apart : ∀ client other errand errand', (state.stage client).errand? = some errand →
    (state.stage other).errand? = some errand' → errand.index = errand'.index → client = other

section Log

variable {log : List Mark} {mark : Mark} {client : Nat} {errand : Errand} {wait : AckWait}
  {response : Response} {stage : Stage} {master after : Master}

/-- What counts over a longer time is what counts early and what counts late. -/
theorem tally_append (log later : List Mark) (target : Nat) :
    tally (log ++ later) target = tally log target ++ tally later target :=
  List.filterMap_append

/-- A command is fresh as long as it is not the one that a mark spends. -/
theorem Fresh.append {index : Nat} (h : Fresh log index) (hmark : mark.spends? ≠ some index) :
    Fresh (log ++ [mark]) index := by
  unfold Fresh at h ⊢
  rw [List.filterMap_append, List.mem_append, not_or]
  refine ⟨h, ?_⟩
  simpa [List.mem_filterMap] using hmark

/-- A target that is waited for by no command so far was taken by nobody. -/
theorem Fresh.not_took {target : Nat} (h : Fresh log (target + 1)) (taker : Nat) :
    .took taker target ∉ log :=
  fun hmem => h (List.mem_filterMap.mpr ⟨_, hmem, rfl⟩)

/-- What a client was seen to ask stays seen. -/
theorem Engaged.append {left : List Peer} (h : Engaged log client errand wait left) :
    Engaged (log ++ [mark]) client errand wait left := by
  have hmem : ∀ {seen}, seen ∈ log → seen ∈ log ++ [mark] := List.mem_append_left _
  rcases h.asked with ⟨peers, hasks, hasked⟩
  exact ⟨hmem h.recorded, h.index, hmem h.took, peers, hmem hasks,
    fun peer hpeer => (hasked peer hpeer).imp id hmem⟩

-- When no replica is left, all were asked.
theorem Engaged.all_asked (h : Engaged log client errand wait []) :
    ∃ peers, .asks client wait.target peers ∈ log ∧
      ∀ peer ∈ peers, .asked client wait.target peer ∈ log := by
  rcases h.asked with ⟨peers, hasks, hasked⟩
  exact ⟨peers, hasks, fun peer hpeer => (hasked peer hpeer).resolve_left List.not_mem_nil⟩

/-- What a client was told goes on to agree with what is seen, unless its own command counts after
    all. -/
theorem Told.append (h : Told log client errand response)
    (hmark : mark.spends? ≠ some errand.index) : Told (log ++ [mark]) client errand response := by
  refine ⟨?_, ?_⟩
  · intro target hindex htook
    rcases List.mem_append.mp htook with hold | hnew
    · rcases h.waited target hindex hold with ⟨acks, hacks, hcounted⟩
      exact ⟨acks, hacks, List.mem_append_left _ hcounted⟩
    · rw [← List.mem_singleton.mp hnew, hindex] at hmark
      exact absurd rfl hmark
  · intro hname number hresponse target hindex htook hwrites
    exact h.atOnce hname number hresponse target hindex
      (fun hold => htook (List.mem_append_left _ hold))
      fun other write hold => hwrites other write (List.mem_append_left _ hold)

/-- Wherever a client is with a command, the command was seen to be recorded. -/
theorem Follows.recorded (h : Follows log client stage) (herrand : stage.errand? = some errand) :
    .recorded client errand ∈ log := by
  cases stage <;> simp only [Stage.errand?, Option.some.injEq, reduceCtorEq] at herrand <;>
    subst herrand <;> first
      | exact h.1
      | exact h.recorded
      | exact h.1.recorded

/-- What is seen of other commands leaves a client where it is. -/
theorem Follows.append (h : Follows log client stage)
    (hmark : ∀ errand, stage.errand? = some errand → mark.spends? ≠ some errand.index) :
    Follows (log ++ [mark]) client stage := by
  have hmem : ∀ {seen}, seen ∈ log → seen ∈ log ++ [mark] := List.mem_append_left _
  cases stage with
  | idle => trivial
  | recorded errand => exact ⟨hmem h.1, h.2.append (hmark errand rfl)⟩
  | aims errand wait => exact ⟨hmem h.1, h.2.1.append (hmark errand rfl), h.2.2⟩
  | installed errand wait => exact ⟨hmem h.1, h.2.1, hmem h.2.2⟩
  | asks errand wait left => exact Engaged.append h
  | waits errand wait => exact Engaged.append h
  | woken errand wait lost => exact Engaged.append h
  | counted errand wait acks => exact ⟨h.1.append, hmem h.2⟩
  | heard errand id => exact ⟨hmem h.1, h.2.1.append (hmark errand rfl), hmem h.2.2⟩
  | reads errand reader cursors count =>
      exact ⟨hmem h.1, h.2.1.append (hmark errand rfl), h.2.2⟩
  | handled errand response => exact ⟨hmem h.1, h.2.append (hmark errand rfl)⟩

namespace Recorded

variable {history history' : History}

/-- A command that was seen to be recorded has a place in the history. -/
theorem lt_size (h : Recorded log history) (hrecorded : .recorded client errand ∈ log) :
    errand.index < history.size :=
  history.lt_size_of_kind? _ (h.kind client errand hrecorded)

/-- A mark that records nothing goes with a history in which no command comes, and none changes its
    kind. -/
theorem append (h : Recorded log history) (hmark : mark.isRecorded = false)
    (hsize : history'.size = history.size)
    (hkind : ∀ index, history'.kind? index = history.kind? index) :
    Recorded (log ++ [mark]) history' := by
  refine ⟨?_, ?_, ?_⟩
  · rw [hsize, h.size]
    simp [hmark]
  · intro index hindex
    rw [hsize] at hindex
    rcases h.all index hindex with ⟨client, command, hmem⟩
    exact ⟨client, command, List.mem_append_left _ hmem⟩
  · intro client errand hmem
    rw [hkind]
    rcases List.mem_append.mp hmem with hold | hnew
    · exact h.kind client errand hold
    · rw [← List.mem_singleton.mp hnew] at hmark
      simp [Mark.isRecorded] at hmark

/-- A command that is recorded gets the next place. -/
theorem record (h : Recorded log history) (client : Nat) (command : Command) :
    Recorded (log ++ [.recorded client ⟨command, history.size⟩])
      (history.append command.name command.name.kind command.args).2 := by
  refine ⟨?_, ?_, ?_⟩
  · rw [History.size_append, h.size]
    simp [Mark.isRecorded]
  · intro index hindex
    rw [History.size_append] at hindex
    rcases Nat.lt_succ_iff_lt_or_eq.mp hindex with hold | rfl
    · rcases h.all index hold with ⟨client, command, hmem⟩
      exact ⟨client, command, List.mem_append_left _ hmem⟩
    · exact ⟨client, command, by simp⟩
  · intro other errand hmem
    rcases List.mem_append.mp hmem with hold | hnew
    · rw [History.kind?_append_of_lt _ _ _ _ (h.lt_size hold)]
      exact h.kind other errand hold
    · rcases Mark.recorded.inj (List.mem_singleton.mp hnew) with ⟨rfl, rfl⟩
      exact History.kind?_append_size _ _ _ _

end Recorded

namespace Counts

/-- A mark that counts nothing goes with a master that counts nothing, and that gives the place only
    to a client that was seen to take it. -/
theorem append (h : Counts log master) (hmark : ∀ target, mark.countsAt? target = none)
    (hacks : ∀ target, after.history.ackCount target = master.history.ackCount target)
    (hplaced : ∀ waiter, after.waiter = some waiter →
      ∃ client, .took client waiter.target ∈ log ++ [mark]) :
    Counts (log ++ [mark]) after := by
  have htally : ∀ target, tally (log ++ [mark]) target = tally log target := by
    intro target
    rw [tally_append]
    simp [tally, hmark]
  refine ⟨fun target => by rw [hacks, htally, h.acks], hplaced, ?_⟩
  intro target hne
  rw [htally] at hne
  rcases h.served target hne with ⟨client, htook⟩
  exact ⟨client, List.mem_append_left _ htook⟩

/-- An acknowledgement counts for the command that is waited for. -/
theorem acknowledge (h : Counts log master) (client id : Nat) (errand : Errand)
    {waiter : AckWaiter} (hwaiter : master.waiter = some waiter)
    (hplace : waiter.target < master.history.size) :
    Counts (log ++ [.acknowledged client errand id waiter.target]) master.countAck := by
  rcases waiter with ⟨place, signals⟩
  rcases h.placed _ hwaiter with ⟨taker, htook⟩
  have htook : .took taker place ∈ log ++ [.acknowledged client errand id place] :=
    List.mem_append_left _ htook
  simp only [Master.countAck, hwaiter]
  refine ⟨?_, ?_, ?_⟩
  · intro target
    rw [History.ackCount_recordAck _ _ _ hplace, h.acks, tally_append, List.length_append]
    by_cases heq : place = target <;> simp [tally, Mark.countsAt?, heq]
  · intro waiter hnew
    rw [← Option.some.inj hnew]
    exact ⟨taker, htook⟩
  · intro target hne
    by_cases heq : place = target
    · exact ⟨taker, heq ▸ htook⟩
    · rw [tally_append] at hne
      rcases h.served target (by simpa [tally, Mark.countsAt?, heq] using hne) with ⟨other, hother⟩
      exact ⟨other, List.mem_append_left _ hother⟩

-- What waits for the target is the command right after it, so nobody has waited for it yet.
theorem tally_of_fresh (h : Counts log master) {target : Nat} (hfresh : Fresh log (target + 1)) :
    tally log target = [] := by
  by_contra hne
  rcases h.served target hne with ⟨taker, htook⟩
  exact hfresh.not_took taker htook

/-- What nobody has waited for has no acknowledgements. -/
theorem ackCount_of_fresh (h : Counts log master) {target : Nat}
    (hfresh : Fresh log (target + 1)) : master.history.ackCount target = 0 := by
  rw [h.acks, h.tally_of_fresh hfresh]
  rfl

end Counts

namespace Spent

variable {size size' index : Nat}

/-- A mark that spends nothing leaves every command as it was. -/
theorem append (h : Spent log size) (hmark : mark.spends? = none) (hsize : size ≤ size') :
    Spent (log ++ [mark]) size' := by
  have hsame : (log ++ [mark]).filterMap Mark.spends? = log.filterMap Mark.spends? := by
    simp [List.filterMap_append, hmark]
  refine ⟨?_, ?_⟩ <;> rw [hsame]
  · exact fun index hindex => Nat.lt_of_lt_of_le (h.lt index hindex) hsize
  · exact h.once

/-- A command that is fresh and recorded can be spent. -/
theorem spend (h : Spent log size) (hmark : mark.spends? = some index) (hfresh : Fresh log index)
    (hindex : index < size) : Spent (log ++ [mark]) size := by
  have hone : (log ++ [mark]).filterMap Mark.spends? = log.filterMap Mark.spends? ++ [index] := by
    simp [List.filterMap_append, hmark]
  refine ⟨?_, ?_⟩ <;> rw [hone]
  · intro place hplace
    rcases List.mem_append.mp hplace with hold | hnew
    · exact h.lt place hold
    · rw [List.mem_singleton.mp hnew]
      exact hindex
  · refine List.nodup_append.mpr ⟨h.once, by simp, ?_⟩
    rintro place hold other hnew rfl
    rw [List.mem_singleton.mp hnew] at hold
    exact hfresh hold

end Spent

namespace Tallies

/-- A mark that needs the place is left by a client that has taken it. -/
theorem waits_append (h : Tallies log master)
    (hmark : ∀ client target, mark.waits? = some (client, target) → .took client target ∈ log) :
    ∀ client target, some (client, target) ∈ (log ++ [mark]).map Mark.waits? →
      .took client target ∈ log ++ [mark] := by
  intro client target hwaits
  rw [List.map_append, List.mem_append] at hwaits
  refine List.mem_append_left _ ?_
  rcases hwaits with hold | hnew
  · exact h.waits client target hold
  · exact hmark client target (List.mem_singleton.mp hnew).symm

/-- What neither records nor counts leaves the books as they are. -/
theorem append (h : Tallies log master) (hkeeps : master.Keeps after)
    (hrecorded : mark.isRecorded = false) (hspends : mark.spends? = none)
    (hwaits : ∀ client target, mark.waits? = some (client, target) → .took client target ∈ log) :
    Tallies (log ++ [mark]) after := by
  refine ⟨h.history.append hrecorded hkeeps.size hkeeps.kind,
    h.counts.append (Mark.countsAt?_eq_none hspends) hkeeps.acks ?_,
    h.spent.append hspends (Nat.le_of_eq hkeeps.size.symm), h.waits_append hwaits⟩
  intro waiter hwaiter
  rcases hkeeps.placed waiter hwaiter with ⟨old, hold, htarget⟩
  rcases h.counts.placed old hold with ⟨client, htook⟩
  exact ⟨client, List.mem_append_left _ (htarget ▸ htook)⟩

/-- Recording a command touches neither the place nor the counts. -/
theorem record (h : Tallies log master) (client : Nat) (command : Command) :
    Tallies (log ++ [.recorded client ⟨command, master.history.size⟩])
      { master with
        history := (master.history.append command.name command.name.kind command.args).2 } := by
  refine ⟨h.history.record client command,
    h.counts.append (fun _ => rfl) (History.ackCount_append _ _ _ _) ?_,
    h.spent.append rfl (by rw [History.size_append]; omega), h.waits_append (by simp [Mark.waits?])⟩
  intro waiter hwaiter
  rcases h.counts.placed waiter hwaiter with ⟨client, htook⟩
  exact ⟨client, List.mem_append_left _ htook⟩

/-- A client that takes the place spends its command. -/
theorem install (h : Tallies log master) (client : Nat) (hfresh : Fresh log (wait.target + 1))
    (hindex : wait.target + 1 < master.history.size) :
    Tallies (log ++ [.took client wait.target]) (master.install wait) := by
  refine ⟨h.history.append rfl rfl fun _ => rfl, h.counts.append (fun _ => rfl) (fun _ => rfl) ?_,
    h.spent.spend rfl hfresh hindex, h.waits_append (by simp [Mark.waits?])⟩
  intro waiter hwaiter
  rw [← Option.some.inj hwaiter]
  exact ⟨client, List.mem_append_right _ List.mem_cons_self⟩

/-- An acknowledgement spends its command, and adds to the count of the one that is waited for. -/
theorem acknowledge (h : Tallies log master) (client id : Nat) {waiter : AckWaiter}
    (hwaiter : master.waiter = some waiter) (hfresh : Fresh log errand.index)
    (hindex : errand.index < master.history.size) :
    Tallies (log ++ [.acknowledged client errand id waiter.target]) master.countAck := by
  rcases h.counts.placed waiter hwaiter with ⟨taker, htook⟩
  have hplace := h.spent.lt _ (List.mem_filterMap.mpr ⟨_, htook, rfl⟩)
  have hcounts := h.counts.acknowledge client id errand hwaiter (Nat.lt_of_succ_lt hplace)
  have hsize : master.countAck.history.size = master.history.size := by
    simp only [Master.countAck, hwaiter, History.size_recordAck]
  have hkind : ∀ index, master.countAck.history.kind? index = master.history.kind? index := by
    simp only [Master.countAck, hwaiter, History.kind?_recordAck, implies_true]
  refine ⟨h.history.append rfl hsize hkind, hcounts, ?_, h.waits_append (by simp [Mark.waits?])⟩
  rw [hsize]
  exact h.spent.spend rfl hfresh hindex

end Tallies

end Log

/-- No command is recorded and no acknowledgement counts, and nobody takes the place for a waiting
    client. -/
def Kept (before after : Engine) : Prop :=
  ∀ master, before.role = .master master → ∃ master', after.role = .master master' ∧
    master.Keeps master'

/-- What leaves the role leaves the books. -/
theorem kept_of_role {before after : Engine} (h : after.role = before.role) : Kept before after :=
  fun master hrole => ⟨master, h.trans hrole, .refl master⟩

/-- The state of a master may change where the books do not look. -/
theorem kept_updateMaster (engine : Engine) (update : Master → Master)
    (h : ∀ master, Master.Keeps master (update master)) :
    Kept engine (engine.updateMaster update) := by
  intro master hrole
  refine ⟨update master, ?_, h master⟩
  simp only [Engine.updateMaster, hrole]

namespace Orderly

variable {log : List Mark} {mark : Mark} {state : Quorum} {client : Nat} {errand : Errand}
  {stage : Stage} {after : Engine}

/-- A client that goes on with its command leaves the others where they are. -/
theorem go (h : Orderly log state) (session : Nat → Session)
    (hold : (state.stage client).errand? = some errand)
    (hnew : ∀ other ∈ stage.errand?, other = errand)
    (hmark : ∀ index ∈ mark.spends?, index = errand.index)
    (hmaster : ∃ master, after.role = .master master ∧ Tallies (log ++ [mark]) master)
    (hstage : Follows (log ++ [mark]) client stage) :
    Orderly (log ++ [mark]) ({ state with session }.go client after stage) := by
  have hothers : ∀ other, other ≠ client →
      ({ state with session }.go client after stage).stage other = state.stage other :=
    fun other hne => Function.update_of_ne hne ..
  have hself : ({ state with session }.go client after stage).stage client = stage :=
    Function.update_self ..
  -- A client has the command that it had, or none.
  have hkept : ∀ other errand',
      (({ state with session }.go client after stage).stage other).errand? = some errand' →
        (state.stage other).errand? = some errand' := by
    intro other errand' herrand
    by_cases heq : other = client
    · subst heq
      rw [hself] at herrand
      rw [hnew errand' herrand]
      exact hold
    · rwa [hothers other heq] at herrand
  refine ⟨hmaster, ?_, ?_⟩
  · intro other
    by_cases heq : other = client
    · subst heq
      rw [hself]
      exact hstage
    · rw [hothers other heq]
      refine (h.stage other).append fun errand' herrand hspends => heq ?_
      exact h.apart other client errand' errand herrand hold (hmark _ hspends)
  · intro client other errand errand' herrand herrand'
    exact h.apart client other errand errand' (hkept _ _ herrand) (hkept _ _ herrand')

/-- A client that goes on without recording or counting anything. -/
theorem move (h : Orderly log state) (session : Nat → Session)
    (hold : (state.stage client).errand? = some errand)
    (hnew : ∀ other ∈ stage.errand?, other = errand) (hkept : Kept state.engine after)
    (hrecorded : mark.isRecorded = false) (hspends : mark.spends? = none)
    (hwaits : ∀ client target, mark.waits? = some (client, target) → .took client target ∈ log)
    (hstage : Follows (log ++ [mark]) client stage) :
    Orderly (log ++ [mark]) ({ state with session }.go client after stage) := by
  rcases h.master with ⟨master, hrole, htallies⟩
  rcases hkept master hrole with ⟨master', hrole', hkeeps⟩
  exact h.go session hold hnew (by simp [hspends])
    ⟨master', hrole', htallies.append hkeeps hrecorded hspends hwaits⟩ hstage

/-- A client records a command, at a place that is new to all. -/
theorem record {master : Master} (h : Orderly log state) (htallies : Tallies log master)
    (client : Nat) (command : Command)
    (hrole : after.role = .master { master with
      history := (master.history.append command.name command.name.kind command.args).2 }) :
    Orderly (log ++ [.recorded client ⟨command, master.history.size⟩])
      (state.go client after (.recorded ⟨command, master.history.size⟩)) := by
  have hstages : ∀ other, other ≠ client →
      (state.go client after (.recorded ⟨command, master.history.size⟩)).stage other =
        state.stage other := fun other hne => Function.update_of_ne hne ..
  -- The places of the others are those of commands that were recorded before.
  have hothers : ∀ other errand, (state.stage other).errand? = some errand →
      errand.index < master.history.size :=
    fun other errand herrand => htallies.history.lt_size ((h.stage other).recorded herrand)
  refine ⟨⟨_, hrole, htallies.record client command⟩, ?_, ?_⟩
  · intro other
    by_cases heq : other = client
    · subst heq
      rw [go_stage]
      refine ⟨by simp, ?_⟩
      refine Fresh.append (fun hspent => ?_) (by simp [Mark.spends?])
      exact Nat.lt_irrefl _ (htallies.spent.lt _ hspent)
    · rw [hstages other heq]
      exact (h.stage other).append fun _ _ => by simp [Mark.spends?]
  · intro first second errand errand' herrand herrand' hsame
    by_cases hfirst : first = client <;> by_cases hsecond : second = client
    · rw [hfirst, hsecond]
    · subst hfirst
      rw [go_stage] at herrand
      rw [hstages second hsecond] at herrand'
      have hlt := hothers second errand' herrand'
      rw [← hsame, ← Option.some.inj herrand] at hlt
      exact absurd hlt (Nat.lt_irrefl _)
    · subst hsecond
      rw [go_stage] at herrand'
      rw [hstages first hfirst] at herrand
      have hlt := hothers first errand herrand
      rw [hsame, ← Option.some.inj herrand'] at hlt
      exact absurd hlt (Nat.lt_irrefl _)
    · rw [hstages first hfirst] at herrand
      rw [hstages second hsecond] at herrand'
      exact h.apart first second errand errand' herrand herrand' hsame

/-- Something happens that no client does. -/
theorem stay (h : Orderly log state) (session : Nat → Session)
    (hspends : mark.spends? = none)
    (hmaster : ∃ master, after.role = .master master ∧ Tallies (log ++ [mark]) master) :
    Orderly (log ++ [mark]) { state with engine := after, session } :=
  ⟨hmaster, fun client => (h.stage client).append (by simp [hspends]), h.apart⟩

end Orderly

variable {log : List Mark} {mark : Mark} {state next : Quorum}

/-- What a command that is handled at once is told agrees with the books: a request to wait finds
    nothing counted for its target. -/
theorem Tallies.told {engine after : Engine} {session session' : Session} {now : UInt64}
    {client : Nat} {errand : Errand} {response : Response} {master : Master}
    (h : Tallies log master) (hrole : engine.role = .master master)
    (hrecorded : .recorded client errand ∈ log) (hfresh : Fresh log errand.index)
    (hhandle : engine.handle session now (some errand.index) errand.command =
      (.answered response, after, session')) : Told log client errand response := by
  refine ⟨?_, ?_⟩
  · intro target hindex htook
    rw [hindex] at hfresh
    exact absurd htook (hfresh.not_took client)
  · rintro hname number rfl target hindex - hwrites
    have hsize := h.history.lt_size hrecorded
    rcases h.history.all target (by omega) with ⟨other, write, hwrite⟩
    have hkind := h.history.kind other ⟨write, target⟩ hwrite
    rw [hwrites other write hwrite] at hkind
    rw [hindex] at hhandle hfresh
    rcases Engine.acks_of_handle now hrole hname hkind hhandle with ⟨acks, hacks, hcount⟩
    rw [hacks]
    congr 1
    rcases hcount with hzero | hcount
    · exact hzero
    · rw [hcount]
      exact h.counts.ackCount_of_fresh hfresh

section Told

variable {client : Nat} {errand : Errand} {wait : AckWait} {acks : Nat} {response : Response}

-- What is answered without a number, to a client that has not taken the place, agrees with the books.
theorem told_of_not_took
    (htook : ∀ target, errand.index = target + 1 → .took client target ∉ log)
    (hother : errand.command.name = .wait → ∀ number, response ≠ .reply (.integer number)) :
    Told log client errand response :=
  ⟨fun target hindex hmem => absurd hmem (htook target hindex),
    fun hname number hnumber => absurd hnumber (hother hname number)⟩

/-- A client whose command is fresh has taken no place, so what it is told agrees with what was seen
    if it is no number. -/
theorem told_of_fresh (hfresh : Fresh log errand.index)
    (hother : errand.command.name = .wait → ∀ number, response ≠ .reply (.integer number)) :
    Told log client errand response :=
  told_of_not_took (fun _ hindex => Fresh.not_took (hindex ▸ hfresh) client) hother

-- What a client is answered that took the place is the count that it took.
theorem told_of_counted (hengaged : Engaged log client errand wait [])
    (hcounted : .counted client wait.target acks ∈ log) :
    Told log client errand (.reply (Engine.countReply acks)) := by
  have hsame : ∀ target, errand.index = target + 1 → wait.target = target := fun target hindex =>
    Nat.succ.inj (hengaged.index.symm.trans hindex)
  refine ⟨fun target hindex _ => ?_, fun _ number _ target hindex htook => ?_⟩
  · exact ⟨acks, rfl, hsame target hindex ▸ hcounted⟩
  · exact absurd (hsame target hindex ▸ hengaged.took) htook

end Told

/-- Each step agrees with the books. -/
theorem Step.orderly (h : Orderly log state) (hstep : Step state mark next) :
    Orderly (log ++ [mark]) next := by
  have hmem : ∀ {seen}, seen ∈ log → seen ∈ log ++ [mark] := List.mem_append_left _
  have hlast : mark ∈ log ++ [mark] := List.mem_append_right _ List.mem_cons_self
  have hsame := kept_of_role (rfl : state.engine.role = state.engine.role)
  rcases h.master with ⟨master, hmaster, htallies⟩
  have hquiet : mark.waits? = none → ∀ client target, mark.waits? = some (client, target) →
      .took client target ∈ log := by
    intro hnone client target hwaits
    simp only [hnone, reduceCtorEq] at hwaits
  -- A client goes on, from a stage that agrees with the books.
  have hmove : ∀ {client : Nat} {old new : Stage} {errand : Errand} {after : Engine}
      (session : Nat → Session), state.stage client = old → old.errand? = some errand →
      (∀ other ∈ new.errand?, other = errand) → Kept state.engine after →
      mark.isRecorded = false → mark.spends? = none →
      (Follows log client old →
        (∀ other target, mark.waits? = some (other, target) → .took other target ∈ log) ∧
          Follows (log ++ [mark]) client new) →
      Orderly (log ++ [mark]) ({ state with session }.go client after new) := by
    rintro client old new errand after session rfl hold hnew hkept hrecorded hspends hfollows
    rcases hfollows (h.stage client) with ⟨hwaits, hstage⟩
    exact h.move session hold hnew hkept hrecorded hspends hwaits hstage
  cases hstep with
  | @record client index after command hstage hrecord =>
      simp only [Engine.record, hmaster, Prod.mk.injEq, Option.some.injEq] at hrecord
      rcases hrecord with ⟨rfl, rfl⟩
      exact h.record htallies client command rfl
  | @handle client errand response after session now hstage hasks hheeds hhandle =>
      have hrole := Engine.handle_role now hasks hheeds
      rw [hhandle] at hrole
      refine hmove _ hstage rfl (by simp [Stage.errand?]) (kept_of_role hrole) rfl rfl ?_
      rintro ⟨hrecorded, hfresh⟩
      exact ⟨hquiet rfl, hmem hrecorded,
        (htallies.told hmaster hrecorded hfresh hhandle).append (by simp [Mark.spends?])⟩
  | @block client reader errand cursors count deadline place after session now hstage hasks hheeds
      hhandle =>
      have hrole := Engine.handle_role now hasks hheeds
      rw [hhandle] at hrole
      refine hmove _ hstage rfl (by simp [Stage.errand?]) (kept_of_role hrole) rfl rfl ?_
      rintro ⟨hrecorded, hfresh⟩
      exact ⟨hquiet rfl, hmem hrecorded, hfresh.append (by simp [Mark.spends?]),
        (Engine.handle_waits now hasks hhandle).2⟩
  | @aim client errand wait ms hstage hroute =>
      refine hmove state.session hstage rfl (by simp [Stage.errand?]) hsame rfl rfl ?_
      rintro ⟨hrecorded, hfresh⟩
      exact ⟨hquiet rfl, hmem hrecorded, hfresh.append (by simp [Mark.spends?]),
        (Engine.target_of_asks hmaster hroute).1⟩
  | @install client errand wait hstage =>
      have hfollows := h.stage client
      rw [hstage] at hfollows
      rcases hfollows with ⟨hrecorded, hfresh, hindex⟩
      have hsize := htallies.history.lt_size hrecorded
      rw [hindex] at hfresh hsize
      have herrand : (state.stage client).errand? = some errand := by rw [hstage]; rfl
      refine h.go state.session herrand (by simp [Stage.errand?])
        (by simp [Mark.spends?, hindex]) ⟨master.install wait, ?_, ?_⟩
        ⟨hmem hrecorded, hindex, hlast⟩
      · simp only [Engine.updateMaster, hmaster]
      · exact htallies.install client hfresh hsize
  | @ask client errand wait hstage =>
      refine hmove state.session hstage rfl (by simp [Stage.errand?]) hsame rfl rfl ?_
      rintro ⟨hrecorded, hindex, htook⟩
      exact ⟨Mark.waits_of_took htook rfl, hmem hrecorded, hindex, hmem htook, _, hlast,
        fun _ hpeer => Or.inl hpeer⟩
  | @deliver client errand wait peer left hstage =>
      refine hmove state.session hstage rfl (by simp [Stage.errand?]) (kept_of_role rfl) rfl rfl ?_
      rintro ⟨hrecorded, hindex, htook, peers, hasks, hasked⟩
      refine ⟨Mark.waits_of_took htook rfl, hmem hrecorded, hindex, hmem htook, peers, hmem hasks,
        fun other hother => ?_⟩
      rcases hasked other hother with hleft | hbefore
      · rcases List.mem_cons.mp hleft with rfl | hlater
        · exact Or.inr hlast
        · exact Or.inl hlater
      · exact Or.inr (hmem hbefore)
  | @park client errand wait hstage =>
      exact hmove state.session hstage rfl (by simp [Stage.errand?]) hsame rfl rfl
        fun hengaged => ⟨hquiet rfl, Engaged.append hengaged⟩
  | @wake client signals errand wait master hstage hrole hsignals =>
      exact hmove state.session hstage rfl (by simp [Stage.errand?])
        (kept_updateMaster _ _ .takeSignal) rfl rfl
        fun hengaged => ⟨hquiet rfl, Engaged.append hengaged⟩
  | @lose client errand wait master hstage hrole hlost =>
      exact hmove state.session hstage rfl (by simp [Stage.errand?]) hsame rfl rfl
        fun hengaged => ⟨hquiet rfl, Engaged.append hengaged⟩
  | @goOn client errand wait master hstage hrole hfew =>
      exact hmove state.session hstage rfl (by simp [Stage.errand?]) hsame rfl rfl
        fun hengaged => ⟨hquiet rfl, Engaged.append hengaged⟩
  | @count client errand wait lost master hstage hrole hdone =>
      refine hmove state.session hstage rfl (by simp [Stage.errand?]) hsame rfl rfl ?_
      exact fun hengaged =>
        ⟨Mark.waits_of_took (Engaged.took hengaged) rfl, Engaged.append hengaged, hlast⟩
  | @ring client errand wait master htimed hstage hrole =>
      refine hmove state.session hstage rfl (by simp [Stage.errand?]) hsame rfl rfl ?_
      exact fun hengaged =>
        ⟨Mark.waits_of_took (Engaged.took hengaged) rfl, Engaged.append hengaged, hlast⟩
  | @leave client acks errand wait hstage =>
      refine hmove state.session hstage rfl (by simp [Stage.errand?])
        (kept_updateMaster _ _ fun _ => .leave _ wait) rfl rfl ?_
      rintro ⟨hengaged, hcounted⟩
      exact ⟨hquiet rfl, hmem hengaged.recorded,
        (told_of_counted hengaged hcounted).append (by simp [Mark.spends?])⟩
  | @hear client id errand master hstage hspeaks hrole hadmits =>
      refine hmove state.session hstage rfl (by simp [Stage.errand?]) hsame rfl rfl ?_
      rintro ⟨hrecorded, hfresh⟩
      exact ⟨hquiet rfl, hmem hrecorded, hfresh.append (by simp [Mark.spends?]), hlast⟩
  | @acknowledge client id errand master waiter hstage hrole hwaiter =>
      obtain rfl := Role.master.inj (hmaster.symm.trans hrole)
      have hfollows := h.stage client
      rw [hstage] at hfollows
      rcases hfollows with ⟨hrecorded, hfresh, -⟩
      have herrand : (state.stage client).errand? = some errand := by rw [hstage]; rfl
      refine h.go state.session herrand (by simp [Stage.errand?])
        (by simp [Mark.spends?]) ⟨master.countAck, ?_, ?_⟩
        ⟨hmem hrecorded, told_of_not_took (fun target hindex => ?_) (by simp)⟩
      · simp only [Engine.updateMaster, hmaster]
      · exact htallies.acknowledge client id hwaiter hfresh (htallies.history.lt_size hrecorded)
      · rw [hindex] at hfresh
        simpa using hfresh.not_took client
  | @ignore client id errand master hstage hrole hwaiter =>
      refine hmove state.session hstage rfl (by simp [Stage.errand?]) hsame rfl rfl ?_
      rintro ⟨hrecorded, hfresh, -⟩
      exact ⟨hquiet rfl, hmem hrecorded, (told_of_fresh hfresh (by simp)).append
        (by simp [Mark.spends?])⟩
  | @look client reader errand cursors count after now hstage hpoll =>
      have hrole := state.engine.poll_role now reader cursors count
      rw [hpoll] at hrole
      refine hmove state.session hstage rfl (by simp [Stage.errand?]) (kept_of_role hrole) rfl rfl ?_
      rintro ⟨hrecorded, hfresh, hname⟩
      exact ⟨hquiet rfl, hmem hrecorded, hfresh.append (by simp [Mark.spends?]), hname⟩
  | @find client reader errand cursors count result after now hstage hfound =>
      have hrole : after.role = state.engine.role := by
        rcases hfound with hpoll | hexpire
        · rw [← state.engine.poll_role now reader cursors count, hpoll]
        · rw [← state.engine.expire_role now reader cursors count, hexpire]
      refine hmove state.session hstage rfl (by simp [Stage.errand?]) (kept_of_role hrole) rfl rfl ?_
      rintro ⟨hrecorded, hfresh, hname⟩
      exact ⟨hquiet rfl, hmem hrecorded, (told_of_fresh hfresh fun hwait => absurd hwait hname).append
        (by simp [Mark.spends?])⟩
  | @conclude client errand response hstage =>
      refine hmove state.session hstage rfl (by simp [Stage.errand?])
        (kept_updateMaster _ _ fun _ => .markSuccess _ _ _) rfl rfl ?_
      exact fun _ => ⟨hquiet rfl, trivial⟩
  | @register client link master hrole =>
      obtain rfl := Role.master.inj (hmaster.symm.trans hrole)
      exact h.stay _ rfl ⟨_, rfl, htallies.append (.register master link) rfl rfl (hquiet rfl)⟩
  | remove id =>
      rcases kept_updateMaster state.engine _ (fun master => .remove master id) _ hmaster with
        ⟨after, hrole, hkeeps⟩
      exact h.stay state.session rfl ⟨after, hrole, htallies.append hkeeps rfl rfl (hquiet rfl)⟩
  | others hrole =>
      exact h.stay state.session rfl
        ⟨master, hrole.trans hmaster, htallies.append (.refl master) rfl rfl (hquiet rfl)⟩

/-- A run agrees with its books. -/
theorem Run.orderly (h : Run state log next) (hstate : Orderly [] state) : Orderly log next := by
  induction h with
  | done => exact hstate
  | step _ hstep ih => exact hstep.orderly ih

/-- At the start nothing was seen and nobody does anything. -/
theorem start_orderly {config : Config} (file : Snapshot.File) (replicationId : String)
    (hmaster : config.replicaOf = none) :
    Orderly [] (start config file replicationId) := by
  refine ⟨⟨{ replicationId }, ?_, ?_⟩, fun _ => trivial, ?_⟩
  · simp only [start, Engine.start, Role.start, hmaster]
  · refine ⟨⟨rfl, ?_, ?_⟩, ⟨?_, ?_, ?_⟩, ⟨?_, ?_⟩, ?_⟩ <;> simp [tally, History.size, History.ackCount,
      History.get?, History.empty]
  · intro client other errand errand' herrand
    simp [start, Stage.errand?] at herrand

end Quorum

end KeyValue
