import KeyValue.Connection
import KeyValue.Proofs.Sessions.Tallying
import Mathlib.Data.List.Dedup

/-!
# What a client that waits for replicas is told

A client that waits right after a write is told how many acknowledgements counted while it had the
place for a waiting client (`Run.counts_acknowledgements`). Each was heard from a session whose
replica was registered when it was heard. The offset that comes with an acknowledgement is read, and
nothing else is done with it: it need not cover the write.

What is counted are acknowledgements and not replicas. They are commands of their own, each counted
once, but one replica may send many of them while the client waits, and each of them counts
(`Connection.counts_acknowledgement_twice`). Only if no replica is counted twice is the count one of
replicas.

## Main definitions

* `Heard`: At some moment of a run a replica was registered, and its acknowledgement was heard.
* `Waited`: What is seen of a client that has waited.

## Theorems

* `Run.heard`: What counts was heard before.
* `Run.waited`: What a client counts.
* `Run.counts_acknowledgements`: What it is told.
* `Connection.counts_acknowledgement_twice`: More than there are replicas.
-/

namespace KeyValue

namespace Quorum

variable {log : List Mark} {mark : Mark} {state next : Quorum} {config : Config}
  {file : Snapshot.File} {replicationId : String}

/-- At some moment of a run the client sent the acknowledgement of a replica, with an offset that can
    be read, and the replica was registered then. -/
def Heard (first : Quorum) (log : List Mark) (client : Nat) (errand : Errand) (id : Nat) : Prop :=
  ∃ early late state master, log = early ++ .heard client errand id :: late ∧
    Run first early state ∧ (state.session client).acknowledgesAs? errand.command = some id ∧
    state.engine.role = .master master ∧ master.admits id = true

theorem Heard.append {first : Quorum} {client id : Nat} {errand : Errand}
    (h : Heard first log client errand id) (more : List Mark) :
    Heard first (log ++ more) client errand id := by
  rcases h with ⟨early, late, state, master, rfl, hrun, hrest⟩
  exact ⟨early, late ++ more, state, master, by simp, hrun, hrest⟩

/-- An acknowledgement that counts was heard before. -/
theorem Run.heard {early late : List Mark} {client id target : Nat} {errand : Errand}
    (h : Run state (early ++ .acknowledged client errand id target :: late) next)
    (hstate : Orderly [] state) : Heard state early client errand id := by
  rcases h.split with ⟨middle, after, hearly, hstep, -⟩
  have horderly := hearly.orderly hstate
  have hheard : .heard client errand id ∈ early := by
    cases hstep with
    | acknowledge hstage hrole hwaiter =>
        have hfollows := horderly.stage client
        rw [hstage] at hfollows
        exact hfollows.2.2
  rcases List.append_of_mem hheard with ⟨before, after, rfl⟩
  rcases hearly.split with ⟨first, second, hbefore, hstep, -⟩
  cases hstep with
  | hear hstage hspeaks hrole hadmits =>
      exact ⟨before, after, first, _, rfl, hbefore, hspeaks, hrole, hadmits⟩

theorem mem_tally {target index id : Nat} (h : (index, id) ∈ tally log target) :
    ∃ client errand, errand.index = index ∧ .acknowledged client errand id target ∈ log := by
  rcases List.mem_filterMap.mp h with ⟨mark, hmem, hcounts⟩
  cases mark <;> simp only [Mark.countsAt?, reduceCtorEq] at hcounts
  split at hcounts
  · rename_i htarget
    rcases Prod.mk.inj (Option.some.inj hcounts) with ⟨rfl, rfl⟩
    subst htarget
    exact ⟨_, _, rfl, hmem⟩
  · simp only [reduceCtorEq] at hcounts

theorem Mark.spends?_of_countsAt {target : Nat} {entry : Nat × Nat}
    (h : mark.countsAt? target = some entry) : mark.spends? = some entry.1 := by
  cases mark <;> simp only [countsAt?, reduceCtorEq] at h
  split at h
  · rw [← Option.some.inj h]
    rfl
  · simp only [reduceCtorEq] at h

-- What counts at one target is part of all that was spent.
theorem tally_sublist (log : List Mark) (target : Nat) :
    ((tally log target).map Prod.fst).Sublist (log.filterMap Mark.spends?) := by
  induction log with
  | nil => exact .slnil
  | cons mark rest ih =>
      simp only [tally, List.filterMap_cons] at ih ⊢
      cases hcounts : mark.countsAt? target with
      | none =>
          simp only
          split
          · exact ih
          · exact ih.cons _
      | some entry =>
          rw [Mark.spends?_of_countsAt hcounts]
          exact ih.cons_cons entry.1

/-- A client took the place for the target, asked all replicas that were registered then, and in the
    end took the count of what had counted since. What was seen before it took the place, and while it
    had it, is `before` and `during`. -/
structure Waited (log before during : List Mark) (client target acks : Nat) : Prop where
  log : ∃ after,
    log = before ++ .took client target :: (during ++ .counted client target acks :: after)
  asked : ∃ peers, .asks client target peers ∈ during ∧
    ∀ peer ∈ peers, .asked client target peer ∈ during
  acks : acks = (tally during target).length

/-- Who counts has taken the place, asked the replicas and waited. -/
theorem Run.waited {later : List Mark} {client target acks : Nat} {last : Quorum}
    (h : Run state (log ++ .counted client target acks :: later) last)
    (hstate : Orderly [] state) :
    ∃ before during,
      Waited (log ++ .counted client target acks :: later) before during client target acks := by
  rcases h.split with ⟨middle, after, hbefore, hstep, -⟩
  have horderly := hbefore.orderly hstate
  rcases horderly.master with ⟨master, hrole, htallies⟩
  have hcounts : acks = (tally log target).length ∧ .took client target ∈ log ∧
      ∃ peers, .asks client target peers ∈ log ∧
        ∀ peer ∈ peers, .asked client target peer ∈ log := by
    have hfollows := horderly.stage client
    cases hstep with
    | count hstage hrole' hdone =>
        obtain rfl := Role.master.inj (hrole.symm.trans hrole')
        rw [hstage] at hfollows
        exact ⟨htallies.counts.acks _, hfollows.took, hfollows.all_asked⟩
    | ring _ hstage hrole' =>
        obtain rfl := Role.master.inj (hrole.symm.trans hrole')
        rw [hstage] at hfollows
        exact ⟨htallies.counts.acks _, hfollows.took, hfollows.all_asked⟩
  rcases hcounts with ⟨hacks, htook, peers, hasks, hasked⟩
  rcases List.append_of_mem htook with ⟨before, during, rfl⟩
  -- Before it took the place, it had asked nobody and nothing had counted.
  rcases hbefore.split with ⟨first, second, hfirst, htook, -⟩
  have hfirst := hfirst.orderly hstate
  rcases hfirst.master with ⟨master', -, htallies'⟩
  have hfresh : Fresh before (target + 1) := by
    cases htook with
    | install hstage =>
        have hfollows := hfirst.stage client
        rw [hstage] at hfollows
        exact hfollows.2.2 ▸ hfollows.2.1
  have hsince : ∀ mark, mark.waits? = some (client, target) →
      mark ∈ before ++ .took client target :: during → mark ∈ during := by
    intro mark hwaits hmem
    rcases List.mem_append.mp hmem with hearlier | hlater
    · have htook := htallies'.waits client target (List.mem_map.mpr ⟨mark, hearlier, hwaits⟩)
      exact absurd htook (hfresh.not_took client)
    · rcases List.mem_cons.mp hlater with rfl | hduring
      · simp only [Mark.waits?, reduceCtorEq] at hwaits
      · exact hduring
  refine ⟨before, during, ⟨later, by simp⟩, ⟨peers, hsince _ rfl hasks, fun peer hpeer => ?_⟩, ?_⟩
  · exact hsince _ rfl (hasked peer hpeer)
  · rw [hacks, tally_append, htallies'.counts.tally_of_fresh hfresh, List.nil_append]
    rfl

/-- The number that a client is told that waits right after a write is zero, or the count of the
    acknowledgements since it took the place. No command counts twice, and each was heard from a
    replica that was registered. If none of the replicas is counted twice, it is their number. -/
theorem Run.counts_acknowledgements {later : List Mark} {client other target : Nat}
    {errand : Errand} {write : Command} {number : Int64} {last : Quorum}
    (hmaster : config.replicaOf = none)
    (h : Run (start config file replicationId)
      (log ++ .answered client errand (.reply (.integer number)) :: later) last)
    (hname : errand.command.name = .wait) (hindex : errand.index = target + 1)
    (hwrite : .recorded other ⟨write, target⟩ ∈ log) (hkind : write.name.kind = .write) :
    ∃ acks, Reply.integer number = Engine.countReply acks ∧ (acks = 0 ∨
      ∃ before during, Waited log before during client target acks ∧
        ((tally during target).map Prod.fst).Nodup ∧
        (∀ index id, (index, id) ∈ tally during target → ∃ speaker ack, ack.index = index ∧
          Heard (start config file replicationId) (before ++ .took client target :: during) speaker
            ack id) ∧
        (((tally during target).map Prod.snd).Nodup →
          acks = ((tally during target).map Prod.snd).dedup.length)) := by
  have hstate := start_orderly file replicationId hmaster
  rcases h.split with ⟨middle, after, hbefore, hstep, -⟩
  have horderly := hbefore.orderly hstate
  rcases horderly.master with ⟨master, -, htallies⟩
  have htold : Told log client errand (.reply (.integer number)) := by
    cases hstep with
    | conclude hstage =>
        have hfollows := horderly.stage client
        rw [hstage] at hfollows
        exact hfollows.2
  by_cases htook : .took client target ∈ log
  · rcases htold.waited target hindex htook with ⟨acks, hacks, hcounted⟩
    refine ⟨acks, Response.reply.inj hacks, Or.inr ?_⟩
    rcases List.append_of_mem hcounted with ⟨initial, rest, rfl⟩
    rcases hbefore.waited hstate with ⟨before, during, hwaited⟩
    refine ⟨before, during, hwaited, ?_, ?_, ?_⟩
    · have honce := (tally_sublist _ target).nodup htallies.spent.once
      rcases hwaited.log with ⟨after, hlog⟩
      rw [hlog, List.append_cons, ← List.append_assoc, tally_append, tally_append, List.map_append,
        List.map_append] at honce
      exact (List.nodup_append.mp (List.nodup_append.mp honce).1).2.1
    · intro index id hmem
      rcases mem_tally hmem with ⟨speaker, ack, rfl, hacknowledged⟩
      rcases List.append_of_mem hacknowledged with ⟨first, second, rfl⟩
      rcases hwaited.log with ⟨after, hlog⟩
      rw [hlog] at hbefore
      have hsame : before ++ .took client target ::
            ((first ++ .acknowledged speaker ack id target :: second) ++
              .counted client target acks :: after) =
          (before ++ .took client target :: first) ++ .acknowledged speaker ack id target ::
            (second ++ .counted client target acks :: after) := by simp
      rw [hsame] at hbefore
      refine ⟨speaker, ack, rfl, ?_⟩
      simpa using (hbefore.heard hstate).append (.acknowledged speaker ack id target :: second)
    · intro honce
      rw [honce.dedup, List.length_map, hwaited.acks]
  · -- It was answered at once, and nothing had counted yet.
    refine ⟨0, ?_, Or.inl rfl⟩
    refine htold.atOnce hname number rfl target hindex htook fun speaker command hrecorded => ?_
    have hsame := (htallies.history.kind speaker ⟨command, target⟩ hrecorded).symm.trans
      (htallies.history.kind other ⟨write, target⟩ hwrite)
    exact (Option.some.inj hsame).trans hkind

/-- A run in which two replicas are asked for: the only one acknowledges twice, and both count. -/
theorem Run.counts_twice :
    let set : Errand := ⟨.ofParts .set ["k", "v"], 0⟩
    let wait : Errand := ⟨.ofParts .wait ["2", "50"], 1⟩
    let ack : Command := .ofParts .replconf ["ACK", "0"]
    ∃ state next last,
      Run (start {} .missing "id")
        [.registered ⟨1, 0⟩, .recorded 0 set, .nothing, .answered 0 set (.reply .ok),
          .recorded 0 wait] state ∧
      Step state .nothing next ∧
      Run next
        [.took 0 0, .asks 0 0 [⟨1, 0⟩], .asked 0 0 ⟨1, 0⟩, .nothing, .recorded 1 ⟨ack, 2⟩,
          .heard 1 ⟨ack, 2⟩ 1, .acknowledged 1 ⟨ack, 2⟩ 1 0, .answered 1 ⟨ack, 2⟩ .silent,
          .recorded 1 ⟨ack, 3⟩, .heard 1 ⟨ack, 3⟩ 1, .acknowledged 1 ⟨ack, 3⟩ 1 0, .nothing,
          .counted 0 0 2, .nothing] last ∧
      state.stage 0 = .recorded wait ∧ (state.session 0).transaction = .closed ∧
      state.engine.peers ≠ [] ∧ next.stage 0 = .aims wait ⟨0, 2⟩ ∧
      last.stage 0 = .handled wait (.reply (.integer 2)) := by
  intro set wait ack
  have hspeaks : ({ replicaId := some 1 } : Session).acknowledgesAs? ack = some 1 := by
    decide +kernel
  -- The write, and the request to wait for it.
  have hregister := Run.step .done
    (@Step.register (start {} .missing "id") 1 0 { replicationId := "id" } rfl)
  have hwrite := ((hregister.step (@Step.record _ 0 0 _ set.command rfl rfl)).step
    (@Step.handle _ 0 set (.reply .ok) _ _ 7 rfl nofun nofun rfl)).step
    (@Step.conclude _ 0 set (.reply .ok) rfl)
  have hrequest := hwrite.step (@Step.record _ 0 1 _ wait.command rfl rfl)
  -- A step starts where the run has ended, and the next run where the step has ended.
  have hlook : ∀ {log : List Mark} {state : Quorum}, Run (start {} .missing "id") log state →
      state.stage 0 = .recorded wait →
      state.engine.route (state.session 0) (some 1) wait.command = .asks ⟨0, 2⟩ 50 →
      Step state .nothing (state.go 0 state.engine (.aims wait ⟨0, 2⟩)) := fun _ => Step.aim
  have hlooks := hlook hrequest rfl rfl
  have hgoesOn : ∀ {state next : Quorum} {mark : Mark}, Step state mark next → Run next [] next :=
    fun _ => .done
  have hparks := ((((hgoesOn hlooks).step (@Step.install _ 0 wait ⟨0, 2⟩ rfl)).step
    (@Step.ask _ 0 wait ⟨0, 2⟩ rfl)).step (@Step.deliver _ 0 wait ⟨0, 2⟩ ⟨1, 0⟩ [] rfl)).step
    (@Step.park _ 0 wait ⟨0, 2⟩ rfl)
  -- The replica acknowledges it twice.
  have hfirst := (((hparks.step (@Step.record _ 1 2 _ ack rfl rfl)).step
    (@Step.hear _ 1 1 ⟨ack, 2⟩ _ rfl hspeaks rfl rfl)).step
    (@Step.acknowledge _ 1 1 ⟨ack, 2⟩ _ ⟨0, 0⟩ rfl rfl rfl)).step
    (@Step.conclude _ 1 ⟨ack, 2⟩ .silent rfl)
  have hsecond := ((hfirst.step (@Step.record _ 1 3 _ ack rfl rfl)).step
    (@Step.hear _ 1 1 ⟨ack, 3⟩ _ rfl hspeaks rfl rfl)).step
    (@Step.acknowledge _ 1 1 ⟨ack, 3⟩ _ ⟨0, 1⟩ rfl rfl rfl)
  have hwakes := hsecond.step (@Step.wake _ 0 1 wait ⟨0, 2⟩ _ rfl rfl rfl)
  have hleaves := (hwakes.step (@Step.count _ 0 wait ⟨0, 2⟩ false _ rfl rfl (by decide))).step
    (@Step.leave _ 0 2 wait ⟨0, 2⟩ rfl)
  exact ⟨_, _, _, hrequest, hlooks, hleaves, rfl, rfl, nofun, rfl, rfl⟩

/-- A client that is told of two acknowledgements of one replica. -/
theorem Run.counts_acknowledgements_of_one :
    let set : Errand := ⟨.ofParts .set ["k", "v"], 0⟩
    let wait : Errand := ⟨.ofParts .wait ["2", "50"], 1⟩
    ∃ log last,
      Run (start {} .missing "id") (log ++ .answered 0 wait (.reply (.integer 2)) :: []) last ∧
      wait.command.name = .wait ∧ wait.index = set.index + 1 ∧ .recorded 0 set ∈ log ∧
      set.command.name.kind = .write ∧
      ∃ acks before during, Reply.integer 2 = Engine.countReply acks ∧
        Waited log before during 0 0 acks ∧ ((tally during 0).map Prod.fst).Nodup := by
  intro set wait
  rcases Run.counts_twice with ⟨state, next, last, hbefore, hlooks, hafter, -, -, -, -, hlast⟩
  have hrun := ((hbefore.step hlooks).append hafter).step (.conclude hlast)
  refine ⟨_, _, hrun, rfl, rfl, by simp [set], rfl, ?_⟩
  have hset : .recorded 0 set ∈ [Mark.registered ⟨1, 0⟩, .recorded 0 set] := by simp
  rcases Run.counts_acknowledgements rfl hrun rfl rfl
    (List.mem_append_left _ (List.mem_append_left _ (List.mem_append_left _ hset))) rfl with
    ⟨acks, hacks, hzero | ⟨before, during, hwaited, honce, -, -⟩⟩
  · rw [hzero] at hacks
    simp [Engine.countReply] at hacks
  · exact ⟨acks, before, during, hacks, hwaited, honce⟩

end Quorum

namespace Connection

/-- Two acknowledgements of one replica, with offsets that do not cover the write, are counted as
    two. -/
theorem counts_acknowledgement_twice :
    let replica := opened (Engine.start {} .missing "id")
    let replica := replica.1.receive replica.2 7 (Text.bytes "PSYNC ? -1\r\n")
    let client := opened replica.2
    let client := client.1.receive client.2 7 (Text.bytes "SET k v\r\nWAIT 2 0\r\n")
    let acks := replica.1.receive client.2 8
      (Text.bytes "REPLCONF ACK 0\r\nREPLCONF ACK 0\r\n")
    let woken := client.1.wake acks.2 9
    acks.2.peers.length = 1 ∧
      woken.2.links.written client.1.link = Reply.ok.encode ++ (Reply.integer 2).encode := by
  decide +kernel

end Connection

end KeyValue
