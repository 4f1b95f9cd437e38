import KeyValue.Proofs.Sessions.Awaiting

/-!
# What a client that waits for replicas waits for

What a request to wait waits for is the command recorded right before it, in the one history that all
clients share. So it waits for the client's own write if nobody recorded a command in between, and
then whatever the others do before and afterwards (`Run.waits_for_write`): it asks the replicas, and
is answered with the count of the acknowledgements for the write. If its time is limited, it needs no
other client to be answered (`Ends.of_awaited`).

Any command of another client in between is in the way, be it a read or the acknowledgement of a
replica. Then the request is answered at once with the number of replicas, and none is asked
(`Connection.overlooks_write`).

## Main definitions

* `Stage.awaited?`: The request that a client is with which knows what to wait for.
* `Quorum.Ends`: The client can be answered with no help.

## Theorems

* `Step.looks`: A client looks up what to wait for.
* `Run.took_of_aims`: Then it takes the place for it.
* `Run.awaited`, `Ends.of_awaited`: It stays with the request, and can be answered.
* `Run.index_of_recorded`: The place of a command in the history.
* `Run.waits_for_write`: A client waits for its write.
* `Connection.overlooks_write`: And does not if another client comes in between.
-/

namespace KeyValue

/-- The request to wait that a client is with which knows what to wait for, up to the answer. -/
def Stage.awaited? : Stage → Option Errand
  | aims errand _ => some errand
  | installed errand _ => some errand
  | asks errand _ _ => some errand
  | waits errand _ => some errand
  | woken errand _ _ => some errand
  | counted errand _ _ => some errand
  | handled errand _ => some errand
  | _ => none

namespace Quorum

variable {log : List Mark} {mark : Mark} {state next last : Quorum} {client : Nat} {errand : Errand}
  {wait : AckWait}

section Steps

variable {other : Nat} {old new stage : Stage}

/-- A client is moved by its own steps only. -/
theorem stage_of_other (h : state.stage client = stage) (hold : state.stage other = old)
    (hne : old ≠ stage) : Function.update state.stage other new client = stage := by
  rw [Function.update_of_ne]
  · exact h
  · rintro rfl
    exact hne (hold.symm.trans h)

/-- A client that takes a step with its request stays with it. -/
theorem awaited_of_go (h : (state.stage client).awaited? = some errand)
    (hold : state.stage other = old)
    (hsame : ∀ errand, old.awaited? = some errand → new.awaited? = some errand) :
    (Function.update state.stage other new client).awaited? = some errand := by
  by_cases heq : client = other
  · subst heq
    rw [Function.update_self]
    exact hsame errand (hold ▸ h)
  · rwa [Function.update_of_ne heq]

/-- A client whose request asks the replicas looks up what to wait for. -/
theorem Step.looks {ms : UInt64} (hstep : Step state mark next)
    (hstage : state.stage client = .recorded errand)
    (hroute : state.engine.route (state.session client) (some errand.index) errand.command =
      .asks wait ms)
    (hmoves : next.stage client ≠ .recorded errand) : next.stage client = .aims errand wait := by
  have howns : ∀ {other errand' new}, state.stage other = .recorded errand' →
      Function.update state.stage other new client ≠ .recorded errand →
        other = client ∧ errand' = errand := by
    intro other errand' new hother hne
    by_cases heq : client = other
    · subst heq
      exact ⟨rfl, Stage.recorded.inj (hother.symm.trans hstage)⟩
    · exact absurd ((Function.update_of_ne heq ..).trans hstage) hne
  cases hstep with
  | aim hother hroute' =>
      rcases howns hother hmoves with ⟨rfl, rfl⟩
      rw [(Engine.Route.asks.inj (hroute.symm.trans hroute')).1]
      exact go_stage ..
  | handle _ hother hasks =>
      rcases howns hother hmoves with ⟨rfl, rfl⟩
      exact absurd hroute (hasks wait ms)
  | block _ hother hasks =>
      rcases howns hother hmoves with ⟨rfl, rfl⟩
      exact absurd hroute (hasks wait ms)
  | hear hother hspeaks =>
      rcases howns hother hmoves with ⟨rfl, rfl⟩
      -- An acknowledgement is no request to wait.
      have hwaits := (Engine.handle_of_acknowledges 0 hspeaks).symm.trans
        (Engine.handle_of_asks hroute)
      simp only [Prod.mk.injEq, reduceCtorEq, false_and] at hwaits
  | register | remove | others => exact absurd hstage hmoves
  | record _ hother => exact absurd (stage_of_other hstage hother nofun) hmoves
  | look _ hother => exact absurd (stage_of_other hstage hother nofun) hmoves
  | find _ hother => exact absurd (stage_of_other hstage hother nofun) hmoves
  | ring _ hother => exact absurd (stage_of_other hstage hother nofun) hmoves
  | install hother | ask hother | deliver hother | park hother | wake hother | lose hother
  | goOn hother | count hother | leave hother | acknowledge hother | ignore hother
  | conclude hother => exact absurd (stage_of_other hstage hother nofun) hmoves

/-- A client that knows what to wait for goes on by taking the place for it. -/
theorem Step.took_of_aims (hstep : Step state mark next)
    (hstage : state.stage client = .aims errand wait) :
    next.stage client = .aims errand wait ∨ mark = .took client wait.target := by
  cases hstep with
  | @install other errand' wait' hother =>
      by_cases heq : client = other
      · subst heq
        rcases Stage.aims.inj (hother.symm.trans hstage) with ⟨rfl, rfl⟩
        exact Or.inr rfl
      · exact Or.inl ((Function.update_of_ne heq ..).trans hstage)
  | register | remove | others => exact Or.inl hstage
  | record _ hother => exact Or.inl (stage_of_other hstage hother nofun)
  | handle _ hother => exact Or.inl (stage_of_other hstage hother nofun)
  | block _ hother => exact Or.inl (stage_of_other hstage hother nofun)
  | look _ hother => exact Or.inl (stage_of_other hstage hother nofun)
  | find _ hother => exact Or.inl (stage_of_other hstage hother nofun)
  | ring _ hother => exact Or.inl (stage_of_other hstage hother nofun)
  | aim hother | ask hother | deliver hother | park hother | wake hother | lose hother
  | goOn hother | count hother | leave hother | hear hother | acknowledge hother
  | ignore hother | conclude hother => exact Or.inl (stage_of_other hstage hother nofun)

/-- A client stays with its request until it is answered. -/
theorem Step.awaited (hstep : Step state mark next)
    (h : (state.stage client).awaited? = some errand) :
    (next.stage client).awaited? = some errand ∨
      ∃ response, mark = .answered client errand response := by
  cases hstep with
  | @conclude other errand' response hother =>
      by_cases heq : client = other
      · subst heq
        rw [hother] at h
        exact Or.inr ⟨response, by rw [← Option.some.inj h]⟩
      · left
        rwa [← Function.update_of_ne heq .idle state.stage] at h
  | register | remove | others => exact Or.inl h
  | record _ hother => exact Or.inl (awaited_of_go h hother nofun)
  | handle _ hother => exact Or.inl (awaited_of_go h hother nofun)
  | block _ hother => exact Or.inl (awaited_of_go h hother nofun)
  | look _ hother => exact Or.inl (awaited_of_go h hother nofun)
  | find _ hother => exact Or.inl (awaited_of_go h hother nofun)
  | ring _ hother => exact Or.inl (awaited_of_go h hother fun _ => id)
  | aim hother | hear hother | acknowledge hother | ignore hother =>
      exact Or.inl (awaited_of_go h hother nofun)
  | install hother | ask hother | deliver hother | park hother | wake hother | lose hother
  | goOn hother | count hother | leave hother =>
      exact Or.inl (awaited_of_go h hother fun _ => id)

end Steps

/-- A client that aims for the place takes it, or is still about to. -/
theorem Run.took_of_aims (h : Run state log last) (hstage : state.stage client = .aims errand wait) :
    last.stage client = .aims errand wait ∨ .took client wait.target ∈ log := by
  induction h with
  | done => exact Or.inl hstage
  | step _ hstep ih =>
      rcases ih with haims | htook
      · exact (hstep.took_of_aims haims).imp id fun hmark => by simp [hmark]
      · exact Or.inr (List.mem_append_left _ htook)

/-- A client that waits for an answer goes on to, or is answered. -/
theorem Run.awaited (h : Run state log last)
    (hstage : (state.stage client).awaited? = some errand) :
    (last.stage client).awaited? = some errand ∨
      ∃ response, .answered client errand response ∈ log := by
  induction h with
  | done => exact Or.inl hstage
  | step _ hstep ih =>
      rcases ih with hawaited | ⟨response, hanswered⟩
      · rcases hstep.awaited hawaited with hstill | ⟨response, rfl⟩
        · exact Or.inl hstill
        · exact Or.inr ⟨response, by simp⟩
      · exact Or.inr ⟨response, List.mem_append_left _ hanswered⟩

/-- The client can be answered with no help of the others. -/
def Ends (state : Quorum) (client : Nat) (errand : Errand) : Prop :=
  ∃ response after, Leads state client errand (some response) after

namespace Ends

variable {acks : Nat} {left : List Peer}

/-- Where steps without an answer lead to an end, there is one. -/
theorem of_leads (h : Leads state client errand none next) (h' : Ends next client errand) :
    Ends state client errand := by
  rcases h' with ⟨response, after, hleads⟩
  exact ⟨response, after, h.trans hleads⟩

/-- Where a single step leads to an end, there is one. -/
theorem of_step (h : Step state mark next) (h' : Ends next client errand) :
    Ends state client errand :=
  of_leads ((Leads.refl state client errand).next h) h'

/-- A client that has been handled is answered next. -/
theorem of_handled {response : Response} (h : state.stage client = .handled errand response) :
    Ends state client errand :=
  ⟨response, _, [] ++ [.answered client errand response], .step .done (.conclude h), by simp⟩

/-- A client that has counted leaves the place and is answered. -/
theorem of_counted (h : state.stage client = .counted errand wait acks) :
    Ends state client errand :=
  of_step (.leave h) (of_handled (go_stage ..))

section Timed

variable {master : Master} (htimed : errand.command.IsTimed)
include htimed

/-- A client that waits gives up when its time is over. -/
theorem of_waits (h : state.stage client = .waits errand wait)
    (hrole : state.engine.role = .master master) : Ends state client errand :=
  of_step (.ring htimed h hrole) (of_counted (go_stage ..))

theorem of_woken {lost : Bool} (h : state.stage client = .woken errand wait lost)
    (hrole : state.engine.role = .master master) : Ends state client errand := by
  by_cases hdone : wait.wanted ≤ master.history.ackCount wait.target ∨ lost = true
  · exact of_step (.count h hrole hdone) (of_counted (go_stage ..))
  · rw [not_or, Nat.not_le, Bool.not_eq_true] at hdone
    rcases hdone with ⟨hfew, rfl⟩
    exact of_step (.goOn h hrole hfew) (of_waits htimed (go_stage ..) hrole)

/-- A client that asks has finitely many replicas left to ask. -/
theorem of_asks (h : state.stage client = .asks errand wait left)
    (hrole : state.engine.role = .master master) : Ends state client errand :=
  of_leads (Leads.deliver_all wait left state h)
    (of_step (.park (go_stage ..)) (of_waits htimed (go_stage ..) hrole))

theorem of_installed (h : state.stage client = .installed errand wait)
    (hrole : state.engine.role = .master master) : Ends state client errand :=
  of_step (.ask h) (of_asks htimed (go_stage ..) hrole)

/-- A client that aims for the place can take it. -/
theorem of_aims (h : state.stage client = .aims errand wait)
    (hrole : state.engine.role = .master master) : Ends state client errand := by
  have hrole' : (state.engine.updateMaster (·.install wait)).role =
      .master (master.install wait) := by
    simp only [Engine.updateMaster, hrole]
  exact of_step (.install h) (of_installed htimed (go_stage ..) hrole')

/-- A client that knows what to wait for can be answered, when its time is over at the latest. -/
theorem of_awaited (h : (state.stage client).awaited? = some errand)
    (hrole : state.engine.role = .master master) : Ends state client errand := by
  cases hstage : state.stage client <;>
    simp only [hstage, Stage.awaited?, Option.some.injEq, reduceCtorEq] at h <;> subst h
  case aims => exact of_aims htimed hstage hrole
  case installed => exact of_installed htimed hstage hrole
  case asks => exact of_asks htimed hstage hrole
  case waits => exact of_waits htimed hstage hrole
  case woken => exact of_woken htimed hstage hrole
  case counted => exact of_counted hstage
  case handled => exact of_handled hstage

end Timed

end Ends

variable {config : Config} {file : Snapshot.File} {replicationId : String}

/-- The place of a command in the history is the number of commands recorded before it. -/
theorem Run.index_of_recorded {later : List Mark}
    (h : Run state (log ++ .recorded client errand :: later) last) (hstate : Orderly [] state) :
    errand.index = log.countP Mark.isRecorded := by
  rcases h.split with ⟨middle, after, hbefore, hstep, -⟩
  rcases (hbefore.orderly hstate).master with ⟨master, hrole, htallies⟩
  cases hstep with
  | record command hstage hrecord =>
      simp only [Engine.record, hrole, Prod.mk.injEq, Option.some.injEq] at hrecord
      rw [← hrecord.1, ← htallies.history.size]
      rfl

-- What is seen before the client takes the place is no part of its wait.
theorem Waited.of_append {early before during : List Mark} {target acks : Nat}
    (h : Waited (early ++ log) before during client target acks)
    (htook : .took client target ∉ early) : ∃ before, Waited log before during client target acks := by
  rcases h.log with ⟨after, hlog⟩
  rcases List.append_eq_append_iff.mp hlog with ⟨rest, -, hrest⟩ | ⟨rest, hearly, hrest⟩
  · exact ⟨rest, ⟨after, hrest⟩, h.asked, h.acks⟩
  · cases rest with
    | nil => exact ⟨[], ⟨after, hrest.symm⟩, h.asked, h.acks⟩
    | cons first rest =>
        rw [← (List.cons.inj hrest).1] at hearly
        exact absurd (hearly ▸ by simp) htook

/-- A client that knew what to wait for, and is answered, has waited for it. -/
theorem Run.waited_of_aims {first after : Quorum} {later : List Mark} {response : Response}
    (h : Run first log state) (hfirst : Orderly [] first)
    (hstage : state.stage client = .aims errand wait) (hlater : Run state later last)
    (hlast : Step last (.answered client errand response) after) :
    ∃ before during acks, Waited later before during client wait.target acks ∧
      response = .reply (Engine.countReply acks) := by
  have horderly := h.orderly hfirst
  have hfollows := horderly.stage client
  rw [hstage] at hfollows
  rcases hfollows with ⟨-, hfresh, hindex⟩
  rw [hindex] at hfresh
  have hwhole := h.append hlater
  have hhandled : last.stage client = .handled errand response := by
    cases hlast with
    | conclude hhandled => exact hhandled
  -- The client has left what it aimed at, so it took the place.
  have htook := (hlater.took_of_aims hstage).resolve_left (by simp [hhandled])
  have htold := (hwhole.orderly hfirst).stage client
  rw [hhandled] at htold
  rcases htold.2.waited wait.target hindex (List.mem_append_right _ htook) with
    ⟨acks, hacks, hcounted⟩
  -- It had not taken it before, so it did not count before either.
  have hcounted : .counted client wait.target acks ∈ later := by
    rcases List.mem_append.mp hcounted with hearlier | hlate
    · rcases horderly.master with ⟨master, -, htallies⟩
      have htook := htallies.waits client wait.target (List.mem_map.mpr ⟨_, hearlier, rfl⟩)
      exact absurd htook (hfresh.not_took client)
    · exact hlate
  rcases List.append_of_mem hcounted with ⟨initial, rest, rfl⟩
  rw [← List.append_assoc] at hwhole
  rcases hwhole.waited hfirst with ⟨before, during, hwaited⟩
  rw [List.append_assoc] at hwaited
  rcases hwaited.of_append (hfresh.not_took client) with ⟨before, hwaited⟩
  exact ⟨before, during, acks, hwaited, hacks⟩

/-- A client whose request to wait is recorded right after its write waits for the write, if there is
    a replica when it looks. If it does not wait without a limit, it can always be answered, and the
    answer is the count of the acknowledgements since it took the place for the write and asked the
    replicas. -/
theorem Run.waits_for_write {early between late : List Mark} {place index count : Nat}
    {write request : Command} {wanted timeout : String} {ms : UInt64}
    (hmaster : config.replicaOf = none)
    (h : Run (start config file replicationId)
      (early ++ .recorded client ⟨write, place⟩ ::
        (between ++ .recorded client ⟨request, index⟩ :: late)) state)
    (hbetween : ∀ seen ∈ between, seen.isRecorded = false) (hkind : write.name.kind = .write)
    (hrequest : Request.ofCommand request = .ok (.waitForReplicas wanted timeout))
    (hnumbers : Engine.waitNumbers wanted timeout = .ok (count, ms)) (hcount : 0 < count)
    (hstage : state.stage client = .recorded ⟨request, index⟩)
    (hclosed : (state.session client).transaction = .closed) (hpeers : state.engine.peers ≠ [])
    (hstep : Step state mark next) (hlooks : next.stage client ≠ .recorded ⟨request, index⟩) :
    index = place + 1 ∧ next.stage client = .aims ⟨request, index⟩ ⟨place, count⟩ ∧
      ∀ later last, Run next later last →
        (ms ≠ 0 → (∃ response, .answered client ⟨request, index⟩ response ∈ later) ∨
          Ends last client ⟨request, index⟩) ∧
        ∀ response after, Step last (.answered client ⟨request, index⟩ response) after →
          ∃ before during acks, Waited later before during client place acks ∧
            response = .reply (Engine.countReply acks) := by
  have hstate := start_orderly file replicationId hmaster
  have horderly := h.orderly hstate
  rcases horderly.master with ⟨master, hrole, htallies⟩
  have hindex : index = place + 1 := by
    have hplace := h.index_of_recorded hstate
    rw [← List.cons_append, ← List.append_assoc] at h
    have hnext := h.index_of_recorded hstate
    have hnone : between.countP Mark.isRecorded = 0 := by
      simpa [List.countP_eq_zero] using hbetween
    simp only [List.countP_append, List.countP_cons, Mark.isRecorded, if_true, hnone] at hplace hnext
    omega
  subst hindex
  have hfollows := horderly.stage client
  rw [hstage] at hfollows
  -- Nothing has counted for the write, so the client asks.
  have hroute : state.engine.route (state.session client) (some (place + 1)) request =
      .asks ⟨place, count⟩ ms := by
    refine Engine.route_of_wait hrole hrequest hnumbers hclosed ?_ ?_ ?_
    · simpa [Engine.peers, Engine.registry, Master.registry, hrole] using hpeers
    · rw [htallies.history.kind client ⟨write, place⟩ (by simp), hkind]
    · rw [htallies.counts.ackCount_of_fresh hfollows.2]
      exact hcount
  have haims := hstep.looks hstage hroute hlooks
  refine ⟨rfl, haims, fun later last hlater => ⟨fun hms => ?_, fun response after hlast => ?_⟩⟩
  · have hawaited : (next.stage client).awaited? = some ⟨request, place + 1⟩ := by rw [haims]; rfl
    rcases hlater.awaited hawaited with hstill | hdone
    · have hwhole := ((h.step hstep).append hlater).orderly hstate
      rcases hwhole.master with ⟨_, hrole', -⟩
      exact Or.inr (.of_awaited ⟨wanted, timeout, count, ms, hrequest, hnumbers, hms⟩ hstill hrole')
    · exact Or.inl hdone
  · exact (h.step hstep).waited_of_aims hstate haims hlater hlast

/-- A client that waits for its write, and is answered when a replica has acknowledged it twice. -/
theorem Run.waits_for_write_of_one :
    let set : Command := .ofParts .set ["k", "v"]
    let wait : Command := .ofParts .wait ["2", "50"]
    ∃ early between state next later last after,
      Run (start {} .missing "id")
        (early ++ .recorded 0 ⟨set, 0⟩ :: (between ++ .recorded 0 ⟨wait, 1⟩ :: [])) state ∧
      (∀ seen ∈ between, seen.isRecorded = false) ∧ set.name.kind = .write ∧
      Request.ofCommand wait = .ok (.waitForReplicas "2" "50") ∧
      Engine.waitNumbers "2" "50" = .ok (2, 50) ∧ state.stage 0 = .recorded ⟨wait, 1⟩ ∧
      (state.session 0).transaction = .closed ∧ state.engine.peers ≠ [] ∧
      Step state .nothing next ∧ next.stage 0 ≠ .recorded ⟨wait, 1⟩ ∧ Run next later last ∧
      Step last (.answered 0 ⟨wait, 1⟩ (.reply (.integer 2))) after ∧
      next.stage 0 = .aims ⟨wait, 1⟩ ⟨0, 2⟩ ∧ Ends next 0 ⟨wait, 1⟩ ∧
      ∃ before during acks, Waited later before during 0 0 acks ∧
        Response.reply (.integer 2) = .reply (Engine.countReply acks) := by
  intro set wait
  rcases Run.counts_twice with
    ⟨state, next, last, hbefore, hlooks, hafter, hstage, hclosed, hpeers, haims, hlast⟩
  have hmoves : next.stage 0 ≠ .recorded ⟨wait, 1⟩ := by simp [haims]
  have hrun : Run (start {} .missing "id")
      ([.registered ⟨1, 0⟩] ++ .recorded 0 ⟨set, 0⟩ ::
        ([.nothing, .answered 0 ⟨set, 0⟩ (.reply .ok)] ++ .recorded 0 ⟨wait, 1⟩ :: [])) state :=
    hbefore
  have hnumbers : Engine.waitNumbers "2" "50" = .ok (2, 50) := rfl
  have hbetween : ∀ seen ∈ [Mark.nothing, .answered 0 ⟨set, 0⟩ (.reply .ok)],
      seen.isRecorded = false := by simp [Mark.isRecorded]
  have hwaits := Run.waits_for_write rfl hrun hbetween rfl rfl hnumbers (by decide) hstage hclosed
    hpeers hlooks hmoves
  have hends : Ends next 0 ⟨wait, 1⟩ :=
    ((hwaits.2.2 [] next .done).1 (by decide)).resolve_left (by simp)
  exact ⟨_, _, _, _, _, _, _, hrun, hbetween, rfl, rfl, hnumbers, hstage, hclosed, hpeers, hlooks,
    hmoves, hafter, .conclude hlast, haims, hends,
    (hwaits.2.2 _ _ hafter).2 _ _ (.conclude hlast)⟩

end Quorum

namespace Connection

/-- A read of another client is recorded between a write and the request to wait for it. The request
    is answered at once with the number of replicas, and the replica is sent the write and nothing
    after it. -/
theorem overlooks_write :
    let set := Text.bytes "SET k v\r\n"
    let replica := opened (Engine.start {} .missing "id")
    let replica := replica.1.receive replica.2 7 (Text.bytes "PSYNC ? -1\r\n")
    let other := opened replica.2
    let client := opened other.2
    let written := client.1.receive client.2 7 set
    let read := other.1.receive written.2 7 (Text.bytes "GET k\r\n")
    let waited := written.1.receive read.2 7 (Text.bytes "WAIT 1 0\r\n")
    waited.2.links.written client.1.link = Reply.ok.encode ++ (Reply.integer 1).encode ∧
      waited.2.links.written replica.1.link = replica.2.links.written replica.1.link ++ set := by
  decide +kernel

end Connection

end KeyValue
