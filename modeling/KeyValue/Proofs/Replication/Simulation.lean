import KeyValue.Proofs.Replication.Replaying

/-!
# A replica mirrors its master

A replica that has processed what its master sent holds what the master holds.

The master runs commands of any number of sessions, and what it sends to the link of the replica is
a row of frames: the bytes of each write that succeeded, and requests for an acknowledgement. The
frames do to the contents of the master what the commands did (`Feeds.dispatch`, `run_forwards`),
because a write that fails leaves the contents alone and every other command only prunes. The
replica reads the same frames from the bytes, in whatever pieces they arrive, and applies them to
the same contents.

Writes that set a deadline or ask for the present time are left out, and writes in the queue of a
transaction, which are not forwarded.

## Main definitions

* `Session.Replicable`: A command that a replica can repeat.
* `Engine.Feeds`: A replica is registered on an open link.
* `Engine.Forwards`: What was sent to the replica tells what was done.

## Theorems

* `Engine.Feeds.dispatch`: One command.
* `Clients.run_forwards`: Any number of turns.
* `Follower.mirrors_master`: The replica holds what the master holds.
-/

namespace KeyValue

open Framer

/-- The command came from a framer and its lines are short. If it is a write that is run at once, it
    is timeless; and it runs no write in the queue of a transaction. -/
structure Session.Replicable (session : Session) (command : Command) : Prop where
  delivered : command.Delivered
  short : ShortLines .start command.raw
  timeless : session.transaction.isOpen = false → command.Timeless
  queue : ∀ queue, session.transaction = .opened queue →
    Request.ofCommand command = .ok .runTransaction → ∀ queued ∈ queue, queued.name.kind ≠ .write

namespace Master

/-- The command that asks a replica for an acknowledgement. -/
def ask : Command := .ofParts .replconf ["GETACK", "*"]

theorem ask_raw : ask.raw = ackRequest := rfl

theorem ask_delivered : ask.Delivered := by
  have hdrain : (Framer.empty.drainAll [ask.raw]).1 = [.ok ask] := by decide +kernel
  exact ⟨[ask.raw], by rw [hdrain]; exact List.mem_cons_self⟩

theorem ask_short : ShortLines .start ask.raw := .of_length_le _ (by decide +kernel)

theorem ask_request : Request.ofCommand ask = .ok (.replication "GETACK" ["*"]) := rfl

end Master

namespace Engine

variable {since now : UInt64} {link : Nat}

/-- A replica is registered, once, on an open link, and the keyspace can be told by its contents. -/
structure Feeds (since : UInt64) (link : Nat) (engine : Engine) : Prop where
  steady : engine.Steady since
  isOpen : engine.links.isOpen link = true
  once : engine.peers.countP (·.link == link) = 1

/-- What was written to a link since then is a row of frames, and they lead from the contents of
    then to those of now. -/
structure Forwards (link : Nat) (before after : Engine) (frames : List Command) : Prop where
  written : after.links.written link = before.links.written link ++ frames.flatMap (·.raw)
  contents : before.keyspace.contents.applyAll frames = some after.keyspace.contents
  framed : ∀ frame ∈ frames, frame.Framed
  short : ∀ frame ∈ frames, ShortLines .start frame.raw
  timeless : ∀ frame ∈ frames, frame.Timeless

/-- What is forwarded in two steps is what is forwarded in both. -/
theorem Forwards.trans {before middle after : Engine} {frames later : List Command}
    (h : Forwards link before middle frames) (h' : Forwards link middle after later) :
    Forwards link before after (frames ++ later) := by
  refine ⟨?_, ?_, ?_, ?_, ?_⟩
  · rw [h'.written, h.written, List.flatMap_append, List.append_assoc]
  · rw [Contents.applyAll_append, h.contents]
    exact h'.contents
  · intro frame hframe
    exact (List.mem_append.mp hframe).elim (h.framed frame) (h'.framed frame)
  · intro frame hframe
    exact (List.mem_append.mp hframe).elim (h.short frame) (h'.short frame)
  · intro frame hframe
    exact (List.mem_append.mp hframe).elim (h.timeless frame) (h'.timeless frame)

/-- Where nothing is sent and the contents stay, there are no frames. -/
theorem Forwards.nothing {before after : Engine}
    (hlinks : after.links.written link = before.links.written link)
    (hcontents : after.keyspace.contents = before.keyspace.contents) :
    Forwards link before after [] := by
  refine ⟨?_, ?_, ?_, ?_, ?_⟩
  · rw [hlinks, List.flatMap_nil, List.append_nil]
  · rw [hcontents]
    rfl
  all_goals
    intro frame hframe
    simp at hframe

/-- A quiet change forwards nothing. -/
theorem Quiet.forwards {before after : Engine} (h : Quiet before after) :
    Forwards link before after [] :=
  .nothing (by rw [h.links]) h.keyspace.contents_eq

theorem Feeds.of_quiet {before after : Engine} (h : Feeds since link before)
    (hquiet : Quiet before after) : Feeds since link after := by
  refine ⟨h.steady.of_prunes hquiet.keyspace, ?_, ?_⟩
  · rw [hquiet.links]
    exact h.isOpen
  · rw [hquiet.peers]
    exact h.once

/-- A link that feeds a replica goes on to do so when something is forwarded to all. -/
theorem Feeds.propagate {engine : Engine} (h : Feeds since link engine) (bytes : Bytes) :
    Feeds since link (engine.propagate bytes) := by
  refine ⟨h.steady.of_keyspace (engine.propagate_keyspace bytes), ?_, ?_⟩
  · rw [propagate_isOpen]
    exact h.isOpen
  · rw [propagate_peers]
    exact h.once

/-- Forwarding a command is one frame, if the contents were changed as the command says. -/
theorem Feeds.forwards {before after : Engine} (h : Feeds since link after) {frame : Command}
    (hlinks : after.links = before.links)
    (hcontents : before.keyspace.contents.apply frame = some after.keyspace.contents)
    (hframed : frame.Framed) (hshort : ShortLines .start frame.raw) (htimeless : frame.Timeless) :
    Forwards link before (after.propagate frame.raw) [frame] := by
  refine ⟨?_, ?_, ?_, ?_, ?_⟩
  · rw [written_propagate after frame.raw h.isOpen h.once, hlinks, List.flatMap_singleton]
  · rw [Contents.applyAll, hcontents, propagate_keyspace]
    rfl
  all_goals
    intro other hother
    rw [List.mem_singleton.mp hother]
    assumption

-- The request for an acknowledgement is one frame.
theorem Feeds.ask_forwards {engine : Engine} (h : Feeds since link engine) :
    Forwards link engine (engine.propagate Master.ackRequest) [Master.ask] := by
  rw [← Master.ask_raw]
  refine h.forwards rfl rfl (framed_of_delivered Master.ask_delivered) Master.ask_short ?_
  intro request hrequest
  rw [Master.ask_request] at hrequest
  rw [← Except.ok.inj hrequest]
  trivial

/-- A timeless write that is run at once is one frame if it succeeds, and nothing otherwise. -/
theorem Feeds.runAndForward {engine : Engine} (h : Feeds since link engine) (hle : since ≤ now)
    {command : Command} {request : Request} (hrequest : Request.ofCommand command = .ok request)
    (hwrite : request.isWrite = true) (htimeless : command.Timeless) (hframed : command.Framed)
    (hshort : ShortLines .start command.raw) :
    ∃ frames, Forwards link engine (engine.runAndForward now command.raw request) frames ∧
      Feeds since link (engine.runAndForward now command.raw request) := by
  have hrequestTimeless := htimeless request hrequest
  have heffect := run_effect h.steady.settled h.steady.sound hle hwrite hrequestTimeless
  have hsteady : Steady since (engine.run now request).2 :=
    ⟨run_settled h.steady.settled hle hrequestTimeless, run_sound h.steady.sound now request⟩
  -- The run itself sends nothing; what it leads to is sent afterwards, if it succeeded.
  rcases engine.run_frame now request with ⟨keyspace, readers, hrun⟩
  have hlinks : (engine.run now request).2.links = engine.links := by rw [hrun]
  have hfeeds : Feeds since link (engine.run now request).2 := by
    refine ⟨hsteady, ?_, ?_⟩
    · rw [hlinks]
      exact h.isOpen
    · rw [hrun]
      exact h.once
  unfold Engine.runAndForward
  rcases hresult : engine.run now request with ⟨e | reply, after⟩
  · rw [hresult] at heffect hlinks hfeeds
    refine ⟨[], .nothing ?_ (heffect.of_error rfl), hfeeds⟩
    rw [hlinks]
  · rw [hresult] at heffect hlinks hfeeds
    have hcontents : engine.keyspace.contents.apply command = some after.keyspace.contents := by
      rw [Contents.apply, hrequest]
      exact heffect.of_ok rfl
    exact ⟨[command], hfeeds.forwards hlinks hcontents hframed hshort htimeless,
      hfeeds.propagate command.raw⟩

/-- What a command does is what the frames tell that it sends. -/
theorem Feeds.dispatch {engine : Engine} (h : Feeds since link engine) (hle : since ≤ now)
    {session : Session} {command : Command} (hcommand : session.Replicable command) :
    ∃ frames, Forwards link engine (engine.dispatch session now command).2.1 frames ∧
      Feeds since link (engine.dispatch session now command).2.1 := by
  have hdoes := dispatch_does engine session now command
  revert hdoes
  generalize (engine.dispatch session now command).2.1 = after
  intro hdoes
  cases hdoes with
  | quiet hquiet => exact ⟨[], hquiet.forwards, h.of_quiet hquiet⟩
  | asks hbefore hafter =>
      have hmiddle := h.of_quiet hbefore
      refine ⟨_, (hbefore.forwards.trans hmiddle.ask_forwards).trans hafter.forwards, ?_⟩
      exact (hmiddle.propagate _).of_quiet hafter
  | writes hbefore hclosed hrequest hwrite hafter =>
      rcases (h.of_quiet hbefore).runAndForward hle hrequest hwrite (hcommand.timeless hclosed)
        (framed_of_delivered hcommand.delivered) hcommand.short with ⟨frames, hforwards, hfeeds⟩
      refine ⟨_, (hbefore.forwards.trans hforwards).trans hafter.forwards, ?_⟩
      exact hfeeds.of_quiet hafter
  | @runs queue middle _ hbefore hopen hrequest hafter =>
      -- There is no write in the queue, so running it prunes.
      have hqueue := quiet_of_prunes
        (runQueue_read now queue middle (hcommand.queue queue hopen hrequest))
      have hquiet := (hbefore.trans hqueue).trans hafter
      exact ⟨[], hquiet.forwards, h.of_quiet hquiet⟩

end Engine

/-- What any number of turns do is what the frames tell that they send. -/
theorem Clients.run_forwards {since : UInt64} {link : Nat} (turns : List Turn) :
    ∀ clients : Clients, clients.engine.Feeds since link → (∀ turn ∈ turns, since ≤ turn.now) →
      clients.Throughout Session.Replicable turns →
      ∃ frames, Engine.Forwards link clients.engine (clients.run turns).engine frames ∧
        (clients.run turns).engine.Feeds since link := by
  induction turns with
  | nil => exact fun clients h _ _ => ⟨[], (Engine.Quiet.refl _).forwards, h⟩
  | cons turn rest ih =>
      intro clients h hclock hcommands
      have hrest := ih (clients.take turn)
      have hturn : ∃ frames, Engine.Forwards link clients.engine (clients.take turn).engine frames ∧
          (clients.take turn).engine.Feeds since link := by
        rcases clients.take_engine turn with hquiet | ⟨client, now, command, rfl, hwaits, htake⟩
        · exact ⟨[], hquiet.forwards, h.of_quiet hquiet⟩
        · rw [htake]
          exact h.dispatch (hclock _ List.mem_cons_self)
            (hcommands.1 client now command rfl hwaits)
      rcases hturn with ⟨frames, hforwards, hfeeds⟩
      rcases hrest hfeeds (fun other hother => hclock other (List.mem_cons_of_mem _ hother))
        hcommands.2 with ⟨later, hlater, hlast⟩
      exact ⟨frames ++ later, hforwards.trans hlater, hlast⟩

/-- A replica that holds what its master holds, with no key that expires, holds it again when it has
    processed what the master has sent it since then: however many sessions sent commands, whatever
    the clocks on either side said, in whatever pieces the bytes arrived, and whatever the clients
    of the replica read meanwhile. -/
theorem Follower.mirrors_master {master : Clients} {replica : Follower} {link : Nat}
    {since since' : UInt64} {turns : List Turn} {arrivals : List Arrival}
    (hmaster : master.engine.Reachable) (hreplica : replica.clients.engine.Reachable)
    (hregistered : master.engine.peers.countP (·.link == link) = 1)
    (hopen : master.engine.links.isOpen link = true)
    (hcaughtUp : replica.following.framer = .empty)
    (hequal : ∀ key, replica.clients.engine.keyspace.live? since' key =
      master.engine.keyspace.live? since key)
    (hlasting : ∀ key item, master.engine.keyspace.live? since key = some item →
      item.deadline = .never)
    (hclock : ∀ turn ∈ turns, since ≤ turn.now)
    (hclock' : ∀ arrival ∈ arrivals, since' ≤ arrival.now)
    (hcommands : master.Throughout Session.Replicable turns)
    (hreads : replica.WritesNothing arrivals)
    (hprocessed : (master.run turns).engine.links.written link =
      master.engine.links.written link ++ arrivals.flatMap (·.chunk)) :
    ∀ now now', since ≤ now → since' ≤ now' → ∀ key,
      (replica.run arrivals).clients.engine.keyspace.live? now' key =
        (master.run turns).engine.keyspace.live? now key := by
  intro now now' hnow hnow' key
  have hsettled := Keyspace.settled_of_live? hlasting
  have hsettled' : replica.clients.engine.keyspace.Settled since' := by
    refine Keyspace.settled_of_live? fun key item hitem => hlasting key item ?_
    rw [← hequal key, hitem]
  -- What is live on both sides has no deadline, so the contents are the same to begin with.
  have hcontents : replica.clients.engine.keyspace.contents =
      master.engine.keyspace.contents := by
    funext key
    have hsame := hequal key
    rw [Keyspace.live?_of_settled hsettled (UInt64.le_refl _),
      Keyspace.live?_of_settled hsettled' (UInt64.le_refl _)] at hsame
    exact Option.map_injective (fun a b h => congrArg Item.value h) hsame
  rcases master.run_forwards turns ⟨⟨hsettled, hmaster.sound⟩, hopen, hregistered⟩ hclock
    hcommands with ⟨frames, hforwards, hfeeds⟩
  have hstream : arrivals.flatMap (·.chunk) = frames.flatMap (·.raw) := by
    rw [hforwards.written] at hprocessed
    exact (List.append_cancel_left hprocessed).symm
  -- The pieces that arrived, put together, are the frames that the master sent.
  have hframes := reads_frames frames hforwards.framed
  have hshort := shortLines_frames frames hforwards.framed hforwards.short
  rw [← hstream] at hframes hshort
  have happly := hforwards.contents
  rw [← hcontents] at happly
  have hrun := replica.run_replays arrivals .start [] frames
    (congrArg Following.mk hcaughtUp) rfl ⟨hsettled', hreplica.sound⟩ hframes hshort
    hforwards.timeless happly hclock' hreads
  rw [Keyspace.live?_of_settled hrun.2.settled hnow' key,
    Keyspace.live?_of_settled hfeeds.steady.settled hnow key, hrun.1]

-- The replica was sent something before. A client writes a key, another one waits for the replica,
-- and the bytes arrive in two pieces.
theorem Follower.mirrors_master_write :
    let set : Command := .ofParts .set ["k", "v"]
    let wait : Command := .ofParts .wait ["1", "0"]
    let role : Role := .master { replicationId := "id", peers := [⟨1, 0⟩], nextPeerId := 2 }
    let links : Links := ⟨[⟨Master.ackRequest, true⟩]⟩
    let master : Clients := ⟨{ Engine.start {} .missing "id" with role, links },
      fun _ => {}, fun _ => none⟩
    let replica : Follower := ⟨⟨.start {} .missing "id", fun _ => {}, fun _ => none⟩, {}⟩
    let stream := set.raw ++ Master.ackRequest
    (replica.run [.bytes 5 (stream.take 9), .bytes 6 (stream.drop 9)]).clients.engine.keyspace.live?
        7 "k" =
      (master.run [.command 0 1 set, .command 1 1 wait]).engine.keyspace.live? 2 "k" ∧
    (master.run [.command 0 1 set, .command 1 1 wait]).engine.keyspace.live? 2 "k" =
      some ⟨.text "v", .never⟩ := by
  intro set wait role links master replica stream
  have hset : ∀ session : Session, session.Replicable set := by
    intro session
    have hrequest : Request.ofCommand set = .ok (.set "k" "v" []) := rfl
    have hdrain : (Framer.empty.drainAll [set.raw]).1 = [.ok set] := by decide +kernel
    refine ⟨⟨[set.raw], by rw [hdrain]; exact List.mem_cons_self⟩,
      .of_length_le _ (by decide +kernel), ?_, ?_⟩
    · intro _ request h
      rw [hrequest] at h
      rw [← Except.ok.inj h]
      simp [Request.Timeless]
    · intro queue _ h
      simp [hrequest] at h
  have hwait : ∀ session : Session, session.Replicable wait := by
    intro session
    have hrequest : Request.ofCommand wait = .ok (.waitForReplicas "1" "0") := rfl
    have hdrain : (Framer.empty.drainAll [wait.raw]).1 = [.ok wait] := by decide +kernel
    refine ⟨⟨[wait.raw], by rw [hdrain]; exact List.mem_cons_self⟩,
      .of_length_le _ (by decide +kernel), ?_, ?_⟩
    · intro _ request h
      rw [hrequest] at h
      rw [← Except.ok.inj h]
      trivial
    · intro queue _ h
      simp [hrequest] at h
  have hequal : ∀ key, replica.clients.engine.keyspace.live? 0 key =
      master.engine.keyspace.live? 0 key := fun _ => rfl
  have hlasting : ∀ key item, master.engine.keyspace.live? 0 key = some item →
      item.deadline = .never := by
    intro key item h
    have hnone : master.engine.keyspace.live? 0 key = none := rfl
    simp only [hnone, reduceCtorEq] at h
  have hcommands : master.Throughout Session.Replicable
      [.command 0 1 set, .command 1 1 wait] := by
    refine ⟨?_, ?_, trivial⟩
    · intro client now command hturn _
      rcases Turn.command.inj hturn with ⟨_, _, rfl⟩
      exact hset _
    · intro client now command hturn _
      rcases Turn.command.inj hturn with ⟨_, _, rfl⟩
      exact hwait _
  have hreads : replica.WritesNothing [.bytes 5 (stream.take 9), .bytes 6 (stream.drop 9)] :=
    ⟨fun _ _ _ h => by simp at h, fun _ _ _ h => by simp at h, trivial⟩
  have hmirror := Follower.mirrors_master
    (.surroundings (.start {} .missing "id") role links : master.engine.Reachable)
    (.start {} .missing "id" : replica.clients.engine.Reachable)
    (by decide : master.engine.peers.countP (·.link == 0) = 1) (by decide) rfl hequal
    hlasting (fun _ _ => UInt64.zero_le) (fun _ _ => UInt64.zero_le) hcommands hreads
    (by decide +kernel) 2 7 UInt64.zero_le UInt64.zero_le "k"
  exact ⟨hmirror, by decide +kernel⟩

end KeyValue
