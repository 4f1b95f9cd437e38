import KeyValue.Proofs.Sessions.Threads
import Mathlib.Data.List.Basic

/-!
# What a replica is sent

However the threads of a server interleave, a replica is sent whole frames, and its writes are the
ones that succeeded, in the order in which they ran.

A step moves at most one write on: it runs, it is forwarded, it is sent to a replica, or its lock
is given back (`Step.moves`). So each of the equations below has the same form. What is on its way
and what comes in make up what goes out and what is on its way afterwards (`Run.balances`): writes
that succeeded are forwarded, writes that are forwarded are sent to a replica, and writes that ran
are answered.

The replica has to be registered still at the end, and its link open. Then it was registered once
and its link was open all the time in between, because ids are never given twice and links never
open again. Nothing is assumed about other replicas and their links.

## Main definitions

* `sentOn`, `writesTo`, `forwards`, `succeeded`, `ranBy`, `repliedTo`: What can be seen of a run.
* `Threads.unsent`, `Threads.unforwarded`, `Threads.unanswered`: What is on its way.
* `Threads.Moves`: What a step does to the links, the replicas and the lock for writes.

## Theorems

* `Step.moves`: Every step moves so.
* `Run.balances`: From steps to runs.
* `Run.propagates`: What a replica is sent.
-/

namespace KeyValue

namespace Links

/-- Writing opens no link. -/
theorem length_write (links : Links) (link : Nat) (bytes : Bytes) :
    (links.write link bytes).all.length = links.all.length :=
  List.length_modify ..

/-- Closing a link removes none. -/
theorem length_close (links : Links) (link : Nat) :
    (links.close link).all.length = links.all.length :=
  List.length_modify ..

/-- A link that is closed keeps what was written to it. -/
theorem written_close (links : Links) (link other : Nat) :
    (links.close link).written other = links.written other := by
  unfold written close
  rw [List.getElem?_modify]
  cases links.all[other]? with
  | none => rfl
  | some found =>
      simp only [Option.map_eq_map, Option.map_some, Option.getD_some]
      split <;> rfl

-- Closing a link opens none.
theorem isOpen_of_close {links : Links} {link other : Nat}
    (h : (links.close link).isOpen other = true) : links.isOpen other = true := by
  unfold isOpen close at h
  unfold isOpen
  rw [List.getElem?_modify] at h
  cases hfound : links.all[other]? with
  | none => simp [hfound] at h
  | some found =>
      rw [hfound] at h
      by_cases hlink : link = other
      · simp [hlink] at h
      · simpa [hlink] using h

-- Opening a link leaves the others alone.
theorem connect_of_lt (links : Links) {link : Nat} (h : link < links.all.length) :
    links.connect.2.isOpen link = links.isOpen link ∧
      links.connect.2.written link = links.written link := by
  unfold connect isOpen written
  simp only [List.getElem?_append_left h, and_self]

end Links

namespace Mark

/-- The frame that is sent on a link, with the replica that it is sent to. -/
def sentOn (link : Nat) : Mark → List (Peer × Frame)
  | delivered peer frame => if peer.link = link then [(peer, frame)] else []
  | _ => []

/-- The write that is sent to a replica. -/
def writesTo (peer : Peer) : Mark → List Command
  | delivered other frame => if other = peer then frame.writes else []
  | _ => []

/-- The write that starts to be forwarded. -/
def forwards : Mark → List Command
  | forwarded command => [command]
  | _ => []

/-- The write that has changed the keyspace, and whose response is no error. -/
def succeeded : Mark → List Command
  | ran _ command response => if response.isFailure then [] else [command]
  | _ => []

/-- The write that a client runs, with its response. -/
def ranBy (client : Nat) : Mark → List (Command × Response)
  | ran other command response => if other = client then [(command, response)] else []
  | _ => []

/-- The write that a client is answered, with its response. -/
def repliedTo (client : Nat) : Mark → List (Command × Response)
  | replied other command response => if other = client then [(command, response)] else []
  | _ => []

end Mark

/-- The frames sent on a link, each with the replica that it was sent to. -/
def sentOn (link : Nat) (log : List Mark) : List (Peer × Frame) := log.flatMap (·.sentOn link)

/-- The writes sent to a replica. -/
def writesTo (peer : Peer) (log : List Mark) : List Command :=
  ((sentOn peer.link log).filter (·.1 == peer)).flatMap (·.2.writes)

/-- The writes that started to be forwarded. -/
def forwards (log : List Mark) : List Command := log.flatMap (·.forwards)

/-- The writes that changed the keyspace, and whose response is no error. -/
def succeeded (log : List Mark) : List Command := log.flatMap (·.succeeded)

/-- The writes that a client ran at once, with their responses. -/
def ranBy (client : Nat) (log : List Mark) : List (Command × Response) :=
  log.flatMap (·.ranBy client)

/-- The writes that a client was answered, with their responses. -/
def repliedTo (client : Nat) (log : List Mark) : List (Command × Response) :=
  log.flatMap (·.repliedTo client)

/-- What is written to a replica is collected mark by mark. -/
theorem writesTo_eq (peer : Peer) (log : List Mark) :
    writesTo peer log = log.flatMap (·.writesTo peer) := by
  unfold writesTo sentOn
  rw [List.filter_flatMap, List.flatMap_assoc]
  refine List.flatMap_congr fun mark _ => ?_
  cases mark with
  | delivered other frame =>
      simp only [Mark.sentOn, Mark.writesTo]
      by_cases hother : other = peer
      · simp [hother]
      · by_cases hlink : other.link = peer.link <;> simp [hother, hlink]
  | _ => rfl

namespace Threads

/-- The writes that have not been sent to a replica, of those that are being forwarded. -/
def unsent (threads : Threads) (peer : Peer) : List Command :=
  match threads.lock with
  | .forwards write left => (left.filter (· == peer)).map fun _ => write.command
  | _ => []

/-- The write that succeeded and is not forwarded yet. -/
def unforwarded (threads : Threads) : List Command :=
  match threads.lock with
  | .ran ⟨_, command, _, .ok _⟩ => [command]
  | _ => []

end Threads

/-- The response to a write that a thread knows. -/
def Task.unanswered : Task → List (Command × Response)
  | wrote command _ response => [(command, response)]
  | _ => []

/-- The response to a write of a client that still holds the lock. -/
def WriteLock.unanswered (client : Nat) : WriteLock → List (Command × Response)
  | free => []
  | ran write | forwards write _ =>
    if write.client = client then [(write.command, .ofExcept write.result)] else []

/-- Nothing is sent, and no replica comes or goes. -/
structure Engine.Still (before after : Engine) : Prop where
  links : after.links = before.links
  registry : after.registry = before.registry

/-- A quiet change sends nothing. -/
theorem Engine.Quiet.still {before after : Engine} (h : Quiet before after) :
    before.Still after :=
  ⟨h.links, h.registry⟩

theorem Engine.Still.refl (engine : Engine) : engine.Still engine := ⟨rfl, rfl⟩

/-- A request changes the keyspace and the readers, so it is still. -/
theorem Engine.Still.of_frame {engine after : Engine}
    (h : ∃ keyspace readers, after = { engine with keyspace, readers }) : engine.Still after := by
  rcases h with ⟨keyspace, readers, rfl⟩
  exact ⟨rfl, rfl⟩

namespace Threads

/-- The writes that a client ran at once and is not answered yet. -/
def unanswered (threads : Threads) (client : Nat) : List (Command × Response) :=
  (threads.task client).unanswered ++ threads.lock.unanswered client

/-- What a step does to the links, the replicas and the lock for writes. -/
inductive Moves (before : Threads) : Mark → Threads → Prop
  /-- Nothing. -/
  | rests {after : Threads} (hengine : before.engine.Still after.engine)
      (hlock : after.lock = before.lock) : Moves before .nothing after
  /-- A write is answered. -/
  | replies {after : Threads} {client : Nat} {command : Command} {response : Response}
      (hengine : before.engine.Still after.engine) (hlock : after.lock = before.lock) :
      Moves before (.replied client command response) after
  /-- A write runs. -/
  | runs {after : Threads} (write : Write) (hengine : before.engine.Still after.engine)
      (hbefore : before.lock = .free) (hlock : after.lock = .ran write)
      (hreply : ∀ reply, write.result = .ok reply → reply.isError = false) :
      Moves before (.ran write.client write.command (.ofExcept write.result)) after
  /-- A write that failed gives the lock back. -/
  | fails {after : Threads} {write : Write} {e : Error}
      (hengine : before.engine.Still after.engine) (hbefore : before.lock = .ran write)
      (hresult : write.result = .error e) (hlock : after.lock = .free) :
      Moves before .nothing after
  /-- A write starts to be forwarded. -/
  | forwards {after : Threads} {write : Write} {reply : Reply}
      (hengine : before.engine.Still after.engine) (hbefore : before.lock = .ran write)
      (hresult : write.result = .ok reply)
      (hlock : after.lock = .forwards write before.engine.peers) :
      Moves before (.forwarded write.command) after
  /-- A write is sent to the next replica. -/
  | delivers {after : Threads} {mark : Mark} {write : Write} {peer : Peer} {left : List Peer}
      (hmark : mark = before.sent peer (.write write.command))
      (hengine : after.engine = before.send peer (.write write.command))
      (hbefore : before.lock = .forwards write (peer :: left))
      (hlock : after.lock = .forwards write left) : Moves before mark after
  /-- A replica is asked. -/
  | asks {after : Threads} {mark : Mark} {peer : Peer} (hmark : mark = before.sent peer .ask)
      (hengine : after.engine = before.send peer .ask) (hlock : after.lock = before.lock) :
      Moves before mark after
  /-- A write was sent to all, and gives the lock back. -/
  | releases {after : Threads} {write : Write} (hengine : before.engine.Still after.engine)
      (hbefore : before.lock = .forwards write []) (hlock : after.lock = .free) :
      Moves before .nothing after
  | connects {after : Threads} (hregistry : after.engine.registry = before.engine.registry)
      (hlinks : after.engine.links = before.engine.links.connect.2)
      (hlock : after.lock = before.lock) : Moves before .nothing after
  | closes {after : Threads} {link : Nat}
      (hregistry : after.engine.registry = before.engine.registry)
      (hlinks : after.engine.links = before.engine.links.close link)
      (hlock : after.lock = before.lock) : Moves before .nothing after
  | registers {after : Threads} {peer : Peer} (hid : peer.id = before.engine.registry.2)
      (hlink : peer.link < before.engine.links.all.length)
      (hregistry : after.engine.registry =
        (before.engine.peers ++ [peer], before.engine.registry.2 + 1))
      (hlinks : after.engine.links = before.engine.links) (hlock : after.lock = before.lock)
      (hunsending : ∀ write left, before.lock ≠ .forwards write left) :
      Moves before (.registered peer) after
  | removes {after : Threads} (id : Nat)
      (hregistry : after.engine.registry =
        (before.engine.peers.filter (·.id != id), before.engine.registry.2))
      (hlinks : after.engine.links = before.engine.links) (hlock : after.lock = before.lock) :
      Moves before .nothing after

/-- Every step moves so. -/
theorem Step.moves {before after : Threads} {mark : Mark} (h : Step before mark after) :
    Moves before mark after := by
  -- Whatever is not about the lock, a replica or a link is still.
  cases h with
  | record command htask => exact .rests (Engine.record_quiet _ command).still rfl
  | handle now htask hroute hhandle =>
      have hquiet := Engine.handle_of_quick now hroute
      rw [hhandle] at hquiet
      exact .rests hquiet.still rfl
  | @run client command index request result engine now htask hroute hlock hrun =>
      have hframe := Engine.Still.of_frame (before.engine.run_frame now request)
      have hreply : ∀ reply, (before.engine.run now request).1 = .ok reply →
          reply.isError = false :=
        fun _ => Engine.run_write_ok before.engine now (Engine.route_writes hroute).2.2
      rw [hrun] at hframe hreply
      exact .runs ⟨client, command, index, result⟩ hframe hlock rfl hreply
  | fail hlock hresult => exact .fails (.refl _) hlock hresult rfl
  | forward hlock hresult => exact .forwards (.refl _) hlock hresult rfl
  | deliver hlock => exact .delivers rfl rfl hlock rfl
  | release hlock => exact .releases (.refl _) hlock rfl
  | reply htask => exact .replies (Engine.conclude_quiet _ _ _).still rfl
  | conclude htask => exact .rests (Engine.conclude_quiet _ _ _).still rfl
  | @install client command index wait timeout now htask hroute =>
      exact .rests
        (Engine.quiet_updateMaster before.engine (·.install wait) fun _ => rfl).still rfl
  | ask htask => exact .rests (.refl _) rfl
  | deliverAsk htask => exact .asks rfl rfl rfl
  | asked htask => exact .rests (.refl _) rfl
  | poll now htask => exact .rests (Engine.poll_quiet _ now _).still rfl
  | expire now htask => exact .rests (Engine.expire_quiet _ now _).still rfl
  | start htask hroute => exact .rests (.refl _) rfl
  | @runNext client command rest replies index now htask hlock =>
      exact .rests (.of_frame (before.engine.runCommand_frame now command)) rfl
  | finish htask => exact .rests (.refl _) rfl
  | connect => exact .connects rfl rfl rfl
  | close link => exact .closes rfl rfl rfl
  | register hrole hlink hunsending =>
      refine .registers ?_ hlink ?_ rfl rfl hunsending.1
      · simp only [Engine.registry, hrole, Master.registry]
      · simp only [Engine.peers, Engine.registry, hrole, Master.registry, Master.register]
  | remove id hunsending =>
      refine .removes id ?_ ?_ rfl
      · simp only [Engine.peers, Engine.registry, Engine.updateMaster]
        cases hrole : before.engine.role with
        | master master => rfl
        | replica replica => simp [hrole]
      · simp only [Engine.updateMaster]
        cases before.engine.role <;> rfl

/-- What is on its way and what comes in make up what goes out and what is on its way afterwards, if
    that holds of every step. A condition that steps preserve may be assumed of the first state, and
    one that held before a step if it holds after it may be assumed of the last one. -/
theorem Run.balances {α : Type} (held : Threads → List α) (given taken : Mark → List α)
    (onward backward : Threads → Prop)
    (honward : ∀ {before mark after}, Step before mark after → onward before → onward after)
    (hbackward : ∀ {before mark after}, Step before mark after → onward before →
      backward after → backward before)
    (hstep : ∀ {before mark after}, Step before mark after → onward before → backward before →
      held before ++ given mark = taken mark ++ held after)
    {before after : Threads} {log : List Mark} (h : Run before log after)
    (hbefore : onward before) (hafter : backward after) :
    held before ++ log.flatMap given = log.flatMap taken ++ held after ∧ backward before := by
  induction h with
  | done threads => exact ⟨by simp, hafter⟩
  | step hfirst _ ih =>
      rcases ih (honward hfirst hbefore) hafter with ⟨hrest, hmiddle⟩
      have hstart := hbackward hfirst hbefore hmiddle
      refine ⟨?_, hstart⟩
      rw [List.flatMap_cons, List.flatMap_cons, ← List.append_assoc,
        hstep hfirst hbefore hstart, List.append_assoc, hrest, List.append_assoc]

-- A condition that every step preserves holds after a run.
theorem Run.preserves {condition : Threads → Prop}
    (hstep : ∀ {before mark after}, Step before mark after → condition before → condition after)
    {before after : Threads} {log : List Mark} (h : Run before log after)
    (hbefore : condition before) : condition after := by
  induction h with
  | done threads => exact hbefore
  | step hfirst _ ih => exact ih (hstep hfirst hbefore)

/-- A step that sends a frame is seen, unless the link of the replica is closed. -/
theorem sent_cases (threads : Threads) (peer : Peer) (frame : Frame) :
    threads.sent peer frame = .delivered peer frame ∨ threads.sent peer frame = .nothing := by
  unfold sent
  split
  · exact Or.inl rfl
  · exact Or.inr rfl

/-- Writes that succeed are forwarded. -/
theorem Moves.forwards_succeeded {before after : Threads} {mark : Mark}
    (h : Moves before mark after) :
    before.unforwarded ++ mark.succeeded = mark.forwards ++ after.unforwarded := by
  cases h with
  | runs write hengine hbefore hlock hreply =>
      -- A write that succeeded waits to be forwarded, and one that failed does not count.
      rcases write with ⟨client, command, index, e | reply⟩
      · simp [unforwarded, hbefore, hlock, Mark.succeeded, Mark.forwards, Response.ofExcept,
          Response.isFailure, Reply.ofExcept, Reply.ofError, Reply.isError]
      · simp [unforwarded, hbefore, hlock, Mark.succeeded, Mark.forwards, Response.ofExcept,
          Response.isFailure, Reply.ofExcept, hreply reply rfl]
  | @fails _ write e hengine hbefore hresult hlock =>
      rcases write with ⟨client, command, index, result⟩
      subst hresult
      simp [unforwarded, hbefore, hlock, Mark.succeeded, Mark.forwards]
  | @forwards _ write reply hengine hbefore hresult hlock =>
      rcases write with ⟨client, command, index, result⟩
      subst hresult
      simp [unforwarded, hbefore, hlock, Mark.succeeded, Mark.forwards]
  | @delivers _ _ write peer left hmark hengine hbefore hlock =>
      rcases before.sent_cases peer (.write write.command) with hsent | hsent <;>
        simp [unforwarded, hbefore, hlock, hmark, hsent, Mark.succeeded, Mark.forwards]
  | @asks _ _ peer hmark hengine hlock =>
      rcases before.sent_cases peer .ask with hsent | hsent <;>
        simp [unforwarded, hlock, hmark, hsent, Mark.succeeded, Mark.forwards]
  | releases hengine hbefore hlock =>
      simp [unforwarded, hbefore, hlock, Mark.succeeded, Mark.forwards]
  | rests _ hlock | replies _ hlock | connects _ _ hlock | closes _ _ hlock
  | registers _ _ _ _ hlock _ | removes _ _ _ hlock =>
      simp [unforwarded, hlock, Mark.succeeded, Mark.forwards]

/-- Ids are given in order. -/
def Numbered (threads : Threads) : Prop :=
  ∀ peer ∈ threads.engine.peers, peer.id < threads.engine.registry.2

/-- A replica that was registered: its id is not given again, it is not registered twice, and its
    link exists. -/
structure Knows (peer : Peer) (threads : Threads) : Prop where
  id : peer.id < threads.engine.registry.2
  once : threads.engine.peers.count peer ≤ 1
  link : peer.link < threads.engine.links.all.length

/-- A replica that receives what it is sent. -/
structure Serves (peer : Peer) (threads : Threads) : Prop where
  registered : peer ∈ threads.engine.peers
  isOpen : threads.engine.links.isOpen peer.link = true

/-- What a step does to the links and the replicas, and not to the lock. -/
theorem Moves.registry {before after : Threads} {mark : Mark} (h : Moves before mark after) :
    (after.engine.registry = before.engine.registry ∨
      (∃ peer, mark = .registered peer ∧ peer.id = before.engine.registry.2 ∧
        after.engine.registry = (before.engine.peers ++ [peer], before.engine.registry.2 + 1)) ∨
      ∃ id, after.engine.registry =
        (before.engine.peers.filter (·.id != id), before.engine.registry.2)) := by
  cases h with
  | rests hengine _ | replies hengine _ | runs _ hengine _ _ _ | fails hengine _ _ _
  | forwards hengine _ _ _ | releases hengine _ _ => exact Or.inl hengine.registry
  | delivers _ hengine _ _ | asks _ hengine _ =>
      rw [hengine]
      exact Or.inl rfl
  | connects hregistry _ _ | closes hregistry _ _ => exact Or.inl hregistry
  | registers hid _ hregistry _ _ _ => exact Or.inr (Or.inl ⟨_, rfl, hid, hregistry⟩)
  | removes _ hregistry _ _ => exact Or.inr (Or.inr ⟨_, hregistry⟩)

/-- What a step does to the links. -/
theorem Moves.links {before after : Threads} {mark : Mark} (h : Moves before mark after) :
    (after.engine.links = before.engine.links ∧ ∀ link, mark.sentOn link = []) ∨
      (∃ peer frame, mark = before.sent peer frame ∧
        after.engine.links = before.engine.links.write peer.link frame.bytes) ∨
      (mark = .nothing ∧ after.engine.links = before.engine.links.connect.2) ∨
      ∃ link, mark = .nothing ∧ after.engine.links = before.engine.links.close link := by
  cases h with
  | rests hengine _ | replies hengine _ | runs _ hengine _ _ _ | fails hengine _ _ _
  | forwards hengine _ _ _ | releases hengine _ _ => exact Or.inl ⟨hengine.links, fun _ => rfl⟩
  | registers _ _ _ hlinks _ _ | removes _ _ hlinks _ => exact Or.inl ⟨hlinks, fun _ => rfl⟩
  | delivers hmark hengine _ _ | asks hmark hengine _ =>
      exact Or.inr (Or.inl ⟨_, _, hmark, by rw [hengine]; rfl⟩)
  | connects _ hlinks _ => exact Or.inr (Or.inr (Or.inl ⟨rfl, hlinks⟩))
  | closes _ hlinks _ => exact Or.inr (Or.inr (Or.inr ⟨_, rfl, hlinks⟩))

/-- The numbers of the replicas stay below the next one. -/
theorem Moves.numbered {before after : Threads} {mark : Mark} (h : Moves before mark after)
    (hbefore : before.Numbered) : after.Numbered := by
  intro peer hpeer
  unfold Engine.peers at hpeer
  rcases h.registry with hregistry | ⟨added, _, hid, hregistry⟩ | ⟨id, hregistry⟩
  · rw [hregistry] at hpeer ⊢
    exact hbefore peer hpeer
  · rw [hregistry] at hpeer ⊢
    rcases List.mem_append.mp hpeer with hold | hnew
    · exact Nat.lt_succ_of_lt (hbefore peer hold)
    · rw [List.mem_singleton.mp hnew, hid]
      exact Nat.lt_succ_self _
  · rw [hregistry] at hpeer ⊢
    exact hbefore peer (List.mem_of_mem_filter hpeer)

/-- A link that exists goes on existing, does not open again, and while it is open it receives what
    is sent on it. -/
theorem Moves.link {before after : Threads} {mark : Mark} (h : Moves before mark after) {link : Nat}
    (hlink : link < before.engine.links.all.length) :
    link < after.engine.links.all.length ∧
      (after.engine.links.isOpen link = true → before.engine.links.isOpen link = true) ∧
      (before.engine.links.isOpen link = true →
        after.engine.links.written link = before.engine.links.written link ++
          (mark.sentOn link).flatMap (·.2.bytes)) := by
  rcases h.links with ⟨hlinks, hmark⟩ | ⟨peer, frame, hmark, hlinks⟩ | ⟨hmark, hlinks⟩ |
    ⟨closed, hmark, hlinks⟩
  · rw [hlinks, hmark link]
    exact ⟨hlink, id, fun _ => (List.append_nil _).symm⟩
  · refine ⟨?_, ?_, fun hopen => ?_⟩
    · rw [hlinks, Links.length_write]
      exact hlink
    · rw [hlinks, Links.isOpen_write]
      exact id
    · rw [hlinks, Links.written_write, hmark, sent]
      -- The frame goes to this link, or to another one.
      by_cases hpeer : link = peer.link
      · subst hpeer
        simp [hopen, Mark.sentOn]
      · have hne : ¬ peer.link = link := fun heq => hpeer heq.symm
        rw [if_neg fun hand => hpeer hand.1]
        split <;> simp [Mark.sentOn, hne]
  · rcases before.engine.links.connect_of_lt hlink with ⟨hopen, hwritten⟩
    refine ⟨?_, ?_, fun _ => ?_⟩
    · rw [hlinks]
      simp only [Links.connect, List.length_append]
      omega
    · rw [hlinks, hopen]
      exact id
    · rw [hlinks, hwritten, hmark]
      exact (List.append_nil _).symm
  · refine ⟨?_, ?_, fun _ => ?_⟩
    · rw [hlinks, Links.length_close]
      exact hlink
    · rw [hlinks]
      exact Links.isOpen_of_close
    · rw [hlinks, Links.written_close, hmark]
      exact (List.append_nil _).symm

/-- A replica that is known stays known, though it may be gone. -/
theorem Moves.knows {before after : Threads} {mark : Mark} (h : Moves before mark after)
    {peer : Peer} (hbefore : before.Knows peer) : after.Knows peer := by
  have hlink := (h.link hbefore.link).1
  have honce := hbefore.once
  unfold Engine.peers at honce
  rcases h.registry with hregistry | ⟨added, _, hid, hregistry⟩ | ⟨id, hregistry⟩
  · refine ⟨?_, ?_, hlink⟩
    · rw [hregistry]
      exact hbefore.id
    · rw [Engine.peers, hregistry]
      exact honce
  · -- The new replica has a new id, so it is another one.
    have hne : added ≠ peer := by
      rintro rfl
      have hlt := hbefore.id
      omega
    refine ⟨?_, ?_, hlink⟩
    · rw [hregistry]
      exact Nat.lt_succ_of_lt hbefore.id
    · rw [Engine.peers, hregistry, Engine.peers, List.count_append, List.count_singleton,
        if_neg (by simpa using hne)]
      exact honce
  · refine ⟨?_, ?_, hlink⟩
    · rw [hregistry]
      exact hbefore.id
    · rw [Engine.peers, hregistry]
      exact Nat.le_trans (List.filter_sublist.count_le peer) honce

/-- A replica that is served after a step was served before, if it was known: a number that is gone
    does not come back. -/
theorem Moves.serves {before after : Threads} {mark : Mark} (h : Moves before mark after)
    {peer : Peer} (hbefore : before.Knows peer) (hafter : after.Serves peer) :
    before.Serves peer := by
  refine ⟨?_, (h.link hbefore.link).2.1 hafter.isOpen⟩
  have hpeer := hafter.registered
  unfold Engine.peers at hpeer
  rcases h.registry with hregistry | ⟨added, _, hid, hregistry⟩ | ⟨id, hregistry⟩
  · rw [hregistry] at hpeer
    exact hpeer
  · -- It was registered before, because its id was given before.
    rw [hregistry] at hpeer
    refine (List.mem_append.mp hpeer).resolve_right fun hnew => ?_
    have hlt := hbefore.id
    rw [List.mem_singleton.mp hnew, hid] at hlt
    exact Nat.lt_irrefl _ hlt
  · rw [hregistry] at hpeer
    exact List.mem_of_mem_filter hpeer

-- Writes that are forwarded are sent to a replica that receives them.
theorem Moves.sends_forwarded {before after : Threads} {mark : Mark}
    (h : Moves before mark after) {peer : Peer} (hknows : before.Knows peer)
    (hserves : before.Serves peer) :
    before.unsent peer ++ mark.forwards = mark.writesTo peer ++ after.unsent peer := by
  cases h with
  | @forwards _ write reply hengine hbefore hresult hlock =>
      -- The replica is one of those that the write is to be sent to, and only once.
      have honce : before.engine.peers.count peer = 1 :=
        Nat.le_antisymm hknows.once (List.count_pos_iff.mpr hserves.registered)
      simp [unsent, hbefore, hlock, Mark.forwards, Mark.writesTo, List.filter_beq, honce]
  | @delivers _ _ write other left hmark hengine hbefore hlock =>
      by_cases hpeer : other = peer
      · subst hpeer
        rw [sent, if_pos hserves.isOpen] at hmark
        simp [unsent, hbefore, hlock, hmark, Mark.forwards, Mark.writesTo, Frame.writes]
      · rcases before.sent_cases other (.write write.command) with hsent | hsent <;>
          simp [unsent, hbefore, hlock, hmark, hsent, hpeer, Mark.forwards, Mark.writesTo]
  | @asks _ _ other hmark hengine hlock =>
      rcases before.sent_cases other .ask with hsent | hsent <;>
        simp [unsent, hlock, hmark, hsent, Mark.forwards, Mark.writesTo, Frame.writes]
  | runs _ _ hbefore hlock _ | fails _ hbefore _ hlock | releases _ hbefore hlock =>
      simp [unsent, hbefore, hlock, Mark.forwards, Mark.writesTo]
  | rests _ hlock | replies _ hlock | connects _ _ hlock | closes _ _ hlock
  | registers _ _ _ _ hlock _ | removes _ _ _ hlock =>
      simp [unsent, hlock, Mark.forwards, Mark.writesTo]

/-- The thread whose write holds the lock does nothing else. -/
def Busy (threads : Threads) : Prop :=
  ∀ write, (threads.lock = .ran write ∨ ∃ left, threads.lock = .forwards write left) →
    threads.task write.client = .writes

/-- A thread that does not hold the lock goes on. -/
theorem Busy.go {threads : Threads} (h : threads.Busy) {client : Nat}
    (hclient : threads.task client ≠ .writes) (session : Nat → Session) (engine : Engine)
    (task : Task) : ({ threads with session }.go client engine task).Busy := by
  intro write hlock
  have hwrites := h write hlock
  have hne : write.client ≠ client := by
    rintro heq
    exact hclient (heq ▸ hwrites)
  simp only [Threads.go, Function.update_of_ne hne]
  exact hwrites

/-- Whoever holds the lock for writes is with a write of its own. -/
theorem Step.busy {before after : Threads} {mark : Mark} (h : Step before mark after)
    (hbefore : before.Busy) : after.Busy := by
  cases h with
  | record _ htask | handle _ htask _ _ | reply htask | conclude htask | install _ htask _
  | ask htask | deliverAsk htask | asked htask | poll _ htask | expire _ htask | start htask _
  | runNext _ htask _ | finish htask => exact hbefore.go (by simp [htask]) _ _ _
  | run now htask hroute hlock hrun =>
      -- The thread that takes the lock is the one that is busy now.
      rintro write (hran | ⟨left, hforwards⟩)
      · rw [← WriteLock.ran.inj hran]
        exact go_task ..
      · simp [Threads.go] at hforwards
  | fail hlock hresult | release hlock =>
      rintro write (hran | ⟨left, hforwards⟩)
      · simp [Threads.go] at hran
      · simp [Threads.go] at hforwards
  | forward hlock hresult =>
      rintro write (hran | ⟨left, hforwards⟩)
      · simp at hran
      · rw [← (WriteLock.forwards.inj hforwards).1]
        exact hbefore _ (Or.inl hlock)
  | deliver hlock =>
      rintro write (hran | ⟨left, hforwards⟩)
      · simp at hran
      · rw [← (WriteLock.forwards.inj hforwards).1]
        exact hbefore _ (Or.inr ⟨_, hlock⟩)
  | connect | close link | register _ _ _ | remove id _ => exact hbefore

-- A thread that knows no response to a write goes on, and then knows none either.
theorem unanswered_go (threads : Threads) {client : Nat} {task : Task} (other : Nat)
    (hbefore : (threads.task client).unanswered = []) (hafter : task.unanswered = [])
    (session : Nat → Session) (engine : Engine) :
    ({ threads with session }.go client engine task).unanswered other =
      threads.unanswered other := by
  simp only [unanswered, Threads.go, Function.update_apply]
  by_cases hother : other = client
  · rw [if_pos hother, hother, hbefore, hafter]
  · rw [if_neg hother]

-- A write gives the lock back, and its thread knows the response.
theorem unanswered_release {threads : Threads} {write : Write} (hbusy : threads.Busy)
    (hlock : threads.lock = .ran write ∨ ∃ left, threads.lock = .forwards write left)
    (client : Nat) :
    ({ threads with lock := .free }.go write.client threads.engine
      (.wrote write.command write.index (.ofExcept write.result))).unanswered client =
        threads.unanswered client := by
  have hwrites := hbusy write hlock
  have hheld : threads.lock.unanswered client =
      if write.client = client then [(write.command, .ofExcept write.result)] else [] := by
    rcases hlock with hlock | ⟨left, hlock⟩ <;> rw [hlock] <;> rfl
  simp only [unanswered, Threads.go, Function.update_apply, hheld]
  -- The response moves from the lock to the task of the thread that held it.
  by_cases hclient : client = write.client
  · subst hclient
    simp [hwrites, Task.unanswered, WriteLock.unanswered]
  · have hne : ¬ write.client = client := fun heq => hclient heq.symm
    simp [hclient, hne, WriteLock.unanswered]

-- Writes that ran are answered.
theorem Step.replies_ran {before after : Threads} {mark : Mark} (h : Step before mark after)
    (hbusy : before.Busy) (client : Nat) :
    before.unanswered client ++ mark.ranBy client =
      mark.repliedTo client ++ after.unanswered client := by
  -- Most steps neither run nor answer a write.
  have hquiet : before.unanswered client = after.unanswered client → mark.ranBy client = [] →
      mark.repliedTo client = [] →
      before.unanswered client ++ mark.ranBy client =
        mark.repliedTo client ++ after.unanswered client := by
    intro hsame hran hreplied
    rw [hsame, hran, hreplied, List.append_nil, List.nil_append]
  -- And most of these are steps of a thread that knows no response before or after.
  have hgo : ∀ {other : Nat} {task : Task} {session : Nat → Session} {engine : Engine},
      (before.task other).unanswered = [] → task.unanswered = [] →
      before.unanswered client =
        ({ before with session }.go other engine task).unanswered client :=
    fun hbefore hafter => (unanswered_go before client hbefore hafter _ _).symm
  cases h with
  | record _ htask | conclude htask | install _ htask _ | ask htask | asked htask
  | expire _ htask | start htask _ | runNext _ htask _ | finish htask =>
      exact hquiet (hgo (by rw [htask]; rfl) rfl) rfl rfl
  | @handle _ _ _ dispatch _ _ _ htask _ _ =>
      exact hquiet (hgo (by rw [htask]; rfl) (by cases dispatch <;> rfl)) rfl rfl
  | poll now htask =>
      refine hquiet (hgo (by rw [htask]; rfl) ?_) rfl rfl
      split <;> rfl
  | @deliverAsk other pending index peer left htask =>
      have hsame : before.unanswered client =
          (before.go other (before.send peer .ask) (.asks pending index left)).unanswered client :=
        hgo (by rw [htask]; rfl) rfl
      rcases before.sent_cases peer .ask with hsent | hsent <;> rw [hsent] at hquiet ⊢ <;>
        exact hquiet hsame rfl rfl
  | @run other command index request result engine now htask hroute hlock hrun =>
      simp only [unanswered, Threads.go, Function.update_apply, hlock, Mark.ranBy, Mark.repliedTo,
        WriteLock.unanswered]
      by_cases hclient : client = other
      · subst hclient
        simp [htask, Task.unanswered]
      · have hne : ¬ other = client := fun heq => hclient heq.symm
        simp [hclient, hne]
  | fail hlock hresult => exact hquiet (unanswered_release hbusy (Or.inl hlock) client).symm rfl rfl
  | release hlock =>
      exact hquiet (unanswered_release hbusy (Or.inr ⟨_, hlock⟩) client).symm rfl rfl
  | forward hlock hresult =>
      refine hquiet ?_ rfl rfl
      simp only [unanswered, hlock, WriteLock.unanswered]
  | @deliver write peer left hlock =>
      have hsame : before.unanswered client = Threads.unanswered
          { before with
            engine := before.send peer (.write write.command), lock := .forwards write left }
          client := by
        simp only [unanswered, hlock, WriteLock.unanswered]
      rcases before.sent_cases peer (.write write.command) with hsent | hsent <;>
        rw [hsent] at hquiet ⊢ <;> exact hquiet hsame rfl rfl
  | @reply other command index response htask =>
      simp only [unanswered, Threads.go, Function.update_apply, Mark.ranBy, Mark.repliedTo]
      by_cases hclient : client = other
      · subst hclient
        simp [htask, Task.unanswered]
      · have hne : ¬ other = client := fun heq => hclient heq.symm
        simp [hclient, hne]
  | connect | close link | register _ _ _ | remove id _ => exact hquiet rfl rfl rfl

/-- Whatever write was sent to a replica had started to be forwarded before, and so had the one that
    is being forwarded. -/
structure Accounted (log : List Mark) (threads : Threads) : Prop where
  delivered : ∀ peer command, .delivered peer (.write command) ∈ log → .forwarded command ∈ log
  lock : ∀ write left, threads.lock = .forwards write left → .forwarded write.command ∈ log

/-- A step that sends no write keeps the account. -/
theorem Accounted.extend {log : List Mark} {before after : Threads} (h : before.Accounted log)
    {mark : Mark} (hmark : ∀ peer command, mark ≠ .delivered peer (.write command))
    (hlock : ∀ write left, after.lock = .forwards write left → before.lock = .forwards write left) :
    after.Accounted (log ++ [mark]) := by
  refine ⟨fun peer command hdelivered => ?_, fun write left hforwards => ?_⟩
  · rcases List.mem_append.mp hdelivered with hold | hnew
    · exact List.mem_append_left _ (h.delivered peer command hold)
    · exact absurd (List.mem_singleton.mp hnew).symm (hmark peer command)
  · exact List.mem_append_left _ (h.lock write left (hlock write left hforwards))

/-- Each move adds to what was run, forwarded and sent exactly what it is seen to do. -/
theorem Moves.accounted {log : List Mark} {before after : Threads} {mark : Mark}
    (h : Moves before mark after) (hbefore : before.Accounted log) :
    after.Accounted (log ++ [mark]) := by
  cases h with
  | rests _ hlock | replies _ hlock | connects _ _ hlock | closes _ _ hlock
  | registers _ _ _ _ hlock _ | removes _ _ _ hlock =>
      refine hbefore.extend (by simp) fun write left hforwards => ?_
      rw [← hlock]
      exact hforwards
  | runs _ _ _ hlock _ | fails _ _ _ hlock | releases _ _ hlock =>
      exact hbefore.extend (by simp) fun write left hforwards => by simp [hlock] at hforwards
  | @asks _ _ peer hmark _ hlock =>
      refine hbefore.extend ?_ fun write left hforwards => ?_
      · rcases before.sent_cases peer .ask with hsent | hsent <;> simp [hmark, hsent]
      · rw [← hlock]
        exact hforwards
  | @forwards _ write reply _ _ _ hlock =>
      refine ⟨fun peer command hdelivered => ?_, fun other left hforwards => ?_⟩
      · refine List.mem_append_left _ (hbefore.delivered peer command ?_)
        simpa using hdelivered
      · rw [hlock] at hforwards
        rw [← (WriteLock.forwards.inj hforwards).1]
        exact List.mem_append_right _ (List.mem_singleton_self _)
  | @delivers _ _ write peer left hmark _ hlockBefore hlock =>
      have hforwarded := hbefore.lock write _ hlockBefore
      refine ⟨fun other command hdelivered => ?_, fun other rest hforwards => ?_⟩
      · -- What is sent now is the write that holds the lock, and it is accounted for.
        refine List.mem_append_left _ ?_
        rcases List.mem_append.mp hdelivered with hold | hnew
        · exact hbefore.delivered other command hold
        · have hsame := List.mem_singleton.mp hnew
          rcases before.sent_cases peer (.write write.command) with hsent | hsent
          · rw [hmark, hsent] at hsame
            rw [Frame.write.inj (Mark.delivered.inj hsame).2]
            exact hforwarded
          · simp [hmark, hsent] at hsame
      · rw [hlock] at hforwards
        rw [← (WriteLock.forwards.inj hforwards).1]
        exact List.mem_append_left _ hforwarded

/-- The accounts are right after any number of steps. -/
theorem Run.accounted {before after : Threads} {log : List Mark} (h : Run before log after)
    (past : List Mark) (hbefore : before.Accounted past) : after.Accounted (past ++ log) := by
  induction h generalizing past with
  | done threads =>
      rw [List.append_nil]
      exact hbefore
  | step hfirst _ ih =>
      have hrest := ih _ (hfirst.moves.accounted hbefore)
      rw [List.append_assoc] at hrest
      exact hrest

-- A replica that registers is known, because its id is new, and is not sent what is being
-- forwarded.
theorem Moves.knows_registered {before after : Threads} {peer : Peer}
    (h : Moves before (.registered peer) after) (hbefore : before.Numbered) :
    after.Knows peer ∧ after.unsent peer = [] := by
  generalize hmark : Mark.registered peer = mark at h
  cases h with
  | @registers _ registered hid hlink hregistry hlinks hlock hunsending =>
      rw [← Mark.registered.inj hmark] at hid hlink hregistry
      have hnew : peer ∉ before.engine.peers := fun hold =>
        absurd (hbefore peer hold) (by omega)
      refine ⟨⟨?_, ?_, ?_⟩, ?_⟩
      · rw [hregistry, hid]
        exact Nat.lt_succ_self _
      · rw [Engine.peers, hregistry, List.count_append, List.count_eq_zero_of_not_mem hnew]
        simp
      · rw [hlinks]
        exact hlink
      · unfold unsent
        rw [hlock]
        split
        · exact absurd (by assumption) (hunsending _ _)
        · rfl
  | @delivers _ _ write other left hsent _ _ _ =>
      rcases before.sent_cases other (.write write.command) with h | h <;>
        simp [hsent, h] at hmark
  | @asks _ _ other hsent _ _ =>
      rcases before.sent_cases other .ask with h | h <;> simp [hsent, h] at hmark
  | _ => simp at hmark

/-- At the start no replica is registered. -/
theorem start_peers (config : Config) (file : Snapshot.File) (replicationId : String) :
    (start config file replicationId).engine.peers = [] :=
  Engine.start_peers config file replicationId

/-- A link has received what was sent on it, for a replica that is still served. -/
theorem Run.written {before after : Threads} {log : List Mark} (h : Run before log after)
    {peer : Peer} (hknows : before.Knows peer) (hserves : after.Serves peer) :
    after.engine.links.written peer.link =
      before.engine.links.written peer.link ++
        (sentOn peer.link log).flatMap (·.2.bytes) := by
  have hbalance : before.engine.links.written peer.link ++
      log.flatMap (fun mark => (mark.sentOn peer.link).flatMap (·.2.bytes)) =
        log.flatMap (fun _ => []) ++ after.engine.links.written peer.link := by
    refine (h.balances (·.engine.links.written peer.link) _ _ (·.Knows peer) (·.Serves peer)
      (fun hstep => hstep.moves.knows) (fun hstep => hstep.moves.serves)
      (fun hstep hbefore hserved => ?_) hknows hserves).1
    rw [(hstep.moves.link hbefore.link).2.2 hserved.isOpen, List.nil_append]
  -- A link holds what it held and what was sent on it; nothing is taken from it.
  rw [List.flatMap_eq_nil_iff.mpr fun _ _ => rfl, List.nil_append] at hbalance
  rw [← hbalance, sentOn, List.flatMap_assoc]

-- Writes that are forwarded are sent to a replica that is still served.
theorem Run.sends_forwarded {before after : Threads} {log : List Mark} (h : Run before log after)
    {peer : Peer} (hknows : before.Knows peer) (hserves : after.Serves peer) :
    before.unsent peer ++ forwards log = writesTo peer log ++ after.unsent peer := by
  rw [writesTo_eq]
  exact (h.balances (·.unsent peer) _ _ (·.Knows peer) (·.Serves peer)
    (fun hstep => hstep.moves.knows) (fun hstep => hstep.moves.serves)
    (fun hstep => hstep.moves.sends_forwarded) hknows hserves).1

/-- Writes that succeed are forwarded. -/
theorem Run.forwards_succeeded {before after : Threads} {log : List Mark}
    (h : Run before log after) :
    before.unforwarded ++ succeeded log = forwards log ++ after.unforwarded :=
  (h.balances (·.unforwarded) _ _ (fun _ => True) (fun _ => True) (fun _ _ => trivial)
    (fun _ _ _ => trivial) (fun hstep _ _ => hstep.moves.forwards_succeeded) trivial trivial).1

-- Writes that run are answered.
theorem Run.replies_ran {before after : Threads} {log : List Mark} (h : Run before log after)
    (hbusy : before.Busy) (client : Nat) :
    before.unanswered client ++ ranBy client log =
      repliedTo client log ++ after.unanswered client :=
  (h.balances (·.unanswered client) _ _ Busy (fun _ => True) Step.busy (fun _ _ _ => trivial)
    (fun hstep hbefore _ => hstep.replies_ran hbefore client) hbusy trivial).1

/-- Threads run in any interleaving, from the start of a server. At some time a replica registers.
    At the end it is still registered and its link is open, whatever became of other replicas. Then
    * its link has received whole frames since the registration;
    * of these, a frame that is no request for an acknowledgement is a write that was run at once,
      changed the keyspace and was not answered with an error;
    * the writes that were sent to the replica, followed by the one that it is still to be sent, are
      those that started to be forwarded after the registration, in that order;
    * they are the ones that succeeded, in the order in which they changed the keyspace: the one
      that was about to be forwarded at the registration, and all those that ran after it, but for
      the one that is about to be forwarded at the end;
    * a client is answered just the responses to the writes that it ran, in that order, and is still
      to be answered the last one. -/
theorem Run.propagates {config : Config} {file : Snapshot.File} {replicationId : String}
    {first registered last : Threads} {peer : Peer} {before after : List Mark}
    (hbefore : Run (start config file replicationId) before first)
    (hregister : Step first (.registered peer) registered) (hafter : Run registered after last)
    (hpeer : peer ∈ last.engine.peers) (hopen : last.engine.links.isOpen peer.link = true) :
    let log := before ++ .registered peer :: after
    last.engine.links.written peer.link =
        registered.engine.links.written peer.link ++
          (sentOn peer.link after).flatMap (·.2.bytes) ∧
      (∀ entry command, (entry, .write command) ∈ sentOn peer.link after →
        command ∈ succeeded log) ∧
      writesTo peer after ++ last.unsent peer = forwards after ∧
      forwards after ++ last.unforwarded = registered.unforwarded ++ succeeded after ∧
      ∀ client, ranBy client log = repliedTo client log ++ last.unanswered client := by
  intro log
  -- The id of the replica is new when it registers, and nothing is on its way to it.
  have hrun : Run (start config file replicationId) log last :=
    hbefore.append (.step hregister hafter)
  have hnumbered : first.Numbered := by
    refine hbefore.preserves (fun hstep => hstep.moves.numbered) fun entry hentry => ?_
    rw [start_peers] at hentry
    simp at hentry
  rcases hregister.moves.knows_registered hnumbered with ⟨hknows, hunsent⟩
  refine ⟨hafter.written hknows ⟨hpeer, hopen⟩, ?_, ?_, hafter.forwards_succeeded.symm, ?_⟩
  · intro entry command hentry
    have hdelivered : .delivered entry (.write command) ∈ log := by
      rcases List.mem_flatMap.mp hentry with ⟨mark, hmark, hsent⟩
      refine List.mem_append_right _ (List.mem_cons_of_mem _ ?_)
      cases mark with
      | delivered other frame =>
          by_cases hlink : other.link = peer.link
          · simp only [Mark.sentOn, if_pos hlink, List.mem_singleton] at hsent
            rcases Prod.mk.inj hsent with ⟨rfl, rfl⟩
            exact hmark
          · simp [Mark.sentOn, hlink] at hsent
      | _ => simp [Mark.sentOn] at hsent
    -- What was sent had started to be forwarded, and what was forwarded had succeeded.
    have haccounted := hrun.accounted [] ⟨by simp, by simp [start]⟩
    have hforwarded : command ∈ forwards log := by
      refine List.mem_flatMap.mpr ⟨_, haccounted.delivered entry command hdelivered, ?_⟩
      exact List.mem_singleton_self command
    have hbalance := hrun.forwards_succeeded
    simp only [unforwarded, start, List.nil_append] at hbalance
    rw [hbalance]
    exact List.mem_append_left _ hforwarded
  · have hsent := hafter.sends_forwarded hknows ⟨hpeer, hopen⟩
    rw [hunsent, List.nil_append] at hsent
    exact hsent.symm
  · intro client
    have hbusy : (start config file replicationId).Busy := by
      rintro write (hran | ⟨left, hforwards⟩)
      · simp [start] at hran
      · simp [start] at hforwards
    exact hrun.replies_ran hbusy client

-- The first of two replicas is gone. A client writes, and while the write is on its way to the
-- second replica, another client waits for it.
theorem Run.propagates_write :
    let set : Command := .ofParts .set ["k", "v"]
    ∃ before first registered after last,
      Run (start {} .missing "id") before first ∧
      Step first (.registered ⟨2, 1⟩) registered ∧ Run registered after last ∧
      last.engine.links.isOpen 0 = false ∧
      last.engine.links.written 1 = Master.ackRequest ++ set.raw ∧
      writesTo ⟨2, 1⟩ after = [set] := by
  intro set
  let wait : Command := .ofParts .wait ["1", "0"]
  have hidle : ∀ threads : Threads, threads.lock = .free → (∀ client, threads.task client = .idle) →
      threads.Unsending := by
    intro threads hlock htask
    exact ⟨fun _ _ => by simp [hlock], fun client _ _ _ => by simp [htask client]⟩
  let master : Master := { replicationId := "id", peers := [⟨1, 0⟩], nextPeerId := 2 }
  let engine : Engine :=
    { Engine.start {} .missing "id" with role := .master master, links := ⟨[⟨[], false⟩, {}]⟩ }
  let connected : Threads :=
    { engine := { Engine.start {} .missing "id" with links := ⟨[{}, {}]⟩ } }
  let first : Threads :=
    { engine, session := Function.update (fun _ => {}) 0 { replicaId := some 1 } }
  let registered : Threads :=
    { engine := { engine with role := .master (master.register 1).2 }
      session := Function.update first.session 1 { replicaId := some 2 } }
  -- Two replicas connect; the first one registers, and its link breaks.
  have hbefore : Run (start {} .missing "id") _ first :=
    .step .connect (.step .connect
      (.step (@Step.register connected 0 0 _ rfl (by decide) (hidle _ rfl fun _ => rfl))
        (.step (.close 0) (.done _))))
  have hregister : Step first (.registered ⟨2, 1⟩) registered :=
    @Step.register first 1 1 _ rfl (by decide) (hidle _ rfl fun _ => rfl)
  -- The request to wait asks both replicas while the write is on its way from one to the other.
  have hafter : Run registered _ _ :=
    .step (@Step.record _ 5 set rfl)
      (.step (@Step.run _ 5 set (some 0) (.set "k" "v" []) (.ok .ok) _ 7 rfl rfl rfl rfl)
        (.step (@Step.forward _ ⟨5, set, some 0, .ok .ok⟩ .ok rfl rfl)
          (.step (@Step.deliver _ ⟨5, set, some 0, .ok .ok⟩ ⟨1, 0⟩ [⟨2, 1⟩] rfl)
            (.step (@Step.record _ 6 wait rfl)
              (.step (@Step.install _ 6 wait (some 1) ⟨0, 1⟩ 0 8 rfl rfl)
                (.step (@Step.ask _ 6 ⟨.acks ⟨0, 1⟩, none⟩ (some 1) rfl)
                  (.step (@Step.deliverAsk _ 6 ⟨.acks ⟨0, 1⟩, none⟩ (some 1) ⟨1, 0⟩ [⟨2, 1⟩] rfl)
                    (.step (@Step.deliverAsk _ 6 ⟨.acks ⟨0, 1⟩, none⟩ (some 1) ⟨2, 1⟩ [] rfl)
                      (.step (@Step.deliver _ ⟨5, set, some 0, .ok .ok⟩ ⟨2, 1⟩ [] rfl)
                         (.done _))))))))))
  have hsent := Run.propagates hbefore hregister hafter (by decide) (by decide)
  refine ⟨_, first, registered, _, _, hbefore, hregister, hafter, rfl, ?_, ?_⟩
  · rw [hsent.1]
    decide +kernel
  · exact (List.append_nil _).symm.trans hsent.2.2.1

end Threads

end KeyValue
