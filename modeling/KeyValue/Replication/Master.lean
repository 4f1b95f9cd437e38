import KeyValue.Links
import KeyValue.Replication.History

/-!
# Masters

A master knows the links of its replicas and forwards bytes to all of them, in the order in which
they registered. A link that fails does not keep the others from receiving.

A client may wait until some replicas have acknowledged the write before its command. It takes
the one place for a waiting client, asks every replica for an acknowledgement, and looks at the
count each time it is signalled. A second client that waits takes the place over; the first one
notices that its signals are cut off and ends with the count it has.

## Main definitions

* `Peer`: A registered replica.
* `AckWaiter`: The place for a waiting client.
* `Master`: The replication state of a master.
* `Master.register`, `Master.remove`: Replicas come and go.
* `Master.propagate`: Forwards bytes.
* `Master.waitTarget`, `Master.install`, `Master.poll`, `Master.leave`: The steps of waiting.
* `Master.recordAck`: An acknowledgement comes in.
-/

namespace KeyValue

/-- A registered replica. -/
structure Peer where
  id : Nat
  /-- The number of the link to the replica. -/
  link : Nat
  deriving DecidableEq, Repr, Inhabited

/-- The place for a waiting client. -/
structure AckWaiter where
  /-- The place in the history where acknowledgements are counted. -/
  target : Nat
  /-- The signals that the client has not looked at. -/
  signals : Nat := 0
  deriving DecidableEq, Repr, Inhabited

/-- The replication state of a master. -/
structure Master where
  replicationId : String
  /-- The offset announced to a new replica. -/
  offset : UInt64 := 0
  peers : List Peer := []
  nextPeerId : Nat := 1
  history : History := .empty
  waiter : Option AckWaiter := none
  deriving DecidableEq, Repr, Inhabited

/-- A client that waits for acknowledgements. -/
structure AckWait where
  /-- The place in the history of the write that is to be acknowledged. -/
  target : Nat
  /-- How many acknowledgements are wanted. -/
  wanted : Nat
  deriving DecidableEq, Repr, Inhabited

namespace Master

/-- The number of registered replicas. -/
def peerCount (master : Master) : Nat := master.peers.length

/-- Register a replica; the result is its id. -/
def register (master : Master) (link : Nat) : Nat × Master :=
  (master.nextPeerId,
    { master with
      peers := master.peers ++ [⟨master.nextPeerId, link⟩]
      nextPeerId := master.nextPeerId + 1 })

/-- Forget a replica. -/
def remove (master : Master) (id : Nat) : Master :=
  { master with peers := master.peers.filter (·.id != id) }

/-- Forward bytes to every replica; the result is how many received them. -/
def propagate (master : Master) (links : Links) (bytes : Bytes) : Nat × Links :=
  (master.peers.countP fun peer => links.isOpen peer.link,
    master.peers.foldl (fun links peer => links.write peer.link bytes) links)

/-- The request that asks a replica for an acknowledgement. -/
def ackRequest : Bytes := Wire.request ["REPLCONF", "GETACK", "*"]

/-- What a client at the given place of the history has to wait for: nothing, with the count to
    answer, or acknowledgements of the write right before it. Without replicas there is nothing to
    count, and a command that is no write is taken as known to all of them. -/
def waitTarget (master : Master) (index wanted : Nat) : Nat ⊕ AckWait :=
  if master.peerCount = 0 then .inl 0
  else match index with
    | 0 => .inl master.peerCount
    | target + 1 =>
      match master.history.get? target with
      | some ⟨_, .write, _, _, acks⟩ => if wanted ≤ acks then .inl acks else .inr ⟨target, wanted⟩
      | _ => .inl master.peerCount

/-- Take the place for a waiting client, from another one if need be. -/
def install (master : Master) (wait : AckWait) : Master :=
  { master with waiter := some ⟨wait.target, 0⟩ }

/-- What a waiting client finds when it looks. -/
inductive Poll where
  /-- Its wait is over with this many acknowledgements. -/
  | over (acks : Nat)
  /-- A signal was used up; the count is still too low. -/
  | again (master : Master)
  /-- There is no signal. -/
  | idle

/-- A waiting client looks for a signal. -/
def poll (master : Master) (wait : AckWait) : Poll :=
  let acks := master.history.ackCount wait.target
  match master.waiter with
  | some ⟨target, signals⟩ =>
    if target = wait.target then
      match signals with
      | 0 => .idle
      | rest + 1 =>
        if wait.wanted ≤ acks then .over acks
        else .again { master with waiter := some ⟨target, rest⟩ }
    else .over acks
  | none => .over acks

/-- A waiting client leaves the place, if the place is still its own. -/
def leave (master : Master) (wait : AckWait) : Master :=
  match master.waiter with
  | some waiter => if waiter.target = wait.target then { master with waiter := none } else master
  | none => master

/-- A replica acknowledges. This counts for the waiting client, if there is one, and only if the
    replica is registered. -/
def recordAck (master : Master) (id : Nat) : Master :=
  if master.peers.any (·.id == id) then
    match master.waiter with
    | some ⟨target, signals⟩ =>
      { master with
        history := (master.history.recordAck target).2
        waiter := some ⟨target, signals + 1⟩ }
    | none => master
  else master

/-- The facts reported about a master, in order. -/
def facts (master : Master) : List (String × String) :=
  [("role", "master"),
    ("connected_slaves", Nat.repr master.peerCount),
    ("master_replid", master.replicationId),
    ("master_repl_offset", Decimal.ofUInt64 master.offset)]

end Master

end KeyValue
