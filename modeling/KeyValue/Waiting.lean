import KeyValue.Engine
import KeyValue.Session

/-!
# Waiting

Two requests may wait: a read for new entries, and the request that waits for replicas. Neither
holds anything while it waits that another session needs. Whoever waits is woken, looks, and goes
on waiting if it does not find enough; when its time is over it answers with what it finds.

A read is registered before it looks for the first time, and it leaves the registry with its
answer, whatever that is.

## Main definitions

* `Waiting`: What a request waits for.
* `Pending`: A request that waits, with its deadline.
* `Engine.startRead`, `Engine.startWait`: The two requests start.
* `Engine.poll`: A waiting request looks for a wake-up.
* `Engine.expire`: The time of a waiting request is over.
-/

namespace KeyValue

/-- What a request waits for. -/
inductive Waiting where
  /-- Entries above the cursors, at most `count` of each stream. -/
  | entries (reader : Nat) (cursors : List Cursor) (count : Option Nat)
  /-- Acknowledgements of replicas. -/
  | acks (wait : AckWait)
  deriving DecidableEq, Repr, Inhabited

/-- A request that waits. -/
structure Pending where
  waiting : Waiting
  /-- The time, in Unix milliseconds, at which the wait is over; a request without one waits
      forever. -/
  deadline : Option Nat := none
  deriving DecidableEq, Repr, Inhabited

/-- What has come of a request so far. -/
inductive Progress where
  | answered (result : Except Error Reply)
  | waits (pending : Pending)
  deriving Repr, Inhabited

namespace Engine

/-- The end of a wait of `ms` milliseconds that starts at the time `now`; zero is forever. -/
def deadlineAfter (now ms : UInt64) : Option Nat :=
  if ms = 0 then none else some (now.toNat + ms.toNat)

/-- Forget a reader. -/
def forget (engine : Engine) (reader : Nat) : Engine :=
  { engine with readers := engine.readers.unregister reader }

/-- A registered reader looks at its streams. With entries or a failure it leaves; without them
    there is no answer yet. -/
def look (engine : Engine) (now : UInt64) (reader : Nat) (cursors : List Cursor)
    (count : Option Nat) : Option (Except Error Reply) × Engine :=
  match engine.readAll now count cursors with
  | (.error e, engine) => (some (.error e), engine.forget reader)
  | (.ok [], engine) => (none, engine)
  | (.ok replies, engine) => (some (.ok (Cursor.readReply replies)), engine.forget reader)

/-- Start a read. -/
def startRead (engine : Engine) (now : UInt64) (arguments : List String) : Progress × Engine :=
  match engine.openRead now arguments with
  | (.error e, engine) => (.answered (.error e), engine)
  | (.ok (read, cursors), engine) =>
    match read.block with
    | none =>
      let (result, engine) := engine.readAll now read.count cursors
      (.answered (result.map Cursor.readReply), engine)
    | some ms =>
      let (reader, readers) := engine.readers.register read.keys
      match { engine with readers }.look now reader cursors read.count with
      | (some result, engine) => (.answered result, engine)
      | (none, engine) =>
        (.waits ⟨.entries reader cursors read.count, deadlineAfter now ms⟩, engine)

/-- A number of replicas as a reply. -/
def countReply (count : Nat) : Reply := .integer (Int64.ofNat (min count Decimal.maxInt64))

/-- Start to wait for replicas, for a command at the given place of the history. -/
def startWait (engine : Engine) (now : UInt64) (index : Option Nat) (wanted timeout : String) :
    Progress × Engine :=
  match waitNumbers wanted timeout with
  | .error e => (.answered (.error e), engine)
  | .ok (wanted, timeout) =>
    match engine.role, index with
    | .master master, some index =>
      match master.waitTarget index wanted with
      | .inl count => (.answered (.ok (countReply count)), engine)
      | .inr wait =>
        (.waits ⟨.acks wait, deadlineAfter now timeout⟩,
          (engine.updateMaster (·.install wait)).propagate Master.ackRequest)
    | _, _ => (.answered (.ok (countReply 0)), engine)

/-- A waiting request looks for a wake-up, uses it up and answers if it finds enough. -/
def poll (engine : Engine) (now : UInt64) (waiting : Waiting) :
    Option (Except Error Reply) × Engine :=
  match waiting with
  | .entries reader cursors count =>
    if engine.readers.isWoken reader then
      { engine with readers := engine.readers.consume reader }.look now reader cursors count
    else (none, engine)
  | .acks wait =>
    match engine.role with
    | .replica _ => (none, engine)
    | .master master =>
      match master.poll wait with
      | .over acks => (some (.ok (countReply acks)), engine.updateMaster (·.leave wait))
      | .again master => (none, { engine with role := .master master })
      | .idle => (none, engine)

/-- The time of a waiting request is over: it answers with what it finds. -/
def expire (engine : Engine) (now : UInt64) (waiting : Waiting) : Except Error Reply × Engine :=
  match waiting with
  | .entries reader cursors count =>
    let (result, engine) := engine.readAll now count cursors
    (result.map Cursor.readReply, engine.forget reader)
  | .acks wait =>
    match engine.role with
    | .replica _ => (.ok (countReply 0), engine)
    | .master master =>
      (.ok (countReply (master.history.ackCount wait.target)), engine.updateMaster (·.leave wait))

end Engine

end KeyValue
