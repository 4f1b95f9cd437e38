import KeyValue.Command

/-!
# Command history

A master records every command it receives, in order. A client that waits for replicas looks at
the command recorded right before its own, and the acknowledgements that come in are counted
there.

## Main definitions

* `HistoryEntry`: A recorded command.
* `History`: The recorded commands, oldest first.
* `History.append`: Records a command.
* `History.recordAck`: Counts an acknowledgement.
-/

namespace KeyValue

/-- A recorded command. -/
structure HistoryEntry where
  name : CommandName
  kind : CommandKind
  args : List String
  /-- Whether the command ended without an error; false while it runs. -/
  succeeded : Bool := false
  /-- The acknowledgements counted for it. -/
  acks : Nat := 0
  deriving DecidableEq, Repr, Inhabited

/-- The recorded commands, oldest first. -/
structure History where
  entries : List HistoryEntry := []
  deriving DecidableEq, Repr, Inhabited

namespace History

/-- No commands. -/
def empty : History := {}

/-- The number of recorded commands. -/
def size (history : History) : Nat := history.entries.length

/-- The command at a place. -/
def get? (history : History) (index : Nat) : Option HistoryEntry := history.entries[index]?

/-- Record a command before it runs; the result is its place. -/
def append (history : History) (name : CommandName) (kind : CommandKind) (args : List String) :
    Nat × History :=
  let entry : HistoryEntry := { name, kind, args }
  (history.size, ⟨history.entries ++ [entry]⟩)

/-- Record whether the command at a place succeeded. -/
def markSuccess (history : History) (index : Nat) (succeeded : Bool) : History :=
  ⟨history.entries.modify index fun entry => { entry with succeeded }⟩

/-- The acknowledgements counted for the command at a place. -/
def ackCount (history : History) (index : Nat) : Nat :=
  ((history.get? index).map (·.acks)).getD 0

/-- Count an acknowledgement for the command at a place; the result is the new count, if the place
    holds a command. -/
def recordAck (history : History) (index : Nat) : Option Nat × History :=
  let counted : History :=
    ⟨history.entries.modify index fun entry => { entry with acks := entry.acks + 1 }⟩
  ((counted.get? index).map (·.acks), counted)

end History

end KeyValue
