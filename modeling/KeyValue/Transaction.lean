import KeyValue.Command

/-!
# Transactions

A session may open a transaction, after which its commands are queued instead of run. The queue
is run or dropped as a whole, and either closes the transaction. Opening an open transaction
again leaves its queue as it is.

## Main definitions

* `Transaction`: A transaction, open or closed.
* `Transaction.begin`: Opens it.
* `Transaction.enqueue`: Queues a command.
* `Transaction.take`, `Transaction.discard`: Close it.
-/

namespace KeyValue

/-- The transaction of a session. -/
inductive Transaction where
  | closed
  /-- Open, with the queued commands in the order they came. -/
  | opened (queue : List Command)
  deriving DecidableEq, Repr, Inhabited

namespace Transaction

def isOpen : Transaction → Bool
  | closed => false
  | opened _ => true

/-- The queued commands. -/
def queue : Transaction → List Command
  | closed => []
  | opened queue => queue

/-- The number of queued commands. -/
def size (transaction : Transaction) : Nat := transaction.queue.length

/-- Open the transaction; an open one keeps its queue. -/
def begin (transaction : Transaction) : Transaction := opened transaction.queue

/-- Queue a command. -/
def enqueue (transaction : Transaction) (command : Command) : Except Error Transaction :=
  match transaction with
  | closed => .error (.transaction "no transaction is open")
  | opened queue => .ok (opened (queue ++ [command]))

/-- Close the transaction and hand over its queue. -/
def take (transaction : Transaction) : Except Error (List Command) × Transaction :=
  match transaction with
  | closed => (.error (.transaction "EXEC without MULTI"), closed)
  | opened queue => (.ok queue, closed)

/-- Close the transaction and tell how many commands were dropped. -/
def discard (transaction : Transaction) : Except Error Nat × Transaction :=
  match transaction with
  | closed => (.error (.transaction "DISCARD without MULTI"), closed)
  | opened queue => (.ok queue.length, closed)

end Transaction

end KeyValue
