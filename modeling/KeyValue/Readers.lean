/-!
# Blocked readers

A reader that finds nothing new in its streams registers for their keys and waits. Whoever adds
to one of the keys wakes it. A wake-up is a mark and not a message: a second one before the
reader looks is the same wake-up, and a reader that is woken looks again at all its keys.

A reader registers before it looks, so an entry added between looking and waiting is not missed:
the mark is already there when it starts to wait.

## Main definitions

* `Reader`: A registered reader.
* `Readers`: All registered readers.
* `Readers.register`, `Readers.unregister`: Come and go.
* `Readers.notify`: Wakes the readers of a key.
* `Readers.consume`: A reader uses up its wake-up.
-/

namespace KeyValue

/-- A reader that waits for new entries. -/
structure BlockedReader where
  id : Nat
  /-- The keys that it waits for. -/
  keys : List String
  /-- Whether it was woken since it looked last. -/
  isWoken : Bool := false
  deriving DecidableEq, Repr, Inhabited

/-- The registered readers, oldest first. -/
structure Readers where
  waiting : List BlockedReader := []
  nextId : Nat := 0
  deriving DecidableEq, Repr, Inhabited

namespace Readers

/-- No readers. -/
def empty : Readers := {}

/-- Register a reader for the keys; the result is its id. -/
def register (readers : Readers) (keys : List String) : Nat × Readers :=
  (readers.nextId, ⟨readers.waiting ++ [{ id := readers.nextId, keys }], readers.nextId + 1⟩)

/-- Forget a reader. -/
def unregister (readers : Readers) (id : Nat) : Readers :=
  { readers with waiting := readers.waiting.filter (·.id != id) }

/-- Wake every reader that waits for the key; the result is how many there are. -/
def notify (readers : Readers) (key : String) : Nat × Readers :=
  (readers.waiting.countP (·.keys.contains key),
    { readers with
      waiting := readers.waiting.map fun reader =>
        if reader.keys.contains key then { reader with isWoken := true } else reader })

/-- Whether a reader is registered and was woken. -/
def isWoken (readers : Readers) (id : Nat) : Bool :=
  readers.waiting.any fun reader => reader.id == id && reader.isWoken

/-- A reader uses up its wake-up. -/
def consume (readers : Readers) (id : Nat) : Readers :=
  { readers with
    waiting := readers.waiting.map fun reader =>
      if reader.id == id then { reader with isWoken := false } else reader }

/-- The number of registered readers. -/
def size (readers : Readers) : Nat := readers.waiting.length

end Readers

end KeyValue
