import KeyValue.Proofs.Keyspace.Locality

/-!
# A keyspace is a ledger

A keyspace removes expired keys when it comes across them, so what it stores depends on what was
read. What it answers does not. A ledger says what each key was set to and until when, and nothing
is struck out of it because a deadline passes; what a key holds is told by the time (`held?`). Every
operation answers what the ledger says and leaves a keyspace that the ledger goes on to describe
(`Describes.perform`), for as long as the clock does not go back.

Reading does not change the ledger. So two keyspaces that one ledger describes answer alike, however
much was read from one of them (`outcomes_leaveOut`).

There is one way for a key to be struck out: an entry is refused, and the stream has no entries. An
operation on a keyspace can put such a stream there, and clients cannot. Where there is none, keys
stay in the ledger for good.

## Main definitions

* `Keyspace.Operation`, `Keyspace.Outcome`, `Operation.perform`: Operations and their answers.
* `Ledger`, `Ledger.held?`: What keys were set to, and what they hold.
* `Ledger.Explains`, `Ledger.next`: What an operation answers, and what it changes.
* `Ledger.Describes`: A keyspace holds what the ledger says.
* `Ledger.Change`: All that an operation can do to a ledger.
* `Ledger.Full`: No key holds a stream without entries.

## Theorems

* `Describes.perform`: What one operation answers and leaves.
* `outcomes_explained`: What a run answers.
* `outcomes_leaveOut`: What a run answers without some of its reads.
* `next_change`, `Full.after`: When a key is struck out, and that none is otherwise.
* `refines_ledger`: A keyspace is a ledger.
-/

namespace KeyValue

namespace Keyspace

/-- An operation on a keyspace. -/
inductive Operation where
  | set (key : String) (value : Value) (deadline : Deadline)
  | get (key : String)
  | kind (key : String)
  | increment (key : String)
  | keys
  | addEntry (key : String) (request : IdRequest) (fields : List (String × String))
  | range (key : String) (start stop : StreamId) (count : Option Nat)
  | after (key : String) (id : StreamId) (count : Option Nat)
  | lastId (key : String)
  deriving DecidableEq, Repr, Inhabited

/-- What an operation answers. -/
inductive Outcome where
  | done
  | value (value : Option Value)
  | kind (kind : Option ValueKind)
  | number (result : Except Error Int64)
  | keys (keys : List String)
  | id (result : Except Error StreamId)
  | entries (result : Except Error (List StreamEntry))
  deriving DecidableEq, Repr, Inhabited

namespace Operation

/-- Perform an operation at the time `now`. -/
def perform (keyspace : Keyspace) (now : UInt64) : Operation → Outcome × Keyspace
  | set key value deadline => (.done, keyspace.set key value deadline)
  | get key => (keyspace.get now key).map .value id
  | kind key => (keyspace.kind now key).map .kind id
  | increment key => (keyspace.increment now key).map .number id
  | keys => (keyspace.keys now).map .keys id
  | addEntry key request fields => (keyspace.addEntry now key request fields).map .id id
  | range key start stop count => (keyspace.range now key start stop count).map .entries id
  | after key above count => (keyspace.after now key above count).map .entries id
  | lastId key => (keyspace.lastId now key).map .id id

/-- Whether the operation only reads. -/
def isRead : Operation → Bool
  | set _ _ _ | increment _ | addEntry _ _ _ => false
  | _ => true

/-- The key that the operation is on. -/
def key? : Operation → Option String
  | set key _ _ | get key | kind key | increment key | addEntry key _ _ | range key _ _ _
  | after key _ _ | lastId key => some key
  | keys => none

end Operation

/-- What operations answer that are performed one after another, each at its time. -/
def outcomes (keyspace : Keyspace) : List (UInt64 × Operation) → List Outcome
  | [] => []
  | (now, op) :: ops =>
    let (outcome, keyspace) := op.perform keyspace now
    outcome :: keyspace.outcomes ops

/-- The outcomes are the same; the order in which keys are listed does not matter. -/
inductive Outcome.Same : Outcome → Outcome → Prop where
  | refl (outcome : Outcome) : Same outcome outcome
  | keys {keys keys' : List String} (h : keys.Perm keys') : Same (.keys keys) (.keys keys')

end Keyspace

theorem Stream.isEmpty_iff {stream : Stream} : stream.isEmpty = true ↔ stream = .empty := by
  rcases stream with ⟨entries⟩
  simp [isEmpty, empty]

/-- What each key was set to, with its deadline. -/
def Ledger : Type := String → Option Item

namespace Ledger

open Keyspace (Operation Outcome)

/-- What a key holds at the time `now`: it was set, and its deadline is zero or later. -/
def held? (ledger : Ledger) (now : UInt64) (key : String) : Option Item :=
  (ledger key).filter fun item => item.deadline.ms = 0 ∨ now < item.deadline.ms

/-- Let a key hold an item. -/
def write (ledger : Ledger) (key : String) (item : Item) : Ledger := fun other =>
  if other = key then some item else ledger other

/-- Let a key hold nothing. -/
def strike (ledger : Ledger) (key : String) : Ledger := fun other =>
  if other = key then none else ledger other

/-- The integer after a value. -/
def successor : Option Item → Except Error Int64
  | none => .error .noSuchKey
  | some ⟨.integer number, _⟩ =>
    if number = Int64.maxValue then .error .notInteger else .ok (number + 1)
  | some ⟨.text _, _⟩ => .error .notInteger
  | some ⟨.stream _, _⟩ => .error .wrongType

/-- The stream of a key; a key that holds nothing has one without entries. -/
def stream : Option Item → Except Error Stream
  | none => .ok .empty
  | some ⟨.stream stream, _⟩ => .ok stream
  | some _ => .error .wrongType

/-- An operation answers what the ledger says. Keys are listed once each, in any order. -/
def Explains (ledger : Ledger) (now : UInt64) : Operation → Outcome → Prop
  | .set _ _ _, outcome => outcome = .done
  | .get key, outcome => outcome = .value ((ledger.held? now key).map (·.value))
  | .kind key, outcome => outcome = .kind ((ledger.held? now key).map (·.value.kind))
  | .increment key, outcome => outcome = .number (successor (ledger.held? now key))
  | .keys, outcome => ∃ keys, outcome = .keys keys ∧ keys.Nodup ∧
      ∀ key, key ∈ keys ↔ (ledger.held? now key).isSome = true
  | .addEntry key request _, outcome =>
      outcome = .id (stream (ledger.held? now key) >>= (·.nextId request now))
  | .range key start stop count, outcome =>
      outcome = .entries ((stream (ledger.held? now key)).map (·.range start stop count))
  | .after key above count, outcome =>
      outcome = .entries ((stream (ledger.held? now key)).map (·.after above count))
  | .lastId key, outcome =>
      outcome = .id ((stream (ledger.held? now key)).map fun stream => stream.lastId?.getD .zero)

/-- The ledger after an operation. Setting a key replaces its deadline, and incrementing it and
    adding an entry keep it. A refused entry strikes out a key that holds a stream without entries;
    nothing else is ever struck out. -/
def next (ledger : Ledger) (now : UInt64) : Operation → Ledger
  | .set key value deadline => ledger.write key ⟨value, deadline⟩
  | .increment key =>
    match ledger.held? now key, successor (ledger.held? now key) with
    | some item, .ok number => ledger.write key { item with value := .integer number }
    | _, _ => ledger
  | .addEntry key request fields =>
    match stream (ledger.held? now key) with
    | .error _ => ledger
    | .ok stream =>
      match stream.nextId request now with
      | .ok id => ledger.write key ⟨.stream ⟨stream.entries ++ [⟨id, fields⟩]⟩,
          ((ledger.held? now key).map (·.deadline)).getD .never⟩
      | .error _ =>
        if (ledger.held? now key).map (·.value) = some (.stream .empty) then ledger.strike key
        else ledger
  | _ => ledger

/-- The outcomes of operations are what the ledger says at each of them. -/
def ExplainsAll (ledger : Ledger) : List (UInt64 × Operation) → List Outcome → Prop
  | [], outcomes => outcomes = []
  | (now, op) :: ops, outcomes => ∃ outcome rest, outcomes = outcome :: rest ∧
      ledger.Explains now op outcome ∧ (ledger.next now op).ExplainsAll ops rest

/-- The ledger after operations. -/
def after (ledger : Ledger) (ops : List (UInt64 × Operation)) : Ledger :=
  ops.foldl (fun ledger (now, op) => ledger.next now op) ledger

/-- At the time `now` the keyspace holds what the ledger says. -/
def Describes (ledger : Ledger) (now : UInt64) (keyspace : Keyspace) : Prop :=
  ∀ key, keyspace.live? now key = ledger.held? now key

end Ledger

/-- What a keyspace stores, as a ledger. -/
def Keyspace.ledger (keyspace : Keyspace) : Ledger := keyspace.item?

namespace Keyspace

section Live

variable (keyspace : Keyspace) (now : UInt64) (key other : String)

/-- An item that is inserted when its deadline is over is not live. -/
theorem live?_insert (item : Item) :
    (keyspace.insert key item).live? now other =
      if other = key then (some item).filter fun item => !item.isExpired now
      else keyspace.live? now other := by
  rw [live?, item?_insert]
  split <;> rfl

/-- What was erased is not live. -/
theorem live?_erase :
    (keyspace.erase key).live? now other =
      if other = key then none else keyspace.live? now other := by
  rw [live?, item?_erase]
  split <;> rfl

-- What is removed because it is expired was not there.
theorem live?_touch : (keyspace.touch now key).live? now other = keyspace.live? now other := by
  have hreads : Reads now (· = key) fun keyspace => ((), keyspace.touch now key) :=
    reads_of_touch (fun _ => rfl) fun _ => rfl
  exact hreads.live?_eq keyspace other

/-- Listing the keys changes nothing that is live. -/
theorem live?_keys : (keyspace.keys now).2.live? now other = keyspace.live? now other := by
  rw [live?, item?_keys, live?, Option.filter_filter]
  simp

end Live

end Keyspace

namespace Ledger

open Keyspace (Operation Outcome)

variable {ledger : Ledger} {since now : UInt64} {keyspace : Keyspace} {key : String}

/-- A ledger tells in other words than an item whether it is expired. -/
theorem held?_eq (ledger : Ledger) (now : UInt64) (key : String) :
    ledger.held? now key = (ledger key).filter fun item => !item.isExpired now := by
  rw [held?]
  congr 1
  funext item
  rw [Item.isExpired, Deadline.hasPassed]
  by_cases hzero : item.deadline.ms = 0
  · simp [hzero]
  · have hdated : (item.deadline.ms != 0) = true := bne_iff_ne.mpr hzero
    simp only [hzero, hdated, false_or, Bool.true_and, ← UInt64.not_le, decide_not]

/-- The ledger of a keyspace tells of each key what is live. -/
theorem held?_ledger (keyspace : Keyspace) (now : UInt64) (key : String) :
    keyspace.ledger.held? now key = keyspace.live? now key :=
  held?_eq keyspace.ledger now key

/-- What is held later was held before, and its deadline is not over. -/
theorem held?_later (ledger : Ledger) (hle : since ≤ now) (key : String) :
    ledger.held? now key = (ledger.held? since key).filter fun item => !item.isExpired now := by
  rw [held?_eq, held?_eq, Option.filter_filter]
  congr 1
  funext item
  cases hexpired : item.isExpired since with
  | true => simp [Item.isExpired_of_le hle hexpired]
  | false => simp

/-- What was written is held up to its deadline. -/
theorem held?_write (ledger : Ledger) (now : UInt64) (key other : String) (item : Item) :
    (ledger.write key item).held? now other =
      if other = key then (some item).filter fun item => !item.isExpired now
      else ledger.held? now other := by
  rw [held?_eq, write]
  split
  · rfl
  · exact (ledger.held?_eq now other).symm

/-- What was struck out is not held. -/
theorem held?_strike (ledger : Ledger) (now : UInt64) (key other : String) :
    (ledger.strike key).held? now other =
      if other = key then none else ledger.held? now other := by
  rw [held?_eq, strike]
  split
  · rfl
  · exact (ledger.held?_eq now other).symm

section Describes

/-- A keyspace is described by its own ledger. -/
theorem describes_ledger (keyspace : Keyspace) (now : UInt64) :
    keyspace.ledger.Describes now keyspace :=
  fun key => (held?_ledger keyspace now key).symm

variable (h : ledger.Describes now keyspace)
include h

/-- A description stays right as time goes on, because what is expired does not come back. -/
theorem Describes.later {after : UInt64} (hle : now ≤ after) :
    ledger.Describes after keyspace := by
  intro key
  rw [← held?_ledger, held?_later _ hle, held?_later _ hle, held?_ledger, h key]

/-- Removing an expired key is no change for the ledger. -/
theorem Describes.touch (key : String) : ledger.Describes now (keyspace.touch now key) :=
  fun other => (keyspace.live?_touch now key other).trans (h other)

theorem Describes.keys : ledger.Describes now (keyspace.keys now).2 :=
  fun key => (keyspace.live?_keys now key).trans (h key)

/-- Inserting a key is writing it down. -/
theorem Describes.insert (key : String) (item : Item) :
    (ledger.write key item).Describes now (keyspace.insert key item) := by
  intro other
  rw [Keyspace.live?_insert, held?_write, h other]

/-- Erasing a key is striking it out. -/
theorem Describes.erase (key : String) :
    (ledger.strike key).Describes now (keyspace.erase key) := by
  intro other
  rw [Keyspace.live?_erase, held?_strike, h other]

-- Erasing what is not there changes nothing.
theorem Describes.erase_absent (habsent : ledger.held? now key = none) :
    ledger.Describes now (keyspace.erase key) := by
  intro other
  rw [Keyspace.live?_erase]
  split
  · rename_i hkey
    rw [hkey, habsent]
  · exact h other

/-- A read of a stream answers what the ledger has, and a stream without entries where it has
    nothing. -/
theorem Describes.readStream {α : Type} (key : String) (read : Stream → α) :
    (keyspace.readStream now key read).1 = (stream (ledger.held? now key)).map read := by
  simp only [Keyspace.readStream, h key]
  rcases ledger.held? now key with _ | ⟨_ | _ | _, deadline⟩ <;> rfl

/-- An increment answers what the ledger says, and leaves what the ledger says. -/
theorem Describes.increment (key : String) :
    (keyspace.increment now key).1 = successor (ledger.held? now key) ∧
      (ledger.next now (.increment key)).Describes now (keyspace.increment now key).2 := by
  have htouch := h.touch key
  simp only [Keyspace.increment, next, h key]
  rcases ledger.held? now key with _ | ⟨text | number | stream, deadline⟩
  · exact ⟨rfl, htouch⟩
  · exact ⟨rfl, htouch⟩
  · simp only [successor]
    by_cases hmax : number = Int64.maxValue
    · simp only [if_pos hmax]
      exact ⟨trivial, htouch⟩
    · simp only [if_neg hmax]
      exact ⟨trivial, htouch.insert key _⟩
  · exact ⟨rfl, htouch⟩

/-- The id of a new entry is the one that the ledger finds. A refused entry may leave a key that
    holds a stream without entries, or strike it out. -/
theorem Describes.addEntry (key : String) (request : IdRequest) (fields : List (String × String)) :
    (keyspace.addEntry now key request fields).1 =
        stream (ledger.held? now key) >>= (·.nextId request now) ∧
      (ledger.next now (.addEntry key request fields)).Describes now
        (keyspace.addEntry now key request fields).2 := by
  have htouch := h.touch key
  simp only [Keyspace.addEntry_eq, next, h key]
  rcases hheld : ledger.held? now key with _ | ⟨text | number | held, deadline⟩
  · -- A new stream does not outlive a refused entry.
    simp only [Option.getD_none, stream]
    cases hid : Stream.empty.nextId request now with
    | error e => exact ⟨hid.symm, htouch.erase_absent hheld⟩
    | ok id => exact ⟨hid.symm, htouch.insert key _⟩
  · exact ⟨rfl, htouch⟩
  · exact ⟨rfl, htouch⟩
  · simp only [Option.getD_some, stream]
    cases hid : held.nextId request now with
    | error e =>
        refine ⟨hid.symm, ?_⟩
        by_cases hempty : held = .empty
        · subst hempty
          exact htouch.erase key
        · have hfilled : held.isEmpty = false := by
            rw [← Bool.not_eq_true, Stream.isEmpty_iff]
            exact hempty
          simp only [hfilled, Option.map_some, Option.some.injEq, Value.stream.injEq, if_neg hempty]
          exact htouch
    | ok id => exact ⟨hid.symm, htouch.insert key _⟩

/-- An operation answers what the ledger says, and leaves what the ledger says after it. -/
theorem Describes.perform (op : Operation) :
    ledger.Explains now op (op.perform keyspace now).1 ∧
      (ledger.next now op).Describes now (op.perform keyspace now).2 := by
  cases op with
  | set key value deadline => exact ⟨rfl, h.insert key ⟨value, deadline⟩⟩
  | get key | kind key =>
      refine ⟨?_, h.touch key⟩
      rw [Explains, ← h key]
      rfl
  | increment key => exact ⟨congrArg Outcome.number (h.increment key).1, (h.increment key).2⟩
  | keys =>
      have hmem : ∀ key, key ∈ (keyspace.keys now).1 ↔ (ledger.held? now key).isSome = true :=
        fun key => by rw [KeyCommand.mem_keys, h key]
      exact ⟨⟨_, rfl, (keyspace.keys now).2.nodup, hmem⟩, h.keys⟩
  | addEntry key request fields =>
      have hadded := h.addEntry key request fields
      exact ⟨congrArg Outcome.id hadded.1, hadded.2⟩
  | range key start stop count =>
      have hread := h.readStream key (·.range start stop count)
      exact ⟨congrArg Outcome.entries hread, h.touch key⟩
  | after key above count =>
      have hread := h.readStream key (·.after above count)
      exact ⟨congrArg Outcome.entries hread, h.touch key⟩
  | lastId key =>
      have hread := h.readStream key fun stream => stream.lastId?.getD .zero
      exact ⟨congrArg Outcome.id hread, h.touch key⟩

end Describes

-- An operation that only reads leaves the ledger as it is.
theorem next_read (ledger : Ledger) (now : UInt64) {op : Operation} (h : op.isRead = true) :
    ledger.next now op = ledger := by
  cases op with
  | set key value deadline | increment key | addEntry key request fields =>
      simp only [Operation.isRead, Bool.false_eq_true] at h
  | _ => rfl

/-- What a ledger explains are the same outcomes. -/
theorem Explains.same {op : Operation} {outcome outcome' : Outcome}
    (h : ledger.Explains now op outcome) (h' : ledger.Explains now op outcome') :
    outcome.Same outcome' := by
  cases op with
  | keys =>
      obtain ⟨keys, rfl, hnodup, hmem⟩ := h
      obtain ⟨keys', rfl, hnodup', hmem'⟩ := h'
      refine .keys ((List.perm_ext_iff_of_nodup hnodup hnodup').mpr fun key => ?_)
      rw [hmem, hmem']
  | _ =>
      obtain rfl := Eq.trans h (Eq.symm h')
      exact .refl _

section Runs

/-- A run under a clock that does not go back answers what the ledger says at each operation. -/
theorem Describes.outcomes_explained {ops : List (UInt64 × Operation)}
    (h : ledger.Describes since keyspace) (hsince : ∀ timed ∈ ops, since ≤ timed.1)
    (hsorted : (ops.map (·.1)).Pairwise (· ≤ ·)) :
    ledger.ExplainsAll ops (keyspace.outcomes ops) := by
  induction ops generalizing ledger since keyspace with
  | nil => rfl
  | cons timed ops ih =>
      rcases timed with ⟨now, op⟩
      rw [List.map_cons, List.pairwise_cons, List.forall_mem_map] at hsorted
      have hnow : ledger.Describes now keyspace := h.later (hsince _ List.mem_cons_self)
      obtain ⟨hexplains, hafter⟩ := hnow.perform op
      exact ⟨_, _, rfl, hexplains, ih hafter hsorted.1 hsorted.2⟩

/-- Leaving out operations that only read, which are marked as `false`, changes no other outcome
    of a run. Two keyspaces are followed that hold the same; only one of them is read. -/
theorem Describes.outcomes_leaveOut {marked : List (Bool × UInt64 × Operation)}
    {other : Keyspace} (h : ledger.Describes since keyspace) (h' : ledger.Describes since other)
    (hsince : ∀ timed ∈ marked, since ≤ timed.2.1)
    (hsorted : (marked.map (·.2.1)).Pairwise (· ≤ ·))
    (hreads : ∀ timed ∈ marked, timed.1 = false → timed.2.2.isRead = true) :
    List.Forall₂ Outcome.Same
      (((marked.zip (keyspace.outcomes (marked.map (·.2)))).filter (·.1.1)).map (·.2))
      (other.outcomes ((marked.filter (·.1)).map (·.2))) := by
  induction marked generalizing ledger since keyspace other with
  | nil => exact .nil
  | cons timed marked ih =>
      rcases timed with ⟨isKept, now, op⟩
      rw [List.map_cons, List.pairwise_cons, List.forall_mem_map] at hsorted
      rw [List.forall_mem_cons] at hreads
      have hnow : ledger.Describes now keyspace := h.later (hsince _ List.mem_cons_self)
      have hnow' : ledger.Describes now other := h'.later (hsince _ List.mem_cons_self)
      obtain ⟨hexplains, hafter⟩ := hnow.perform op
      cases isKept with
      | true =>
          obtain ⟨hexplains', hafter'⟩ := hnow'.perform op
          exact .cons (hexplains.same hexplains') (ih hafter hafter' hsorted.1 hsorted.2 hreads.2)
      | false =>
          -- The ledger goes on to describe the keyspace that is not read.
          rw [ledger.next_read now (hreads.1 rfl)] at hafter
          exact ih hafter hnow' hsorted.1 hsorted.2 hreads.2

end Runs

/-- What an operation can do to a ledger: nothing, write an item at its key, or strike it out if it
    holds a stream without entries. -/
inductive Change (ledger : Ledger) (now : UInt64) (op : Operation) : Ledger → Prop where
  | still : Change ledger now op ledger
  | write {key : String} (hkey : op.key? = some key) {item : Item}
      (hitem : item.value = .stream .empty → ∃ deadline, op = .set key item.value deadline) :
      Change ledger now op (ledger.write key item)
  | strike {key : String} (hkey : op.key? = some key)
      (hheld : (ledger.held? now key).map (·.value) = some (.stream .empty)) :
      Change ledger now op (ledger.strike key)

/-- All that an operation does to the ledger is such a change. -/
theorem next_change (ledger : Ledger) (now : UInt64) (op : Operation) :
    ledger.Change now op (ledger.next now op) := by
  cases op with
  | set key value deadline => exact .write rfl fun _ => ⟨deadline, rfl⟩
  | increment key =>
      simp only [next]
      split
      · exact .write rfl fun hvalue => nomatch hvalue
      · exact .still
  | addEntry key request fields =>
      simp only [next]
      split
      · exact .still
      · split
        · exact .write rfl fun hvalue => by simp [Stream.empty] at hvalue
        · split
          · rename_i hheld
            exact .strike rfl hheld
          · exact .still
  | _ => exact .still

/-- An operation on a key leaves alone what other keys were set to. -/
theorem next_of_ne (ledger : Ledger) (now : UInt64) {op : Operation} {key other : String}
    (hkey : op.key? = some key) (hne : other ≠ key) : ledger.next now op other = ledger other := by
  have hchange := ledger.next_change now op
  generalize ledger.next now op = after at hchange ⊢
  cases hchange with
  | still => rfl
  | write hkey' hitem =>
      obtain rfl := Option.some.inj (hkey.symm.trans hkey')
      exact if_neg hne
  | strike hkey' hheld =>
      obtain rfl := Option.some.inj (hkey.symm.trans hkey')
      exact if_neg hne

end Ledger

namespace Keyspace

/-- An operation on a key leaves alone what is stored at other keys. -/
theorem perform_of_ne (keyspace : Keyspace) (now : UInt64) {op : Operation} {key other : String}
    (hkey : op.key? = some key) (hne : other ≠ key) :
    (op.perform keyspace now).2.item? other = keyspace.item? other := by
  have htouch := keyspace.touch_of_ne now hne
  cases op with
  | keys => exact nomatch hkey
  | set name value deadline =>
      obtain rfl := Option.some.inj hkey
      exact keyspace.insert_of_ne _ hne
  | increment name =>
      obtain rfl := Option.some.inj hkey
      exact (increment_local now name).outside keyspace other hne
  | addEntry name request fields =>
      obtain rfl := Option.some.inj hkey
      exact (addEntry_local now name request fields).outside keyspace other hne
  | _ =>
      obtain rfl := Option.some.inj hkey
      exact htouch

/-- Incrementing a key keeps its deadline. -/
theorem increment_item? {keyspace : Keyspace} {now : UInt64} {key : String} {number : Int64}
    (h : (keyspace.increment now key).1 = .ok number) :
    ∃ item, keyspace.live? now key = some item ∧
      (keyspace.increment now key).2.item? key = some { item with value := .integer number } := by
  simp only [increment] at h ⊢
  generalize keyspace.live? now key = held at h ⊢
  rcases held with _ | ⟨text | held | stream, deadline⟩
  · simp only [reduceCtorEq] at h
  · simp only [reduceCtorEq] at h
  · refine ⟨_, rfl, ?_⟩
    simp only at h ⊢
    by_cases hmax : held = Int64.maxValue
    · simp only [if_pos hmax, reduceCtorEq] at h
    · rw [if_neg hmax] at h ⊢
      rw [← Except.ok.inj h, item?_insert, if_pos rfl]
  · simp only [reduceCtorEq] at h

end Keyspace

namespace Ledger

open Keyspace (Operation Outcome)

variable {ledger : Ledger}

/-- No key holds a stream without entries. -/
def Full (ledger : Ledger) : Prop :=
  ∀ key item, ledger key = some item → item.value ≠ .stream .empty

/-- Every key that is in the ledger stays there. -/
def Lasts (ledger after : Ledger) : Prop :=
  ∀ key, (ledger key).isSome = true → (after key).isSome = true

/-- Where no stream is empty, an item that is no empty stream leaves it so. -/
theorem Full.write (h : ledger.Full) {item : Item} (hitem : item.value ≠ .stream .empty)
    (key : String) : (ledger.write key item).Full ∧ ledger.Lasts (ledger.write key item) := by
  constructor
  · intro other found hfound
    rw [Ledger.write] at hfound
    split at hfound
    · rw [← Option.some.inj hfound]
      exact hitem
    · exact h other found hfound
  · intro other hother
    rw [Ledger.write]
    split
    · rfl
    · exact hother

/-- Where no stream is without entries, no key goes. -/
theorem Full.next (h : ledger.Full) (now : UInt64) {op : Operation}
    (hset : ∀ key deadline, op ≠ .set key (.stream .empty) deadline) :
    (ledger.next now op).Full ∧ ledger.Lasts (ledger.next now op) := by
  have hchange := ledger.next_change now op
  generalize ledger.next now op = after at hchange ⊢
  cases hchange with
  | still => exact ⟨h, fun _ => id⟩
  | @write key hkey item hitem =>
      refine h.write (fun hvalue => ?_) key
      obtain ⟨deadline, hop⟩ := hitem hvalue
      exact hset key deadline (hvalue ▸ hop)
  | @strike key hkey hheld =>
      -- A stream that is held has entries.
      obtain ⟨item, hheld, hvalue⟩ := Option.map_eq_some_iff.mp hheld
      exact absurd hvalue (h key item (Option.filter_eq_some_iff.mp hheld).1)

/-- If nobody sets a key to a stream without entries, no key leaves a ledger in which no stream is
    empty. -/
theorem Full.after (h : ledger.Full) {ops : List (UInt64 × Operation)}
    (hset : ∀ timed ∈ ops, ∀ key deadline, timed.2 ≠ .set key (.stream .empty) deadline) :
    ledger.Lasts (ledger.after ops) := by
  induction ops generalizing ledger with
  | nil => exact fun _ => id
  | cons timed ops ih =>
      rw [List.forall_mem_cons] at hset
      obtain ⟨hfull, hlasts⟩ := h.next timed.1 hset.1
      exact fun key hkey => ih hfull hset.2 key (hlasts key hkey)

end Ledger

namespace Keyspace

/-- A keyspace is a ledger: under a clock that does not go back, each operation answers what the
    ledger says. An operation on a key leaves other keys alone, in the keyspace and in the ledger;
    setting a key replaces its deadline, and incrementing it keeps it. Leaving out operations that
    only read, which are marked as `false`, changes no other outcome. If no key is set to a stream
    without entries, a key that is in the ledger stays in it. -/
theorem refines_ledger (keyspace : Keyspace) {ops : List (UInt64 × Operation)}
    (hsorted : (ops.map (·.1)).Pairwise (· ≤ ·)) :
    keyspace.ledger.ExplainsAll ops (keyspace.outcomes ops) ∧
    (∀ (ledger : Ledger) now (op : Operation) key other, op.key? = some key → other ≠ key →
      (op.perform keyspace now).2.item? other = keyspace.item? other ∧
        ledger.next now op other = ledger other) ∧
    (∀ key value deadline, (keyspace.set key value deadline).item? key = some ⟨value, deadline⟩) ∧
    (∀ now key number, (keyspace.increment now key).1 = .ok number →
      ∃ item, keyspace.live? now key = some item ∧
        (keyspace.increment now key).2.item? key = some { item with value := .integer number }) ∧
    (∀ marked : List (Bool × UInt64 × Operation), marked.map (·.2) = ops →
      (∀ timed ∈ marked, timed.1 = false → timed.2.2.isRead = true) →
        List.Forall₂ Outcome.Same
          (((marked.zip (keyspace.outcomes ops)).filter (·.1.1)).map (·.2))
          (keyspace.outcomes ((marked.filter (·.1)).map (·.2)))) ∧
    ((∀ key item, keyspace.item? key = some item → item.value ≠ .stream .empty) →
      (∀ timed ∈ ops, ∀ key deadline, timed.2 ≠ .set key (.stream .empty) deadline) →
        ∀ key, (keyspace.item? key).isSome = true →
          (keyspace.ledger.after ops key).isSome = true) := by
  have hdescribes := Ledger.describes_ledger keyspace 0
  refine ⟨hdescribes.outcomes_explained (fun _ _ => UInt64.zero_le) hsorted,
    fun ledger now op key other hkey hne => ?_, fun key value deadline => ?_,
    fun now key number => increment_item?, fun marked hmarked hreads => ?_, fun hfull hset => ?_⟩
  · exact ⟨keyspace.perform_of_ne now hkey hne, ledger.next_of_ne now hkey hne⟩
  · rw [set, item?_insert, if_pos rfl]
  · subst hmarked
    rw [List.map_map] at hsorted
    exact hdescribes.outcomes_leaveOut hdescribes (fun _ _ => UInt64.zero_le) hsorted hreads
  · have hledger : keyspace.ledger.Full := hfull
    exact hledger.after hset

/-- An expired integer is not there any more, whether it was read or not, and gives way to a
    stream. -/
theorem refines_ledger_recreated :
    let marked : List (Bool × UInt64 × Operation) :=
      [(true, 1, .set "k" (.integer 1) ⟨5⟩), (true, 2, .increment "k"), (false, 5, .get "k"),
        (true, 6, .addEntry "k" .auto [("f", "v")])]
    empty.ledger.ExplainsAll (marked.map (·.2)) (empty.outcomes (marked.map (·.2))) ∧
      List.Forall₂ Outcome.Same [.done, .number (.ok 2), .id (.ok ⟨6, 0⟩)]
        (empty.outcomes ((marked.filter (·.1)).map (·.2))) := by
  intro marked
  have hsorted : ((marked.map (·.2)).map (·.1)).Pairwise (· ≤ ·) := by decide
  obtain ⟨hexplained, -, -, -, hleaveOut, -⟩ := refines_ledger empty hsorted
  exact ⟨hexplained, hleaveOut marked rfl (by decide)⟩

/-- A key that was set without a deadline need not be there, although nobody has set it since: a
    refused entry removes a stream without entries. -/
theorem refused_entry_removes : ¬∀ (keyspace : Keyspace) (key : String) (value : Value)
    (ops : List (UInt64 × Operation)) (now : UInt64),
    (ops.map (·.1) ++ [now]).Pairwise (· ≤ ·) →
    (∀ timed ∈ ops, ∀ value deadline, timed.2 ≠ .set key value deadline) →
      ∃ kind, ((keyspace.set key value .never).outcomes (ops ++ [(now, .kind key)])).getLast? =
        some (.kind (some kind)) := by
  intro h
  let refused : List (UInt64 × Operation) := [(1, .addEntry "k" (.explicit .zero) [("f", "v")])]
  obtain ⟨kind, hkind⟩ := h empty "k" (.stream .empty) refused 2 (by decide) (by simp [refused])
  have hgone : ((empty.set "k" (.stream .empty) .never).outcomes
      (refused ++ [(2, .kind "k")])).getLast? = some (.kind none) := by decide +kernel
  rw [hgone] at hkind
  simp at hkind

end Keyspace

end KeyValue
