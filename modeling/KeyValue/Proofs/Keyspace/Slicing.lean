import KeyValue.Proofs.Bounds.Checked
import KeyValue.Proofs.Stream.Ranges
import KeyValue.Keyspace

/-!
# Streams by place, and numbers that fit

What streams and counters are asked to do, with checked operations: a range of a stream is a slice
between two places that are searched for, the next id and the next number are one more than the
last.

They run into no fault. The places of a range are found in order, as long as its bounds are, and the
greatest id and the greatest number are refused before one is added to them.

## Main definitions

* `Places.nextId`: The id that a new entry gets.
* `Places.range`, `Places.after`: Parts of a stream.
* `Places.increment`, `Places.addEntry`, `Places.readStream`: What a keyspace is asked to do.

## Theorems

* `nextId_eq`, `range_eq`, `after_eq`: They answer as streams do.
* `increment_eq`, `addEntry_eq`, `readStream_eq`: They answer as keyspaces do.
-/

namespace KeyValue

namespace Places

/-- The least id of the given milliseconds above `last`. -/
def nextIn (last : Option StreamId) (ms : UInt64) : Checked (Except Error StreamId) :=
  match last with
  | none => .ok (.ok (Stream.nextIn.first ms))
  | some top =>
    if top.ms = ms then
      if top.seq = StreamId.maxPart then .ok (.error StreamId.tooSmall)
      else do
        let seq ← Checked.unsigned (top.seq.toNat + 1)
        return .ok ⟨ms, seq⟩
    else if ms < top.ms then .ok (.error StreamId.tooSmall)
    else .ok (.ok (Stream.nextIn.first ms))

/-- The id that a new entry gets. -/
def nextId (stream : Stream) (request : IdRequest) (now : UInt64) :
    Checked (Except Error StreamId) :=
  let last := stream.lastId?
  match request with
  | .explicit id =>
    .ok (if id = StreamId.zero then .error StreamId.notAboveZero
      else (Stream.checkAbove last id).map fun _ => id)
  | .autoSequence ms => nextIn last ms
  | .auto =>
    match last with
    | none => nextIn last now
    | some top => nextIn last (if now < top.ms then top.ms else now)

/-- The first `count` entries, or all of them. -/
def takeCount (count : Option Nat) (entries : List StreamEntry) : Checked (List StreamEntry) :=
  Checked.front entries (min (count.getD entries.length) entries.length)

/-- The entries from `start` to `stop`, at most `count` of them. -/
def range (stream : Stream) (start stop : StreamId) (count : Option Nat) :
    Checked (List StreamEntry) :=
  if stop < start then .ok []
  else do
    let between ← Checked.slice stream.entries (stream.position (· < start))
      (stream.position (· ≤ stop))
    takeCount count between

/-- The entries above `id`, at most `count` of them. -/
def after (stream : Stream) (id : StreamId) (count : Option Nat) : Checked (List StreamEntry) := do
  let above ← Checked.behind stream.entries (stream.position (· ≤ id))
  takeCount count above

/-- Add one to the integer of a key. -/
def increment (keyspace : Keyspace) (now : UInt64) (key : String) :
    Checked (Except Error Int64 × Keyspace) :=
  let touched := keyspace.touch now key
  match keyspace.live? now key with
  | none => .ok (.error .noSuchKey, touched)
  | some item =>
    match item.value with
    | .integer number =>
      if number = Int64.maxValue then .ok (.error .notInteger, touched)
      else do
        let next ← Checked.signed (number.toInt + 1)
        return (.ok next, touched.insert key { item with value := .integer next })
    | .text _ => .ok (.error .notInteger, touched)
    | .stream _ => .ok (.error .wrongType, touched)

/-- Add an entry to the stream of a key. -/
def addEntry (keyspace : Keyspace) (now : UInt64) (key : String) (request : IdRequest)
    (fields : List (String × String)) : Checked (Except Error StreamId × Keyspace) :=
  let touched := keyspace.touch now key
  let item := (keyspace.live? now key).getD ⟨.stream .empty, .never⟩
  let opened := match keyspace.live? now key with
    | some _ => touched
    | none => touched.insert key item
  match item.value with
  | .stream stream => do
    match ← nextId stream request now with
    | .error e => return (.error e, if stream.isEmpty then opened.erase key else opened)
    | .ok id =>
      match stream.append id fields with
      | .error e => return (.error e, opened)
      | .ok stream => return (.ok id, opened.insert key { item with value := .stream stream })
  | _ => .ok (.error .wrongType, opened)

/-- Read from the stream of a key. -/
def readStream {α : Type} (keyspace : Keyspace) (now : UInt64) (key : String)
    (read : Stream → Checked α) : Checked (Except Error α × Keyspace) :=
  let touched := keyspace.touch now key
  match (keyspace.live? now key).map Item.value with
  | none => do return (.ok (← read .empty), touched)
  | some (.stream stream) => do return (.ok (← read stream), touched)
  | some _ => .ok (.error .wrongType, touched)

/-- The next sequence is one that an id can have. -/
theorem nextIn_eq (last : Option StreamId) (ms : UInt64) :
    nextIn last ms = .ok (Stream.nextIn last ms) := by
  unfold nextIn Stream.nextIn
  cases last with
  | none => rfl
  | some top =>
      by_cases hms : top.ms = ms
      · by_cases hlast : top.seq = StreamId.maxPart
        · simp only [if_pos hms, if_pos hlast]
        · have hmax : StreamId.maxPart.toNat = Decimal.maxUInt64 := rfl
          have hsize : Decimal.maxUInt64 = 2 ^ 64 - 1 := rfl
          have hless : top.seq.toNat < Decimal.maxUInt64 := by
            have hbound := top.seq.toNat_lt
            have hne : top.seq.toNat ≠ StreamId.maxPart.toNat :=
              fun hsame => hlast (UInt64.toNat_inj.mp hsame)
            omega
          have hnext : UInt64.ofNat (top.seq.toNat + 1) = top.seq + 1 := by
            rw [UInt64.ofNat_add, UInt64.ofNat_toNat]
            rfl
          simp only [if_pos hms, if_neg hlast, Checked.unsigned_eq_ok hless, Checked.ok_bind,
            Checked.pure_eq_ok, hnext]
      · simp only [if_neg hms]
        split <;> rfl

theorem nextId_eq (stream : Stream) (request : IdRequest) (now : UInt64) :
    nextId stream request now = .ok (stream.nextId request now) := by
  unfold nextId Stream.nextId
  cases request with
  | explicit id => rfl
  | autoSequence ms => exact nextIn_eq _ _
  | auto =>
      cases stream.lastId? with
      | none => exact nextIn_eq _ _
      | some top => exact nextIn_eq _ _

theorem takeCount_eq (count : Option Nat) (entries : List StreamEntry) :
    takeCount count entries = .ok (Stream.takeCount count entries) := by
  rw [takeCount, Checked.front_eq_ok (Nat.min_le_right _ _)]
  cases count with
  | none => simp [Stream.takeCount]
  | some count => simp [Stream.takeCount, List.take_eq_take_iff]

/-- The slice of a range starts before it ends. -/
theorem range_eq (stream : Stream) (start stop : StreamId) (count : Option Nat) :
    range stream start stop count = .ok (stream.range start stop count) := by
  unfold range Stream.range
  by_cases hempty : stop < start
  · simp only [if_pos hempty]
  · have hordered := stream.position_le_position (StreamId.not_lt.mp hempty)
    simp only [if_neg hempty]
    rw [Checked.slice_eq_ok hordered (stream.position_le_size _), Checked.ok_bind, takeCount_eq]

theorem after_eq (stream : Stream) (id : StreamId) (count : Option Nat) :
    after stream id count = .ok (stream.after id count) := by
  unfold after Stream.after
  rw [Checked.behind_eq_ok (stream.position_le_size _), Checked.ok_bind, takeCount_eq]

/-- A number that is not the greatest one has a next. -/
theorem increment_eq (keyspace : Keyspace) (now : UInt64) (key : String) :
    increment keyspace now key = .ok (keyspace.increment now key) := by
  unfold increment Keyspace.increment
  cases keyspace.live? now key with
  | none => rfl
  | some item =>
      rcases hvalue : item.value with text | number | stream
      · simp only [hvalue]
      · by_cases hlast : number = Int64.maxValue
        · simp only [hvalue, if_pos hlast]
        · have hmax : Int64.maxValue.toInt = 2 ^ 63 - 1 := rfl
          have hmin : Int64.minValue.toInt = -2 ^ 63 := rfl
          have hleast := number.le_toInt
          have hgreatest := number.toInt_lt
          have hne : number.toInt ≠ Int64.maxValue.toInt :=
            fun hsame => hlast (Int64.toInt_inj.mp hsame)
          have hnext : Int64.ofInt (number.toInt + 1) = number + 1 := by
            rw [Int64.ofInt_add, Int64.ofInt_toInt]
            rfl
          simp only [hvalue, if_neg hlast]
          rw [Checked.signed_eq_ok (by omega) (by omega), Checked.ok_bind, hnext]
          rfl
      · simp only [hvalue]

theorem addEntry_eq (keyspace : Keyspace) (now : UInt64) (key : String) (request : IdRequest)
    (fields : List (String × String)) :
    addEntry keyspace now key request fields =
      .ok (keyspace.addEntry now key request fields) := by
  unfold addEntry Keyspace.addEntry
  generalize (keyspace.live? now key).getD ⟨.stream .empty, .never⟩ = item
  rcases item with ⟨text | number | stream, deadline⟩
  · rfl
  · rfl
  · simp only [nextId_eq, Checked.ok_bind]
    cases stream.nextId request now with
    | error e => rfl
    | ok id =>
        simp only
        cases stream.append id fields <;> rfl

theorem readStream_eq {α : Type} {read : Stream → Checked α} {found : Stream → α}
    (h : ∀ stream, read stream = .ok (found stream)) (keyspace : Keyspace) (now : UInt64)
    (key : String) :
    readStream keyspace now key read = .ok (keyspace.readStream now key found) := by
  unfold readStream Keyspace.readStream
  rcases keyspace.live? now key with _ | ⟨text | number | stream, deadline⟩
  · simp only [Option.map_none, h, Checked.ok_bind, Checked.pure_eq_ok]
  · rfl
  · rfl
  · simp only [Option.map_some, h, Checked.ok_bind, Checked.pure_eq_ok]

end Places

end KeyValue
