import KeyValue.Proofs.Engine.Chronicle
import KeyValue.Proofs.Engine.Direct
import KeyValue.Proofs.Engine.Refusing
import KeyValue.Proofs.Keyspace.Canonical
import KeyValue.Proofs.Text.Utf8

/-!
# Incrementing and reading

What a key reads as tells what incrementing it does. All values of a server are canonical, whoever
has written them (`canonical_invariant`), so a value that reads as a number in its canonical
spelling is this number. It is incremented if it is not the greatest number of 64 bits; then it
reads as the next number, and its deadline stays. Anything else is refused, and nothing changes.

Setting a key to the text that it reads as puts the same value there again, with the deadline that
the command asks for. So from then on, as long as this deadline has not passed, incrementing the key
any number of times does what it would have done before (`dispatchAll_of_item`).

## Main definitions

* `Engine.Shows`, `Engine.ShowsNumber`: What a session reads at a key.

## Theorems

* `canonical_invariant`: The values of a server are canonical.
* `dispatch_increment`, `dispatch_get_live`, `dispatch_set_ok`: What a session is answered.
* `dispatchAll_of_item`: Only the value of the key decides.
* `increment_agrees_with_get`: Incrementing and reading agree.
-/

namespace KeyValue

namespace Engine

/-- The values of a server are canonical. -/
theorem canonical_invariant : Keyspace.Invariant Keyspace.Canonical :=
  ⟨Keyspace.empty_canonical, .prunes, .set, .increment, .addEntry⟩

/-- A session that sends a command reads this text. -/
def Shows (engine : Engine) (session : Session) (now : UInt64) (get : Command) (text : String) :
    Prop :=
  (engine.dispatch session now get).1 = .answered (.reply (.bulkText text))

/-- A session that sends a command reads a number of 64 bits that is not the greatest one, in its
    canonical spelling. -/
def ShowsNumber (engine : Engine) (session : Session) (now : UInt64) (get : Command) (n : Int) :
    Prop :=
  -2 ^ 63 ≤ n ∧ n < 2 ^ 63 - 1 ∧ engine.Shows session now get (Decimal.ofInt n)

section Live

variable {engine : Engine} {session : Session} {now : UInt64} {key : String} {item : Item}
  {command : Command} (hclosed : session.transaction = .closed)

include hclosed

/-- A session reads what is live. -/
theorem dispatch_get_live (hlive : engine.keyspace.live? now key = some item)
    (hrequest : Request.ofCommand command = .ok (.get key)) :
    (engine.dispatch session now command).1 =
      .answered (.ofExcept (KeyCommand.valueReply item.value)) := by
  rcases engine.dispatch_immediate now hrequest trivial hclosed with ⟨after, hdispatch, -⟩
  rw [hdispatch]
  simp only [run, withKeyspace, KeyCommand.get, Keyspace.get, hlive, Option.map_some]

theorem shows_iff (hlive : engine.keyspace.live? now key = some item)
    (hrequest : Request.ofCommand command = .ok (.get key)) (text : String) :
    engine.Shows session now command text ↔ item.value.shown? = some text := by
  rw [Shows, dispatch_get_live hclosed hlive hrequest]
  rcases item with ⟨value, deadline⟩
  cases value with
  | stream stream =>
      simp [KeyCommand.valueReply, Value.shown?, Response.ofExcept, Reply.ofExcept, Reply.ofError,
        Reply.bulkText]
  | _ =>
      simp only [KeyCommand.valueReply, Value.shown?, Response.ofExcept, Reply.ofExcept,
        Reply.bulkText, Dispatch.answered.injEq, Response.reply.injEq, Reply.bulk.injEq,
        Option.some.injEq]
      exact ⟨fun h => Text.bytes_injective h, fun h => by rw [h]⟩

theorem showsNumber_iff (hlive : engine.keyspace.live? now key = some item)
    (hrequest : Request.ofCommand command = .ok (.get key)) (n : Int) :
    engine.ShowsNumber session now command n ↔
      -2 ^ 63 ≤ n ∧ n < 2 ^ 63 - 1 ∧ item.value.shown? = some (Decimal.ofInt n) := by
  rw [ShowsNumber, shows_iff hclosed hlive hrequest]

/-- Incrementing what is live is answered by the value alone. -/
theorem dispatch_increment (hlive : engine.keyspace.live? now key = some item)
    (hrequest : Request.ofCommand command = .ok (.increment key)) :
    ∃ after, engine.dispatch session now command =
        (.answered (.ofExcept (item.value.increment.map .integer)), after, session) ∧
      after.Alike { engine with
        keyspace := match item.value.increment with
          | .ok next => engine.keyspace.insert key { item with value := .integer next }
          | .error _ => engine.keyspace } := by
  rcases engine.dispatch_immediate now hrequest trivial hclosed with ⟨after, hdispatch, hafter⟩
  simp only [run, withKeyspace, KeyCommand.increment, Keyspace.increment_of_live hlive] at *
  exact ⟨after, hdispatch, hafter⟩

/-- A key that is set holds the value, with the deadline that is asked for. -/
theorem dispatch_set_ok {text : String} {options : List String} {deadline : Deadline}
    (hrequest : Request.ofCommand command = .ok (.set key text options))
    (hdeadline : KeyCommand.deadlineOf now .never options = .ok deadline) :
    ∃ after, engine.dispatch session now command = (.answered (.reply .ok), after, session) ∧
      after.keyspace.item? key = some ⟨.ofText text, deadline⟩ := by
  rcases engine.dispatch_immediate now hrequest trivial hclosed with ⟨after, hdispatch, hafter⟩
  simp only [run, withKeyspace, KeyCommand.set, hdeadline] at hdispatch hafter
  refine ⟨after, hdispatch, ?_⟩
  rw [hafter.keyspace, Keyspace.set, Keyspace.item?_insert, if_pos rfl]

omit hclosed in
theorem live?_of_item (hitem : engine.keyspace.item? key = some item)
    (hlive : item.isExpired now = false) : engine.keyspace.live? now key = some item := by
  rw [Keyspace.live?, hitem, Option.filter_some, hlive]
  rfl

/-- As long as a key does not expire, incrementing it again and again is answered by its value
    alone: another engine that holds the value answers the same, at whatever times. -/
theorem dispatchAll_of_item (hrequest : Request.ofCommand command = .ok (.increment key))
    (times : List (UInt64 × UInt64)) :
    ∀ {engine other : Engine} {value : Value} {deadline deadline' : Deadline},
      engine.keyspace.item? key = some ⟨value, deadline⟩ →
      other.keyspace.item? key = some ⟨value, deadline'⟩ →
      (∀ time ∈ times, deadline.hasPassed time.1 = false ∧ deadline'.hasPassed time.2 = false) →
      (engine.dispatchAll session (times.map fun time => (time.1, command))).1 =
        (other.dispatchAll session (times.map fun time => (time.2, command))).1 := by
  induction times with
  | nil => exact fun _ _ _ => rfl
  | cons time rest ih =>
      intro engine other value deadline deadline' hitem hother htimes
      rw [List.forall_mem_cons] at htimes
      rcases dispatch_increment hclosed (live?_of_item hitem htimes.1.1) hrequest with
        ⟨after, hdispatch, hafter⟩
      rcases dispatch_increment hclosed (live?_of_item hother htimes.1.2) hrequest with
        ⟨after', hdispatch', hafter'⟩
      simp only [List.map_cons, dispatchAll, hdispatch, hdispatch', List.cons.injEq, true_and]
      -- Both engines hold the same value again, incremented or not.
      cases hvalue : value.increment with
      | error e =>
          simp only [hvalue] at hafter hafter'
          rw [← hafter.keyspace] at hitem
          rw [← hafter'.keyspace] at hother
          exact ih hitem hother htimes.2
      | ok next =>
          simp only [hvalue] at hafter hafter'
          have hitem : after.keyspace.item? key = some ⟨.integer next, deadline⟩ := by
            rw [hafter.keyspace, Keyspace.item?_insert, if_pos rfl]
          have hother : after'.keyspace.item? key = some ⟨.integer next, deadline'⟩ := by
            rw [hafter'.keyspace, Keyspace.item?_insert, if_pos rfl]
          exact ih hitem hother htimes.2

end Live

section Agreeing

variable {engine : Engine} {session : Session} {now : UInt64} {key : String} {item : Item}
  {incr : Command} (hclosed : session.transaction = .closed)
  (hlive : engine.keyspace.live? now key = some item)
  (hincr : Request.ofCommand incr = .ok (.increment key))

include hclosed hlive hincr

/-- Incrementing succeeds exactly if the value can be incremented. -/
theorem increments_iff :
    (∃ number, (engine.dispatch session now incr).1 = .answered (.reply (.integer number))) ↔
      ∃ next, item.value.increment = .ok next := by
  rcases dispatch_increment hclosed hlive hincr with ⟨after, hdispatch, -⟩
  rw [hdispatch]
  cases item.value.increment with
  | error e => simp [Response.ofExcept, Except.map, Reply.ofExcept, Reply.ofError]
  | ok next => exact ⟨fun _ => ⟨next, rfl⟩, fun _ => ⟨next, rfl⟩⟩

/-- A number that is incremented is answered, and held, as the next one. -/
theorem dispatch_increment_ok {next : Int64} (hnext : item.value.increment = .ok next) :
    (engine.dispatch session now incr).1 = .answered (.reply (.integer next)) ∧
      (engine.dispatch session now incr).2.1.keyspace.item? key =
        some { item with value := .integer next } := by
  rcases dispatch_increment hclosed hlive hincr with ⟨after, hdispatch, hafter⟩
  simp only [hnext] at hdispatch hafter
  rw [hdispatch, hafter.keyspace, Keyspace.item?_insert, if_pos rfl]
  exact ⟨rfl, rfl⟩

/-- What cannot be incremented is refused, and nothing happens. -/
theorem dispatch_increment_error (hsound : engine.keyspace.Sound) {e : Error}
    (he : item.value.increment = .error e) :
    (engine.dispatch session now incr).1 = .answered (.refusal e) ∧
      (engine.dispatch session now incr).2.1.Alike engine ∧
      (engine.dispatch session now incr).2.1.links = engine.links := by
  rcases dispatch_increment hclosed hlive hincr with ⟨after, hdispatch, hafter⟩
  simp only [he] at hdispatch hafter
  have hkind := (Request.kind_eq_write_iff hincr).mpr rfl
  have huntouched := (Tries.sent hdispatch).untouched hsound hkind rfl
  rw [hdispatch]
  exact ⟨rfl, hafter, huntouched.links⟩

end Agreeing

/-- Incrementing agrees with reading, whatever has happened to a server.

    A live key is incremented exactly if it reads as a number of 64 bits, in its canonical spelling,
    that is not the greatest one. Then the next number is answered, and the key reads as this number
    as long as it does not expire; its kind and its deadline stay. A key that reads as anything
    else, or that holds a stream, is refused, and nothing happens. Setting the key to what it reads
    as puts the same value there, and from then on it is incremented as it would have been. -/
theorem increment_agrees_with_get {engine : Engine} (h : engine.Reachable) {session : Session}
    (hclosed : session.transaction = .closed) {now : UInt64} {key : String} {item : Item}
    (hlive : engine.keyspace.live? now key = some item) {get incr : Command}
    (hget : Request.ofCommand get = .ok (.get key))
    (hincr : Request.ofCommand incr = .ok (.increment key)) :
    let after := (engine.dispatch session now incr).2.1
    ((∃ number, (engine.dispatch session now incr).1 = .answered (.reply (.integer number))) ↔
      ∃ n, engine.ShowsNumber session now get n) ∧
    (∀ n, engine.ShowsNumber session now get n → ∃ next : Int64, next.toInt = n + 1 ∧
      (engine.dispatch session now incr).1 = .answered (.reply (.integer next)) ∧
      after.keyspace.item? key = some ⟨.integer next, item.deadline⟩ ∧
      item.value.kind = (Value.integer next).kind ∧
      ∀ later, item.isExpired later = false →
        after.Shows session later get (Decimal.ofInt (n + 1))) ∧
    ((¬ ∃ n, engine.ShowsNumber session now get n) →
      (engine.dispatch session now incr).1 =
        .answered (.refusal (if item.value.kind = .stream then .wrongType else .notInteger)) ∧
      after.Alike engine ∧ after.links = engine.links) ∧
    ∀ text, engine.Shows session now get text → ∀ set options deadline,
      Request.ofCommand set = .ok (.set key text options) →
      KeyCommand.deadlineOf now .never options = .ok deadline →
      let again := (engine.dispatch session now set).2.1
      (engine.dispatch session now set).1 = .answered (.reply .ok) ∧
      again.keyspace.item? key = some ⟨item.value, deadline⟩ ∧
      ∀ times : List (UInt64 × UInt64),
        (∀ time ∈ times, deadline.hasPassed time.1 = false ∧ item.isExpired time.2 = false) →
        (again.dispatchAll session (times.map fun time => (time.1, incr))).1 =
          (engine.dispatchAll session (times.map fun time => (time.2, incr))).1 := by
  intro after
  have hcanonical : item.value.Canonical := (canonical_invariant.reachable h).live? hlive
  have hitem := (Option.filter_eq_some_iff.mp hlive).1
  have hincrements : (∃ next, item.value.increment = .ok next) ↔
      ∃ n, engine.ShowsNumber session now get n :=
    hcanonical.increments_iff.trans
      (exists_congr fun n => (showsNumber_iff hclosed hlive hget n).symm)
  refine ⟨(increments_iff hclosed hlive hincr).trans hincrements, ?_, ?_, ?_⟩
  · intro n hn
    rcases (showsNumber_iff hclosed hlive hget n).mp hn with ⟨hlow, hhigh, hshown⟩
    have hvalue := hcanonical.eq_integer hlow (by omega) hshown
    have hnext := Value.increment_integer hlow hhigh
    rw [← hvalue] at hnext
    rcases dispatch_increment_ok hclosed hlive hincr hnext with ⟨hanswer, hheld⟩
    refine ⟨_, Int64.toInt_ofInt_of_le (by omega) (by omega), hanswer, hheld, ?_, ?_⟩
    · rw [hvalue]
      rfl
    · intro later hlater
      rw [shows_iff hclosed (live?_of_item hheld hlater) hget, Value.shown?,
        Decimal.ofInt64_ofInt (by omega) (by omega)]
  · intro hnone
    exact dispatch_increment_error hclosed hlive hincr h.sound
      (Value.increment_error fun hnext => hnone (hincrements.mp hnext))
  · intro text hshows set options deadline hset hdeadline again
    rcases @dispatch_set_ok engine _ _ _ _ hclosed _ _ _ hset hdeadline with
      ⟨again', hdispatch, hheld⟩
    have hagain : again = again' := congrArg (·.2.1) hdispatch
    rw [hcanonical text ((shows_iff hclosed hlive hget _).mp hshows), ← hagain] at hheld
    exact ⟨congrArg (·.1) hdispatch, hheld, fun times htimes =>
      dispatchAll_of_item hclosed hincr times hheld hitem htimes⟩

/-- A number with a deadline is incremented up to the deadline. When it is set to what it reads as
    before, it has no deadline, and it is incremented to the same. -/
theorem increment_agrees_with_get_of_deadline :
    let happenings : List Happening := [.dispatched {} 5 (.ofParts .set ["k", "-1", "PX", "100"])]
    let engine := ((start {} .missing "id").chronicle happenings).2
    let incr := Command.ofParts .incr ["k"]
    let again := (engine.dispatch {} 8 (.ofParts .set ["k", "-1"])).2.1
    (engine.dispatch {} 8 incr).1 = .answered (.reply (.integer 0)) ∧
      (engine.dispatch {} 8 incr).2.1.Shows {} 104 (.ofParts .get ["k"]) "0" ∧
      (again.dispatchAll {} [(300, incr), (200, incr)]).1 =
        (engine.dispatchAll {} [(8, incr), (9, incr)]).1 := by
  intro happenings engine incr again
  have hlive : engine.keyspace.live? 8 "k" = some ⟨.integer (-1), ⟨105⟩⟩ := by decide +kernel
  have hreachable : engine.Reachable :=
    Reachable.chronicle happenings _ (.start {} .missing "id")
  have h := @increment_agrees_with_get _ hreachable {} rfl 8 "k" _ hlive (.ofParts .get ["k"]) incr
    rfl rfl
  have hshown : (Value.integer (-1)).shown? = some (Decimal.ofInt (-1)) := rfl
  have hspelled : Decimal.ofInt (-1) = "-1" := by decide +kernel
  rcases h.2.1 (-1) ((showsNumber_iff rfl hlive rfl _).mpr ⟨by decide, by decide, hshown⟩) with
    ⟨next, hnext, hanswer, -, -, hlater⟩
  obtain rfl : next = 0 := Int64.toInt_inj.mp hnext
  refine ⟨hanswer, hlater 104 (by decide +kernel), ?_⟩
  have hshows := (@shows_iff engine {} 8 "k" _ (.ofParts .get ["k"]) rfl hlive rfl _).mpr
    (hspelled ▸ hshown)
  exact (h.2.2.2 "-1" hshows (.ofParts .set ["k", "-1"]) [] .never rfl rfl).2.2
    [(300, 8), (200, 9)] (List.forall_mem_cons.mpr ⟨by decide +kernel,
      List.forall_mem_singleton.mpr (by decide +kernel)⟩)

end Engine

end KeyValue
