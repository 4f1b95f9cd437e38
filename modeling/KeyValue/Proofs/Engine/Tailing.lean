import KeyValue.Proofs.Engine.Chronicle
import KeyValue.Proofs.Sessions.Storing
import KeyValue.Proofs.Stream.Ids
import KeyValue.Proofs.Text.Utf8

/-!
# Following a stream

A client follows the stream of a key. It reads the entries above an id, a few at a time, and after
each read it goes on above the last entry that it has received. Between its reads anything may
happen, except that the key is set.

What the client has received is then a prefix of the entries above its first id, and what it has
not received yet lies above the id that it sends next (`filter_above_lastOr`). The first is kept by
all that happens between its reads, because a stream only grows at its end (`Follows.happens`). A
read brings the next entries of what is left (`Follows.reads`): the id is written in the reply, sent
again as it was written, and read back as the same id. So a read that finds nothing tells that
nothing is left.

## Main definitions

* `Tailing`: A client that follows a stream, with the engine.
* `Tailing.read`: The client reads.
* `Tailing.run`: The client reads while other things happen.
* `Tailing.Follows`: What was received and what is left.

## Theorems

* `Engine.dispatch_tail`: What a read of one stream is answered.
* `Follows.happens`, `Follows.reads`: One step.
* `run_follows`: A whole run.
* `run_loses_nothing`: Nothing is lost or repeated.
-/

namespace KeyValue

/-- The entries in the reply to a read of one stream. -/
def Reply.streamEntries : Reply → List Reply
  | .array [.array [_, .array entries]] => entries
  | _ => []

/-- The id of an entry, as its reply has it. -/
def Reply.entryId? : Reply → Option String
  | .array (id :: _) => id.text?
  | _ => none

/-- Whether a reply tells that nothing was found. -/
def Reply.isNull : Reply → Bool
  | .null => true
  | _ => false

instance (reply : Option Reply) : Decidable (reply = some .null) :=
  decidable_of_iff (reply.any Reply.isNull = true) (by
    rcases reply with _ | reply
    · simp
    · cases reply <;> simp [Reply.isNull])

/-- The reply of a command that was answered with one. -/
def Dispatch.reply? : Dispatch → Option Reply
  | .answered (.reply reply) => some reply
  | _ => none

/-- The reply to a read of one stream. -/
def Cursor.tailReply (key : String) (entries : List StreamEntry) : Reply :=
  if entries.isEmpty then .null else .array [streamReply key entries]

theorem Reply.streamEntries_tailReply (key : String) (entries : List StreamEntry) :
    (Cursor.tailReply key entries).streamEntries = entries.map StreamEntry.reply := by
  cases entries <;> rfl

theorem Cursor.tailReply_eq_null_iff {key : String} {entries : List StreamEntry} :
    tailReply key entries = .null ↔ entries = [] := by
  cases entries <;> simp [tailReply]

theorem Reply.entryId?_reply (entry : StreamEntry) :
    entry.reply.entryId? = some entry.id.text := by
  simp only [StreamEntry.reply, entryId?, bulkText, text?, Text.ofBytes_bytes]

namespace Engine

variable {engine : Engine} {session : Session} {key last count : String} {top : StreamId}
  {wanted : Nat}

-- A read of one stream from an id finds what lies above it.
theorem startRead_tail (engine : Engine) (now : UInt64) (key : String)
    (hlast : StreamId.rangeStart last = .ok top) (hcount : Decimal.count? count = some wanted) :
    let found := engine.keyspace.after now key top (some wanted)
    engine.startRead now ["COUNT", count, "STREAMS", key, last] =
      (.answered (found.1.map (Cursor.tailReply key)), { engine with keyspace := found.2 }) := by
  intro found
  have harguments : StreamRead.ofArguments {} ["COUNT", count, "STREAMS", key, last] =
      .ok { count := some wanted, starts := [(key, last)] } := by
    have hother : Text.sameWord "COUNT" "STREAMS" = false := by decide +kernel
    have hsame : ∀ word, Text.sameWord word word = true := fun _ => beq_self_eq_true _
    simp [StreamRead.ofArguments, StreamRead.startsOf, hother, hsame, hcount, Except.map]
  -- The word that stands for the last entry is no id.
  have hdollar : last ≠ "$" := by
    rintro rfl
    exact nomatch hlast
  have hresolve : Cursor.resolveAll engine.keyspace now [(key, last)] =
      (.ok [⟨key, top⟩], engine.keyspace) := by
    simp only [Cursor.resolveAll, Cursor.resolve, if_neg hdollar, hlast, Except.map]
  simp only [startRead, openRead, harguments, withKeyspace, hresolve, Except.map, readAll,
    Cursor.readAll, Cursor.read]
  rcases hfound : engine.keyspace.after now key top (some wanted) with ⟨e | entries, keyspace⟩
  · simp only [found, hfound]
  · cases entries <;> simp [found, hfound, Cursor.tailReply, Cursor.readReply]

/-- A read of one stream is answered with the next entries above its id, or is refused. It writes
    nothing. -/
theorem dispatch_tail (hsound : engine.keyspace.Sound) (hclosed : session.transaction = .closed)
    (now : UInt64) (key : String) (hlast : StreamId.rangeStart last = .ok top)
    (hcount : Decimal.count? count = some wanted) :
    ∃ result after,
      engine.dispatch session now (.ofParts .xread ["COUNT", count, "STREAMS", key, last]) =
        (.answered (.ofExcept result), after, session) ∧ Quiet engine after ∧
      ∀ reply, result = .ok reply → reply = Cursor.tailReply key
        (((engine.keyspace.entriesOf key).filter (top < ·.id)).take wanted) := by
  generalize hcommand : Command.ofParts .xread ["COUNT", count, "STREAMS", key, last] = command
  have hrequest : Request.ofCommand command =
      .ok (.readStreams ["COUNT", count, "STREAMS", key, last]) := by rw [← hcommand]; rfl
  have hrecord := engine.record_quiet command
  have hstart := startRead_tail (engine.record command).2 now key hlast hcount
  have hquiet := (engine.record command).2.startRead_quiet now
    ["COUNT", count, "STREAMS", key, last]
  have hhandle : (engine.record command).2.handle session now (engine.record command).1 command =
      _ := handle_of_closed hrequest hclosed
  simp only [perform, startRequest, hstart] at hhandle
  rw [hstart] at hquiet
  refine ⟨_, _, engine.dispatch_of_handle now hhandle,
    (hrecord.trans hquiet).trans (conclude_quiet _ _ _), fun reply hreply => ?_⟩
  cases hfound : ((engine.record command).2.keyspace.after now key top (some wanted)).1 with
  | error e => simp only [hfound, Except.map, reduceCtorEq] at hreply
  | ok entries =>
      have hentries := Keyspace.after_eq (hrecord.keyspace.sound hsound) hfound
      rw [hrecord.keyspace.entriesOf_eq hsound] at hentries
      rw [hfound, Except.map, Except.ok.injEq] at hreply
      rw [← hreply, hentries, Stream.takeCount]

end Engine

/-- A client that follows a stream, with the engine that it reads from. -/
structure Tailing where
  engine : Engine
  session : Session
  /-- The id that the client sends with its next read. -/
  last : String
  /-- The entries that the client has received, as they were sent. -/
  received : List Reply := []

namespace Tailing

/-- The command of a read of at most `count` entries. -/
def command (key last count : String) : Command :=
  .ofParts .xread ["COUNT", count, "STREAMS", key, last]

/-- The client takes the entries of a reply, and goes on above the last one. -/
def receive (tailing : Tailing) (entries : List Reply) : Tailing :=
  { tailing with
    last := (entries.getLast?.bind Reply.entryId?).getD tailing.last
    received := tailing.received ++ entries }

/-- The client reads; the result is what it is answered. -/
def read (tailing : Tailing) (key : String) (now : UInt64) (count : String) :
    Option Reply × Tailing :=
  let (result, engine, session) :=
    tailing.engine.dispatch tailing.session now (command key tailing.last count)
  let entries := result.reply?.elim [] (·.streamEntries)
  (result.reply?, { tailing with engine, session }.receive entries)

/-- What can happen while a client follows a stream. -/
inductive Move where
  | reads (now : UInt64) (count : String)
  | happens (happening : Engine.Happening)

/-- A text that asks for some entries. -/
def Wants (count : String) (wanted : Nat) : Prop :=
  Decimal.count? count = some wanted ∧ 0 < wanted

/-- A read asks for some entries. -/
def Move.Asks : Move → Prop
  | reads _ count => ∃ wanted, Wants count wanted
  | happens _ => True

/-- One move, with what others have executed. -/
def step (tailing : Tailing) (key : String) : Move → List Executed × Tailing
  | .reads now count => ([], (tailing.read key now count).2)
  | .happens happening =>
    let (log, engine) := tailing.engine.happen happening
    (log, { tailing with engine })

/-- The client reads while other things happen; with the log of what others have executed. -/
def run (tailing : Tailing) (key : String) : List Move → List Executed × Tailing
  | [] => ([], tailing)
  | move :: rest =>
    let (log, tailing) := tailing.step key move
    let (logs, tailing) := tailing.run key rest
    (log ++ logs, tailing)

/-- The id of the last entry, or another id if there are none. -/
def lastOr (above : StreamId) (entries : List StreamEntry) : StreamId :=
  (entries.getLast?.map (·.id)).getD above

-- What is left lies above the last entry that was taken.
theorem filter_above_lastOr {stream entries rest : List StreamEntry} {above : StreamId}
    (hincreasing : Stream.Increasing stream)
    (h : stream.filter (above < ·.id) = entries ++ rest) :
    stream.filter (lastOr above entries < ·.id) = rest := by
  rcases List.eq_nil_or_concat entries with rfl | ⟨taken, entry, rfl⟩
  · exact h
  · rw [List.concat_eq_append, List.append_assoc, List.singleton_append] at h
    have hlast : lastOr above (taken.concat entry) = entry.id := by simp [lastOr]
    have habove : above < entry.id := by
      have hmem : entry ∈ stream.filter (above < ·.id) := by rw [h]; simp
      simpa using (List.mem_filter.mp hmem).2
    have hsorted : Stream.Increasing (taken ++ entry :: rest) := h ▸ hincreasing.filter _
    rw [hlast, ← Stream.filter_above_filter habove, h, hsorted.filter_above]

/-- The client has received entries of the stream above an id, and others are left. -/
structure Follows (tailing : Tailing) (key : String) (above : StreamId)
    (entries rest : List StreamEntry) : Prop where
  inOrder : tailing.engine.keyspace.InOrder
  closed : tailing.session.transaction = .closed
  wanted : (tailing.engine.keyspace.entriesOf key).filter (above < ·.id) = entries ++ rest
  received : tailing.received = entries.map StreamEntry.reply
  last : StreamId.rangeStart tailing.last = .ok (lastOr above entries)

variable {tailing : Tailing} {key : String} {above : StreamId} {entries rest : List StreamEntry}

-- What is sent as the id of the next read is the id of the last entry.
theorem last_receive (h : StreamId.rangeStart tailing.last = .ok (lastOr above entries))
    (more : List StreamEntry) :
    StreamId.rangeStart (tailing.receive (more.map StreamEntry.reply)).last =
      .ok (lastOr above (entries ++ more)) := by
  rcases List.eq_nil_or_concat more with rfl | ⟨init, entry, rfl⟩
  · rw [List.append_nil]
    exact h
  · simp [receive, lastOr, Reply.entryId?_reply, StreamId.rangeStart_text]

namespace Follows

/-- Whatever happens between two reads only adds to what is left. -/
theorem happens (h : tailing.Follows key above entries rest) (happening : Engine.Happening)
    (hsets : ∀ executed ∈ (tailing.step key (.happens happening)).1, ¬ executed.Sets key) :
    ∃ more, (tailing.step key (.happens happening)).2.Follows key above entries (rest ++ more) := by
  have hgrows := Engine.happen_grows h.inOrder happening
  rcases hgrows.entries key hsets with ⟨added, hadded, _⟩
  refine ⟨added.filter (above < ·.id), hgrows.inOrder, h.closed, ?_, h.received, h.last⟩
  simp only [step]
  rw [hadded, List.filter_append, h.wanted, List.append_assoc]

/-- A read brings the next entries of what is left, or is refused. -/
theorem reads (h : tailing.Follows key above entries rest) (now : UInt64) {count : String}
    {wanted : Nat} (hcount : Decimal.count? count = some wanted) :
    (∃ e, (tailing.read key now count).1 = some (.ofError e) ∧
      (tailing.read key now count).2.Follows key above entries rest) ∨
    (tailing.read key now count).1 = some (Cursor.tailReply key (rest.take wanted)) ∧
      (tailing.read key now count).2.Follows key above (entries ++ rest.take wanted)
        (rest.drop wanted) := by
  rcases Engine.dispatch_tail h.inOrder.sound h.closed now key h.last hcount with
    ⟨result, after, hdispatch, hquiet, hresult⟩
  rw [filter_above_lastOr (h.inOrder.increasing key) h.wanted] at hresult
  have hinOrder := h.inOrder.prunes hquiet.keyspace
  have hwanted := hquiet.keyspace.entriesOf_eq h.inOrder.sound key ▸ h.wanted
  unfold read command
  rw [hdispatch]
  cases result with
  | error e =>
      refine Or.inl ⟨e, rfl, hinOrder, h.closed, hwanted, ?_, h.last⟩
      exact (List.append_nil _).trans h.received
  | ok reply =>
      have hentries : reply.streamEntries = (rest.take wanted).map StreamEntry.reply := by
        rw [hresult reply rfl, Reply.streamEntries_tailReply]
      refine Or.inr ⟨congrArg some (hresult reply rfl), hinOrder, h.closed, ?_, ?_, ?_⟩
      · rw [List.append_assoc, List.take_append_drop]
        exact hwanted
      · change tailing.received ++ reply.streamEntries = _
        rw [h.received, hentries, List.map_append]
      · change StreamId.rangeStart (tailing.receive reply.streamEntries).last = _
        rw [hentries]
        exact last_receive h.last _

end Follows

/-- Whatever the moves are, the client goes on to follow the stream: what it has received before
    stays, and more may come behind. -/
theorem run_follows (key : String) (above : StreamId) (moves : List Move) :
    ∀ (tailing : Tailing) (entries rest : List StreamEntry),
      tailing.Follows key above entries rest → (∀ move ∈ moves, move.Asks) →
      (∀ executed ∈ (tailing.run key moves).1, ¬ executed.Sets key) →
      ∃ more left, (tailing.run key moves).2.Follows key above (entries ++ more) left := by
  induction moves with
  | nil =>
      intro tailing entries rest h _ _
      exact ⟨[], rest, by rwa [List.append_nil]⟩
  | cons move others ih =>
      intro tailing entries rest h hasks hsets
      have hothers : ∀ other ∈ others, other.Asks := fun other hother =>
        hasks other (List.mem_cons_of_mem _ hother)
      have hlater : ∀ executed ∈ ((tailing.step key move).2.run key others).1,
          ¬ executed.Sets key := fun executed hmem =>
        hsets executed (List.mem_append_right _ hmem)
      cases move with
      | happens happening =>
          rcases h.happens happening fun executed hmem =>
            hsets executed (List.mem_append_left _ hmem) with ⟨more, hstep⟩
          exact ih _ entries (rest ++ more) hstep hothers hlater
      | reads now count =>
          rcases hasks _ List.mem_cons_self with ⟨wanted, hcount, _⟩
          rcases h.reads now hcount with ⟨_, _, hstep⟩ | ⟨_, hstep⟩
          · exact ih _ entries rest hstep hothers hlater
          · rcases ih _ _ _ hstep hothers hlater with ⟨more, left, hrun⟩
            exact ⟨rest.take wanted ++ more, left, by rwa [← List.append_assoc]⟩

/-- A client that follows a stream loses nothing and repeats nothing. It starts at any id, and reads
    some entries at a time; the key is not set meanwhile. What it has received is at every moment a
    prefix of the entries above its first id, and all of them when a read finds nothing. -/
theorem run_loses_nothing (config : Config) (file : Snapshot.File) (replicationId : String)
    (earlier : List Engine.Happening) {session : Session} (hclosed : session.transaction = .closed)
    {key start : String} {above : StreamId} (hstart : StreamId.rangeStart start = .ok above)
    {moves : List Move} (hasks : ∀ move ∈ moves, move.Asks) :
    let before := ((Engine.start config file replicationId).chronicle earlier).2
    let run := ({ engine := before, session, last := start } : Tailing).run key moves
    (∀ executed ∈ run.1, ¬ executed.Sets key) →
    let stream := (run.2.engine.keyspace.entriesOf key).filter (above < ·.id)
    run.2.received <+: stream.map StreamEntry.reply ∧
      ∀ now count wanted, Wants count wanted → (run.2.read key now count).1 = some .null →
        run.2.received = stream.map StreamEntry.reply := by
  intro before run hsets stream
  have hbefore : before.keyspace.InOrder :=
    (Engine.chronicle_grows earlier _ Keyspace.empty_inOrder).inOrder
  have hfirst : ({ engine := before, session, last := start } : Tailing).Follows key above []
      ((before.keyspace.entriesOf key).filter (above < ·.id)) :=
    ⟨hbefore, hclosed, rfl, rfl, hstart⟩
  rcases run_follows key above moves _ _ _ hfirst hasks hsets with ⟨entries, rest, hfollows⟩
  rw [List.nil_append] at hfollows
  have hstream : stream = entries ++ rest := hfollows.wanted
  have hreceived : run.2.received = entries.map StreamEntry.reply := hfollows.received
  constructor
  · rw [hstream, hreceived, List.map_append]
    exact List.prefix_append _ _
  · intro now count wanted ⟨hcount, hpos⟩ hnull
    rcases hfollows.reads now hcount with ⟨e, hrefused, _⟩ | ⟨hbrings, _⟩
    · rw [hrefused] at hnull
      cases hnull
    · -- The read asks for something, so nothing is found only where nothing is left.
      rw [hbrings] at hnull
      have hnone := Cursor.tailReply_eq_null_iff.mp (Option.some.inj hnull)
      rcases List.take_eq_nil_iff.mp hnone with hzero | hrest
      · omega
      · rw [hstream, hreceived, hrest, List.append_nil]

/-- A client that reads from the number `1` receives an entry, then two that were added meanwhile,
    and then finds nothing. -/
theorem run_loses_nothing_of_three :
    let before := ((Engine.start {} .missing "id").chronicle
      [.dispatched {} 1 (.ofParts .xadd ["s", "1-0", "a", "1"]),
        .dispatched {} 1 (.ofParts .xadd ["s", "1-*", "b", "2"])]).2
    let moves : List Move :=
      [.reads 2 "5", .happens (.dispatched {} 0 (.ofParts .xadd ["s", "*", "c", "3"])),
        .happens (.applied 9 (.ofParts .xadd ["s", "18446744073709551615-7", "d", "4"])),
        .reads 3 "1", .reads 4 "1"]
    let tailing := (({ engine := before, session := {}, last := "1" } : Tailing).run "s" moves).2
    tailing.last = "18446744073709551615-7" ∧
      tailing.received.map Reply.entryId? =
        [some "1-1", some "1-2", some "18446744073709551615-7"] ∧
      tailing.received = ((tailing.engine.keyspace.entriesOf "s").filter
        ((⟨1, 0⟩ : StreamId) < ·.id)).map StreamEntry.reply := by
  intro before moves tailing
  have hasks : ∀ move ∈ moves, move.Asks := by
    simp only [moves, List.forall_mem_cons, Move.Asks, Wants]
    exact ⟨⟨5, rfl, by decide⟩, trivial, trivial, ⟨1, rfl, by decide⟩, ⟨1, rfl, by decide⟩, by simp⟩
  have hnames : ∀ executed ∈
      (({ engine := before, session := {}, last := "1" } : Tailing).run "s" moves).1,
      executed.command.name ≠ .set := by decide +kernel
  have hreceived := @run_loses_nothing {} .missing "id"
    [.dispatched {} 1 (.ofParts .xadd ["s", "1-0", "a", "1"]),
      .dispatched {} 1 (.ofParts .xadd ["s", "1-*", "b", "2"])]
    {} rfl "s" "1" ⟨1, 0⟩ rfl moves hasks fun executed hmem hsets => hnames executed hmem hsets.name
  have hnull : (tailing.read "s" 5 "1").1 = some .null := by decide +kernel
  have hall := hreceived.2 5 "1" 1 ⟨rfl, by decide⟩ hnull
  refine ⟨by decide +kernel, by decide +kernel, ?_⟩
  dsimp only [tailing, before] at hall ⊢
  exact hall

end Tailing

end KeyValue
