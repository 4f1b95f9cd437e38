import KeyValue.Proofs.Engine.Direct
import KeyValue.Proofs.Engine.Chronicle
import KeyValue.Proofs.Keyspace.Ledger
import KeyValue.Proofs.Replication.Redating
import KeyValue.Proofs.Stream.Ranges
import KeyValue.Proofs.Text.Words

/-!
# Queries of streams

A session asks for the entries of a stream between two ids, or above one. The ids of the streams of
a server increase (`Reachable.inOrder`), so what is cut out of a stream by binary search is what a
filter leaves of it, and the answer holds exactly that, up to the number that is wanted
(`run_range`, `startRead_found`). A read may ask for several streams; each that has something is in
the answer (`Cursor.readAll_found`).

An id that was answered when an entry was added stays the name of this entry: asked for with the id
as both bounds, the entry comes back as it was sent (`answered_id_is_a_range`).

## Main definitions

* `Cursor.found`, `Cursor.foundReplies`: What is above a cursor, and what a read is answered.
* `Cursor.Starts`: The cursors of a read that names ids.

## Theorems

* `Cursor.readAll_found`: What a read of several streams finds.
* `dispatch_range`, `dispatch_read`: What a session is answered.
* `queries_are_filters`: Ranges and reads are filters.
-/

namespace KeyValue

namespace Keyspace

variable {keyspace : Keyspace} {now : UInt64} {key : String} {stream : Stream}

-- A key that can be opened as a stream is read as this stream.
theorem readStream_of_open {α : Type} (h : keyspace.open? now key = some stream)
    (read : Stream → α) : (keyspace.readStream now key read).1 = .ok (read stream) := by
  unfold open? at h
  unfold readStream
  rcases hlive : keyspace.live? now key with _ | ⟨value, deadline⟩
  · simp only [hlive, Option.some.injEq] at h
    simp only [Option.map_none, h]
  · cases value with
    | stream held =>
        simp only [hlive, Option.some.injEq] at h
        simp only [Option.map_some, h]
    | _ => simp only [hlive, reduceCtorEq] at h

theorem open?_touch (keyspace : Keyspace) (now : UInt64) (key other : String) :
    (keyspace.touch now other).open? now key = keyspace.open? now key := by
  unfold open?
  rw [live?_touch]

theorem open?_increasing (hsound : keyspace.Sound) (h : keyspace.open? now key = some stream) :
    Stream.Increasing stream.entries := by
  unfold open? at h
  split at h
  · rw [← Option.some.inj h]
    exact .nil
  · rename_i hlive
    rw [← Option.some.inj h]
    exact (hsound.live? hlive).1.increasing
  · simp at h

/-- A key with an entry can be opened, at any time. -/
theorem open?_of_entry (hsound : keyspace.Sound) (now : UInt64) {entry : StreamEntry}
    (h : entry ∈ keyspace.entriesOf key) :
    ∃ stream, keyspace.open? now key = some stream ∧ entry ∈ stream.entries := by
  have htouch := (keyspace.touch_prunes now key).entriesOf_eq hsound key
  rw [entriesOf_touch] at htouch
  rw [← htouch] at h
  unfold open?
  rcases hlive : keyspace.live? now key with _ | ⟨value, deadline⟩
  · rw [hlive] at h
    simp at h
  · rw [hlive] at h
    cases value with
    | stream stream => exact ⟨stream, rfl, h⟩
    | _ => simp [Value.entries] at h

end Keyspace

namespace Cursor

/-- What is above a cursor, up to the number that is wanted. -/
def found (keyspace : Keyspace) (count : Option Nat) (cursor : Cursor) : List StreamEntry :=
  Stream.takeCount count ((keyspace.entriesOf cursor.key).filter (cursor.above < ·.id))

/-- The replies for the streams that have something above their cursors. -/
def foundReplies (keyspace : Keyspace) (count : Option Nat) (cursors : List Cursor) : List Reply :=
  (cursors.filter fun cursor => !(cursor.found keyspace count).isEmpty).map fun cursor =>
    streamReply cursor.key (cursor.found keyspace count)

/-- The cursors that keys and the texts of ids stand for. -/
def Starts (starts : List (String × String)) (cursors : List Cursor) : Prop :=
  List.Forall₂ (fun start cursor =>
    cursor.key = start.1 ∧ StreamId.rangeStart start.2 = .ok cursor.above) starts cursors

variable {keyspace : Keyspace} {now : UInt64}

theorem found_touch (hsound : keyspace.Sound) (now : UInt64) (key : String) (count : Option Nat) :
    found (keyspace.touch now key) count = found keyspace count := by
  funext cursor
  unfold found
  rw [(keyspace.touch_prunes now key).entriesOf_eq hsound]

-- Ids that are named are the same wherever they are looked up.
theorem resolveAll_of_starts {starts : List (String × String)} {cursors : List Cursor}
    (h : Starts starts cursors) :
    resolveAll keyspace now starts = (.ok cursors, keyspace) := by
  induction h with
  | nil => rfl
  | @cons start cursor starts cursors hstart _ ih =>
      rcases start with ⟨key, id⟩
      rcases cursor with ⟨key', above⟩
      rcases hstart with ⟨hkey, hid⟩
      simp only at hkey hid
      have hdollar : id ≠ "$" := by
        rintro rfl
        exact nomatch hid
      simp only [resolveAll, resolve, if_neg hdollar, hid, Except.map, ih, hkey]

/-- A read looks at one stream after the other, and finds in each what is above its cursor. -/
theorem readAll_found (count : Option Nat) (cursors : List Cursor) :
    ∀ {keyspace : Keyspace}, keyspace.Sound →
      (∀ cursor ∈ cursors, (keyspace.open? now cursor.key).isSome = true) →
      (readAll keyspace now count cursors).1 = .ok (foundReplies keyspace count cursors) := by
  induction cursors with
  | nil => exact fun _ _ => rfl
  | cons cursor rest ih =>
      intro keyspace hsound hopen
      rw [List.forall_mem_cons] at hopen
      rcases Option.isSome_iff_exists.mp hopen.1 with ⟨stream, hstream⟩
      have hread : (cursor.read keyspace now count).1 = .ok (cursor.found keyspace count) := by
        have hafter := Keyspace.readStream_of_open hstream (·.after cursor.above count)
        rw [(Keyspace.open?_increasing hsound hstream).after_eq_filter,
          Keyspace.open?_entries hsound hstream] at hafter
        exact hafter
      -- Looking at a stream leaves the others as they are.
      have htouched : (cursor.read keyspace now count).2 = keyspace.touch now cursor.key := rfl
      have hrest := ih ((keyspace.touch_prunes now cursor.key).sound hsound) fun other hother => by
        rw [Keyspace.open?_touch]
        exact hopen.2 other hother
      simp only [foundReplies, found_touch hsound] at hrest
      rcases hcursor : cursor.read keyspace now count with ⟨result, touched⟩
      rw [hcursor] at hread htouched
      simp only at hread htouched
      simp only [readAll, hcursor, hread, htouched, hrest, Except.map, foundReplies]
      cases hnone : (cursor.found keyspace count).isEmpty <;> simp [hnone]

end Cursor

namespace Engine

variable {engine : Engine} {session : Session} {command : Command} {key start stop : String}
  {options : List String} {low high : StreamId} {count : Option Nat} {stream : Stream}

section Ranges

variable (hsound : engine.keyspace.Sound) {now : UInt64}
  (hopen : engine.keyspace.open? now key = some stream)
  (hstart : StreamId.rangeStart start = .ok low) (hstop : StreamId.rangeEnd stop = .ok high)
  (hlimit : StreamCommand.rangeLimit options = .ok count)
include hsound hopen hstart hstop hlimit

/-- A range of a stream is a filter of its entries. -/
theorem run_range :
    (engine.run now (.range key start stop options)).1 =
      .ok (StreamCommand.entriesReply (Stream.takeCount count
        (stream.entries.filter fun entry => low ≤ entry.id ∧ entry.id ≤ high))) := by
  have hread := Keyspace.readStream_of_open hopen (·.range low high count)
  rw [(Keyspace.open?_increasing hsound hopen).range_eq_filter] at hread
  simp only [run, withKeyspace, StreamCommand.range, hstart, hstop, hlimit, bind, Except.bind, pure,
    Except.pure, Keyspace.range, hread, Except.map]

theorem dispatch_range (hclosed : session.transaction = .closed)
    (hrequest : Request.ofCommand command = .ok (.range key start stop options)) :
    (engine.dispatch session now command).1 =
      .answered (.reply (StreamCommand.entriesReply (Stream.takeCount count
        (stream.entries.filter fun entry => low ≤ entry.id ∧ entry.id ≤ high)))) := by
  rcases engine.dispatch_immediate now hrequest trivial hclosed with ⟨after, hdispatch, -⟩
  rw [hdispatch, run_range hsound hopen hstart hstop hlimit]
  rfl

end Ranges

section Reads

variable {now : UInt64} {arguments : List String} {read : StreamRead} {cursors : List Cursor}
  (hread : StreamRead.ofArguments {} arguments = .ok read)
  (hstarts : Cursor.Starts read.starts cursors)

include hread hstarts

-- A read that finds something has no reason to wait.
theorem startRead_found {engine : Engine} (hsound : engine.keyspace.Sound)
    (hopen : ∀ cursor ∈ cursors, (engine.keyspace.open? now cursor.key).isSome = true)
    (hanswered : read.block = none ∨ Cursor.foundReplies engine.keyspace read.count cursors ≠ []) :
    ∃ after, engine.startRead now arguments =
      (.answered (.ok (Cursor.readReply
        (Cursor.foundReplies engine.keyspace read.count cursors))), after) := by
  have hfound := Cursor.readAll_found read.count cursors hsound hopen
  simp only [startRead, openRead, hread, withKeyspace, Cursor.resolveAll_of_starts hstarts,
    Except.map]
  cases hblock : read.block with
  | none =>
      simp only [readAll, withKeyspace, hfound]
      exact ⟨_, rfl⟩
  | some ms =>
      rcases List.exists_cons_of_ne_nil (hanswered.resolve_left (by simp [hblock])) with
        ⟨reply, replies, hreplies⟩
      simp only [look, readAll, withKeyspace, hfound, hreplies]
      exact ⟨_, rfl⟩

theorem dispatch_read (hsound : engine.keyspace.Sound)
    (hopen : ∀ cursor ∈ cursors, (engine.keyspace.open? now cursor.key).isSome = true)
    (hanswered : read.block = none ∨ Cursor.foundReplies engine.keyspace read.count cursors ≠ [])
    (hclosed : session.transaction = .closed)
    (hrequest : Request.ofCommand command = .ok (.readStreams arguments)) :
    (engine.dispatch session now command).1 =
      .answered (.reply (Cursor.readReply
        (Cursor.foundReplies engine.keyspace read.count cursors))) := by
  rcases engine.record_role command with ⟨role, hrecord⟩
  rcases @startRead_found _ _ _ _ hread hstarts { engine with role } hsound hopen hanswered with
    ⟨after, hstart⟩
  have hhandle : (engine.record command).2.handle session now (engine.record command).1 command =
      _ := handle_of_closed hrequest hclosed
  rw [hrecord] at hhandle
  simp only [perform, startRequest, hstart] at hhandle
  rw [← hrecord] at hhandle
  rw [engine.dispatch_of_handle now hhandle]
  rfl

end Reads

/-- An entry that was added is what its id is a range of, until its key is set: asked for with the
    answered id as both bounds, it comes back with its fields as they were sent. -/
theorem answered_id_is_a_range {before : Engine} (h : before.keyspace.InOrder)
    (later : List Happening) (hclosed : session.transaction = .closed) (now : UInt64) :
    let log := (before.chronicle later).1
    (∀ executed ∈ log, ¬ executed.Sets key) →
    ∀ executed ∈ log, executed.addsTo key = true →
      ∃ (id text : String) (fields : List String) (entry : StreamEntry),
        Request.ofCommand executed.command = .ok (.addEntry key id fields) ∧
        StreamCommand.pairs? fields = some entry.fields ∧ executed.reply = .bulkText text ∧
        entry.id.text = text ∧
        ∀ command, Request.ofCommand command = .ok (.range key text text []) →
          ((before.chronicle later).2.dispatch session now command).1 =
            .answered (.reply (StreamCommand.entriesReply [entry])) := by
  intro log hsets executed hexecuted hadds
  have hgrows := chronicle_grows later before h
  rcases hgrows.entries key hsets with ⟨added, hentries, hlog⟩
  -- The entry is one of those that were added, and so it is in the stream.
  obtain ⟨entry, hentry, id, fields, hrequest, hpairs, hreply⟩ :
      ∃ entry ∈ added, executed.Adds key entry := by
    have hmem : executed ∈ log.filter (Executed.addsTo key) :=
      List.mem_filter.mpr ⟨hexecuted, hadds⟩
    rcases List.mem_iff_get.mp hmem with ⟨index, rfl⟩
    exact ⟨_, List.get_mem _ _, hlog.get index.2 (hlog.length_eq ▸ index.2)⟩
  have hheld : entry ∈ (before.chronicle later).2.keyspace.entriesOf key := by
    rw [hentries]
    exact List.mem_append_right _ hentry
  have hsound := hgrows.inOrder.sound
  rcases Keyspace.open?_of_entry hsound now hheld with ⟨stream, hopen, hmem⟩
  refine ⟨id, entry.id.text, fields, entry, hrequest, hpairs, hreply, rfl, fun command hrange => ?_⟩
  rw [dispatch_range hsound hopen (StreamId.rangeStart_text _) (StreamId.rangeEnd_text _) rfl
    hclosed hrange, (Keyspace.open?_increasing hsound hopen).filter_between hmem]
  rfl

/-- Queries of streams are filters, at every moment of a server's life.

    A range is answered with the entries between its bounds, in the order of the stream, up to the
    number that is wanted. Its slice, which two binary searches find, lies within the stream, and a
    range from an id to a smaller one is empty. A bound is a hyphen or a plus sign, or a number of
    milliseconds, with a sequence or else for all sequences. A read is answered with the entries
    above the ids it names; it waits only if it may and finds nothing. And an id that was answered
    to whoever added an entry is a range of just this entry. -/
theorem queries_are_filters {before : Engine} (h : Reachable before) (later : List Happening)
    {session : Session} (hclosed : session.transaction = .closed) (now : UInt64) :
    let log := (before.chronicle later).1
    let engine := (before.chronicle later).2
    (∀ key stream, engine.keyspace.open? now key = some stream →
      ∀ command start stop options low high count,
        Request.ofCommand command = .ok (.range key start stop options) →
        StreamId.rangeStart start = .ok low → StreamId.rangeEnd stop = .ok high →
        StreamCommand.rangeLimit options = .ok count →
        (engine.dispatch session now command).1 =
          .answered (.reply (StreamCommand.entriesReply (Stream.takeCount count
            (stream.entries.filter fun entry => low ≤ entry.id ∧ entry.id ≤ high)))) ∧
        (low ≤ high → stream.search (· < low) ≤ stream.search (· ≤ high) ∧
          stream.search (· ≤ high) ≤ stream.size ∧
          stream.range low high count = Stream.takeCount count
            ((stream.entries.take (stream.search (· ≤ high))).drop (stream.search (· < low)))) ∧
        (high < low → (engine.dispatch session now command).1 =
          .answered (.reply (StreamCommand.entriesReply [])))) ∧
    ((∀ text id, StreamId.rangeStart text = .ok id ↔ StreamId.Spells "-" .zero 0 text id) ∧
      (∀ text id, StreamId.rangeEnd text = .ok id ↔
        StreamId.Spells "+" .max StreamId.maxPart text id) ∧
      ∀ id : StreamId, .zero ≤ id ∧ id ≤ .max ∧
        ∀ ms, (⟨ms, 0⟩ ≤ id ↔ ms ≤ id.ms) ∧ (id ≤ ⟨ms, StreamId.maxPart⟩ ↔ id.ms ≤ ms)) ∧
    (∀ command arguments read cursors,
      Request.ofCommand command = .ok (.readStreams arguments) →
      StreamRead.ofArguments {} arguments = .ok read → Cursor.Starts read.starts cursors →
      (∀ cursor ∈ cursors, (engine.keyspace.open? now cursor.key).isSome = true) →
      read.block = none ∨ Cursor.foundReplies engine.keyspace read.count cursors ≠ [] →
      (engine.dispatch session now command).1 =
        .answered (.reply (Cursor.readReply
          (Cursor.foundReplies engine.keyspace read.count cursors)))) ∧
    ∀ key, (∀ executed ∈ log, ¬ executed.Sets key) →
      ∀ executed ∈ log, executed.addsTo key = true →
        ∃ (id text : String) (fields : List String) (entry : StreamEntry),
          Request.ofCommand executed.command = .ok (.addEntry key id fields) ∧
          StreamCommand.pairs? fields = some entry.fields ∧ executed.reply = .bulkText text ∧
          entry.id.text = text ∧
          ∀ command, Request.ofCommand command = .ok (.range key text text []) →
            (engine.dispatch session now command).1 =
              .answered (.reply (StreamCommand.entriesReply [entry])) := by
  intro log engine
  have hsound := (Reachable.chronicle later before h).sound
  refine ⟨?_, ⟨fun _ _ => StreamId.rangeStart_eq_ok_iff, fun _ _ => StreamId.rangeEnd_eq_ok_iff,
    fun id => ⟨id.zero_le, id.le_max, fun ms => ⟨StreamId.least_le_iff, StreamId.le_greatest_iff⟩⟩⟩,
    ?_, fun key => answered_id_is_a_range h.inOrder later hclosed now⟩
  · intro key stream hopen command start stop options low high count hrequest hstart hstop hlimit
    have hincreasing := Keyspace.open?_increasing hsound hopen
    have hanswer := dispatch_range hsound hopen hstart hstop hlimit hclosed hrequest
    refine ⟨hanswer, fun hle => ?_, fun hlt => ?_⟩
    · rw [Stream.search_eq_position hincreasing (StreamId.lower_lt low),
        Stream.search_eq_position hincreasing (StreamId.lower_le high)]
      refine ⟨stream.position_le_position hle, stream.position_le_size _, ?_⟩
      rw [Stream.range, if_neg (StreamId.not_lt.mpr hle), List.drop_take]
    · rw [hanswer, ← hincreasing.range_eq_filter, Stream.range, if_pos hlt]
  · intro command arguments read cursors hrequest hread hstarts hopen hanswered
    exact dispatch_read hread hstarts hsound hopen hanswered hclosed hrequest

/-- Two entries in one millisecond and one behind them: a bare number covers both, a limit cuts the
    second off, a read finds what is above the first, and the answered id finds the entry. -/
theorem queries_are_filters_of_three :
    let later : List Happening :=
      [.dispatched {} 5 (.ofParts .xadd ["s", "5-1", "b", "1", "a", "2"]),
        .dispatched {} 5 (.ofParts .xadd ["s", "5-*", "c", "3"]),
        .dispatched {} 4 (.ofParts .xadd ["s", "7", "d", "4"])]
    let engine := ((Engine.start {} .missing "id").chronicle later).2
    let first : StreamEntry := ⟨⟨5, 1⟩, [("b", "1"), ("a", "2")]⟩
    let second : StreamEntry := ⟨⟨5, 2⟩, [("c", "3")]⟩
    let third : StreamEntry := ⟨⟨7, 0⟩, [("d", "4")]⟩
    (engine.dispatch {} 9 (.ofParts .xrange ["s", "5", "5"])).1 =
        .answered (.reply (StreamCommand.entriesReply [first, second])) ∧
      (engine.dispatch {} 9 (.ofParts .xrange ["s", "-", "+", "count", "1"])).1 =
        .answered (.reply (StreamCommand.entriesReply [first])) ∧
      (engine.dispatch {} 9 (.ofParts .xrange ["s", "+7", "5-01"])).1 =
        .answered (.reply (StreamCommand.entriesReply [])) ∧
      (engine.dispatch {} 9 (.ofParts .xread ["STREAMS", "s", "none", "5-1", "0"])).1 =
        .answered (.reply (.array [Cursor.streamReply "s" [second, third]])) ∧
      ∃ entry, entry.fields = [("b", "1"), ("a", "2")] ∧
        (engine.dispatch {} 9 (.ofParts .xrange ["s", "5-1", "5-1"])).1 =
          .answered (.reply (StreamCommand.entriesReply [entry])) := by
  intro later engine first second third
  have h := @queries_are_filters _ (.start {} .missing "id") later {} rfl 9
  have hopen : engine.keyspace.open? 9 "s" = some ⟨[first, second, third]⟩ := by decide +kernel
  have hlimit : StreamCommand.rangeLimit ["count", "1"] = .ok (some 1) := by
    rw [StreamCommand.rangeLimit, if_pos (Text.sameWord_iff.mpr (by decide))]
    rfl
  have hread : StreamRead.ofArguments {} ["STREAMS", "s", "none", "5-1", "0"] =
      .ok { starts := [("s", "5-1"), ("none", "0")] } := by
    rw [StreamRead.ofArguments, if_pos (Text.sameWord_iff.mpr (by decide))]
    rfl
  have hrange := h.1 "s" _ hopen
  refine ⟨?_, ?_, ?_, ?_, ?_⟩
  · exact (hrange _ "5" "5" [] ⟨5, 0⟩ ⟨5, StreamId.maxPart⟩ none rfl rfl rfl rfl).1
  · exact (hrange _ "-" "+" ["count", "1"] .zero .max (some 1) rfl rfl rfl hlimit).1
  · exact (hrange _ "+7" "5-01" [] ⟨7, 0⟩ ⟨5, 1⟩ none rfl rfl rfl rfl).2.2 (by decide)
  · exact h.2.2.1 _ _ ⟨none, none, [("s", "5-1"), ("none", "0")]⟩ [⟨"s", 5, 1⟩, ⟨"none", 0, 0⟩]
      rfl hread (.cons ⟨rfl, rfl⟩ (.cons ⟨rfl, rfl⟩ .nil)) (by decide +kernel) (Or.inl rfl)
  · have hsets : ∀ executed ∈ ((Engine.start {} .missing "id").chronicle later).1,
        ¬ executed.Sets "s" := by
      have hnames : ∀ executed ∈ ((Engine.start {} .missing "id").chronicle later).1,
          executed.command.name ≠ .set := by decide +kernel
      exact fun executed hmem hsets => hnames executed hmem hsets.name
    obtain ⟨executed, hmem, hadds, hcommand, hfirst⟩ :
        ∃ executed ∈ ((Engine.start {} .missing "id").chronicle later).1,
          executed.addsTo "s" = true ∧
          executed.command = .ofParts .xadd ["s", "5-1", "b", "1", "a", "2"] ∧
          executed.reply.text? = some "5-1" :=
      ⟨_, List.head_mem (by decide +kernel), by decide +kernel, by decide +kernel,
        by decide +kernel⟩
    rcases h.2.2.2 "s" hsets executed hmem hadds with
      ⟨id, text, fields, entry, hrequest, hpairs, hreply, -, hanswer⟩
    rw [hreply, Reply.bulkText, Reply.text?, Text.ofBytes_bytes, Option.some.injEq] at hfirst
    rw [hcommand] at hrequest
    cases hrequest
    exact ⟨entry, (Option.some.inj hpairs).symm, hanswer _ (by rw [hfirst]; rfl)⟩

end Engine

end KeyValue
