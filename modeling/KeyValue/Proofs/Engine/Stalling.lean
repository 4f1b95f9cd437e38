import KeyValue.Proofs.Engine.Chronicle
import KeyValue.Proofs.Engine.Refusing
import KeyValue.Proofs.Replication.Redating

/-!
# Streams that refuse the present

An entry that leaves its id to the stream gets the next id of the present milliseconds, which are
those of the last entry as long as the clock has not passed them. Their sequences may be used up:
somebody has added an entry with the last one. Then there is no next id, and the entry is refused
until the clock comes to later milliseconds (`UsedUp`). In every other case it is added.

## Main definitions

* `Stream.UsedUp`: The last entry has taken the last id of the present milliseconds.
* `Keyspace.AddsNow`: What comes of an entry that leaves its id to the stream.

## Theorems

* `Stream.nextId_auto_usedUp`, `Stream.nextId_auto_free`: Whether there is an id for the present.
* `Stream.usedUp_forever_iff`: Which streams refuse the present for good.
* `Engine.run_addsNow`: What the request for such an entry does.
* `Engine.adds_unless_usedUp`: At every moment of a run such an entry is added, unless the stream is
  used up.
-/

namespace KeyValue

namespace Stream

variable {stream : Stream} {now : UInt64}

/-- The last entry has the last sequence of its milliseconds, and the clock has not passed them. -/
def UsedUp (stream : Stream) (now : UInt64) : Prop :=
  ∃ top ∈ stream.lastId?, top.seq = StreamId.maxPart ∧ now ≤ top.ms

-- The clock has not passed the last entry, so its milliseconds are taken for the present.
theorem presentMs_behind {top : StreamId} (hlast : stream.lastId? = some top) (hle : now ≤ top.ms) :
    stream.presentMs now = top.ms := by
  rw [← UInt64.toNat_inj, toNat_presentMs, hlast, Option.elim_some]
  exact Nat.max_eq_right (UInt64.le_iff_toNat_le.mp hle)

/-- A stream that is used up has no id for the present. -/
theorem nextId_auto_usedUp (h : stream.UsedUp now) :
    stream.nextId .auto now = .error StreamId.tooSmall := by
  rcases h with ⟨top, hlast, hseq, hle⟩
  rw [nextId_auto, presentMs_behind hlast hle, Option.mem_def.mp hlast, nextIn, if_pos rfl,
    if_pos hseq]

/-- Any other stream has one. -/
theorem nextId_auto_free (h : ¬ stream.UsedUp now) : ∃ id, stream.nextId .auto now = .ok id := by
  cases hlast : stream.lastId? with
  | none => exact ⟨nextIn.first now, by rw [nextId, hlast]; rfl⟩
  | some top =>
      by_cases hle : now ≤ top.ms
      · have hseq : top.seq ≠ StreamId.maxPart := fun hseq => h ⟨top, hlast, hseq, hle⟩
        refine ⟨⟨top.ms, top.seq + 1⟩, ?_⟩
        rw [nextId_auto, presentMs_behind hlast hle, hlast, nextIn, if_pos rfl, if_neg hseq]
      · -- The clock has passed the last entry, so the milliseconds begin with this one.
        have hlt : ¬ now < top.ms := fun hlt => hle (UInt64.le_of_lt hlt)
        have hne : top.ms ≠ now := fun heq => hle (UInt64.le_of_eq heq.symm)
        refine ⟨nextIn.first now, ?_⟩
        rw [nextId, hlast]
        simp only [if_neg hlt, nextIn, if_neg hne]

/-- A stream is used up at all times exactly if its last id is the greatest of all. -/
theorem usedUp_forever_iff (stream : Stream) :
    (∀ now, stream.UsedUp now) ↔ stream.lastId? = some ⟨StreamId.maxPart, StreamId.maxPart⟩ := by
  have hmax : StreamId.maxPart.toNat = 18446744073709551615 := rfl
  have hle : ∀ ms : UInt64, ms ≤ StreamId.maxPart := by
    intro ms
    rw [UInt64.le_iff_toNat_le, hmax]
    exact Nat.le_of_lt_succ ms.toNat_lt
  constructor
  · intro h
    rcases h StreamId.maxPart with ⟨⟨ms, seq⟩, hlast, rfl, hms⟩
    obtain rfl : ms = StreamId.maxPart := UInt64.le_antisymm (hle ms) hms
    exact hlast
  · exact fun hlast now => ⟨_, hlast, rfl, hle now⟩

end Stream

/-- Adding an entry to the stream of a key asks the stream for an id. -/
theorem Keyspace.addEntry_of_open {keyspace : Keyspace} {now : UInt64} {key : String}
    {stream : Stream} (hopen : keyspace.open? now key = some stream) (request : IdRequest)
    (fields : List (String × String)) :
    (keyspace.addEntry now key request fields).1 = stream.nextId request now := by
  rw [addEntry_eq]
  unfold open? at hopen
  rcases hlive : keyspace.live? now key with _ | ⟨text | number | held, deadline⟩
  · rw [hlive] at hopen
    obtain rfl : .empty = stream := Option.some.inj hopen
    simp only [Option.getD_none]
    cases Stream.empty.nextId request now <;> rfl
  · simp [hlive] at hopen
  · simp [hlive] at hopen
  · rw [hlive] at hopen
    obtain rfl : held = stream := Option.some.inj hopen
    simp only [Option.getD_some]
    cases held.nextId request now <;> rfl

/-- What comes of an entry that leaves its id to the stream of a key: it is added behind the others
    with an id above theirs, or the stream is used up and nothing that is live changes. -/
inductive Keyspace.AddsNow (now : UInt64) (key : String) (pairs : List (String × String))
    (stream : Stream) (before : Keyspace) : Reply → Keyspace → Prop where
  | added {id : StreamId} {after : Keyspace} (hfree : ¬ stream.UsedUp now)
      (habove : ∀ top ∈ stream.lastId?, top < id)
      (hentries : after.entriesOf key = stream.entries ++ [⟨id, pairs⟩]) :
      AddsNow now key pairs stream before (.bulkText id.text) after
  | refused {after : Keyspace} (hused : stream.UsedUp now)
      (hlive : ∀ later, now ≤ later → ∀ other, after.live? later other = before.live? later other) :
      AddsNow now key pairs stream before (.ofError StreamId.tooSmall) after

namespace Engine

variable {engine : Engine} {now : UInt64} {command : Command} {key : String}
  {fields : List String} {pairs : List (String × String)} {stream : Stream}

/-- The request for an entry that leaves its id to the stream. -/
theorem run_addsNow (hsound : engine.keyspace.Sound)
    (hpairs : StreamCommand.pairs? fields = some pairs)
    (hopen : engine.keyspace.open? now key = some stream) :
    engine.keyspace.AddsNow now key pairs stream
      (.ofExcept (engine.run now (.addEntry key "*" fields)).1)
      (engine.run now (.addEntry key "*" fields)).2.keyspace := by
  rcases engine.run_addEntry now key "*" fields with ⟨hanswer, hkeyspace⟩
  rw [StreamCommand.addEntry_auto _ now key hpairs] at hanswer hkeyspace
  rw [hanswer, hkeyspace]
  have hid := Keyspace.addEntry_of_open hopen .auto pairs
  by_cases hused : stream.UsedUp now
  · rw [Stream.nextId_auto_usedUp hused] at hid
    rw [hid]
    exact .refused hused fun later hle =>
      Keyspace.live?_of_touched (Keyspace.addEntry_error hsound hid) hle
  · rcases Stream.nextId_auto_free hused with ⟨id, hnext⟩
    rw [hnext] at hid
    rw [hid]
    refine .added hused (Stream.nextId_above hnext) ?_
    rw [(Keyspace.addEntry_accepted hsound hid).1, Keyspace.open?_entries hsound hopen]

/-- At every moment of a run of a server, an entry that leaves its id to the stream of a key is
    added behind the others with an id above theirs, unless the stream is used up. It is all the
    same whether a session sends it, it is run from a queue, or the master has sent it. Only a
    stream whose last id is the greatest of all is used up for good. -/
theorem adds_unless_usedUp (config : Config) (file : Snapshot.File) (replicationId : String)
    (happenings : List Happening) {session : Session} (hclosed : session.transaction = .closed)
    (hrequest : Request.ofCommand command = .ok (.addEntry key "*" fields))
    (hpairs : StreamCommand.pairs? fields = some pairs) :
    let engine := ((start config file replicationId).chronicle happenings).2
    engine.keyspace.open? now key = some stream →
      stream.entries = engine.keyspace.entriesOf key ∧
      (∃ reply after, engine.dispatch session now command =
          (.answered (.reply reply), after, session) ∧
        engine.keyspace.AddsNow now key pairs stream reply after.keyspace) ∧
      engine.keyspace.AddsNow now key pairs stream (engine.runCommand now command).1
        (engine.runCommand now command).2.keyspace ∧
      (engine.apply now command).2 = (engine.runCommand now command).2 ∧
      ((∀ later, stream.UsedUp later) ↔
        stream.lastId? = some ⟨StreamId.maxPart, StreamId.maxPart⟩) := by
  intro engine hopen
  have hgrows := chronicle_grows happenings (start config file replicationId) Keyspace.empty_inOrder
  have hsound : engine.keyspace.Sound := hgrows.inOrder.sound
  refine ⟨Keyspace.open?_entries hsound hopen, ?_, ?_, engine.apply_engine now command,
    stream.usedUp_forever_iff⟩
  · rcases engine.dispatch_direct now hrequest rfl hclosed with
      ⟨recorded, after, hrecorded, hdispatch, hafter, -⟩
    rw [← hrecorded] at hsound hopen ⊢
    have hrun := run_addsNow hsound hpairs hopen
    rw [← hafter] at hrun
    exact ⟨_, after, hdispatch, hrun⟩
  · rw [runCommand, hrequest]
    exact run_addsNow hsound hpairs hopen

/-- The last sequence of the fifth millisecond is taken: an entry is refused at this moment, and
    added at the next one. -/
theorem adds_unless_usedUp_after :
    let add := Command.ofParts .xadd ["s", "*", "b", "2"]
    let engine := ((start {} .missing "id").chronicle
      [.dispatched {} 5 (.ofParts .xadd ["s", "5-18446744073709551615", "a", "1"])]).2
    let stream : Stream := ⟨[⟨⟨5, StreamId.maxPart⟩, [("a", "1")]⟩]⟩
    stream.UsedUp 5 ∧ ¬ stream.UsedUp 6 ∧
      engine.keyspace.AddsNow 5 "s" [("b", "2")] stream (.ofError StreamId.tooSmall)
        (engine.runCommand 5 add).2.keyspace ∧
      engine.keyspace.AddsNow 6 "s" [("b", "2")] stream (.bulkText "6-0")
        (engine.runCommand 6 add).2.keyspace := by
  intro add engine stream
  have hused : stream.UsedUp 5 := ⟨⟨5, StreamId.maxPart⟩, rfl, rfl, by decide⟩
  have hfree : ¬ stream.UsedUp 6 := by
    rintro ⟨top, htop, -, hle⟩
    rw [← Option.some.inj htop] at hle
    exact absurd hle (by decide)
  have hadds := fun now hopen => (@adds_unless_usedUp now add "s" ["b", "2"] [("b", "2")] stream {}
    .missing "id" [.dispatched {} 5 (.ofParts .xadd ["s", "5-18446744073709551615", "a", "1"])]
    {} rfl rfl rfl hopen).2.2.1
  exact ⟨hused, hfree, hadds 5 (by decide +kernel), hadds 6 (by decide +kernel)⟩

/-- The last entry has an id that is not the greatest one, and still the next entry is refused. -/
theorem refuses_behind_last_sequence :
    let add := Command.ofParts .xadd ["s", "*", "b", "2"]
    let engine := ((start {} .missing "id").chronicle
      [.dispatched {} 5 (.ofParts .xadd ["s", "5-18446744073709551615", "a", "1"])]).2
    (engine.keyspace.entriesOf "s").getLast?.map (·.id) = some ⟨5, StreamId.maxPart⟩ ∧
      (⟨5, StreamId.maxPart⟩ : StreamId) ≠ ⟨StreamId.maxPart, StreamId.maxPart⟩ ∧
      (engine.dispatch {} 5 add).1 = .answered (.refusal StreamId.tooSmall) ∧
      (engine.dispatch {} 5 add).2.1.keyspace.entriesOf "s" = engine.keyspace.entriesOf "s" := by
  refine ⟨by decide +kernel, by decide, rfl, by decide +kernel⟩

end Engine

end KeyValue
