import KeyValue.Proofs.Engine.Reachable
import KeyValue.Proofs.Keyspace.Streams
import KeyValue.Proofs.Sessions.Traffic

/-!
# No wake-up is lost

A parked reader does not sleep through an entry.

A reader that has passed a stream, because it found nothing there, is alarmed as soon as the stream
has news: either it is woken, or the thread that added the entry has still to wake it
(`Traffic.Alarmed`). This holds while the reader looks at its other streams, because it is
registered by then, so it holds when it parks. What makes it true of every interleaving is that a
wake-up is used up only at the moment at which all streams are still to be looked at.

A reader that looks at all its streams finds what is there all the time (`Traffic.Seeks`).

## Main definitions

* `Traffic.Alarmed`: A reader is woken, or is going to be.
* `Phase.Watched`: A reader is alarmed if a stream that it passed has news.
* `Traffic.Vigilant`: All readers are, and are registered, each under a number of its own.
* `Traffic.Stays`: Steps that keep a condition.

## Theorems

* `Step.vigilant`, `Run.vigilant`: Every step keeps readers vigilant.
* `Stays.finds`: A reader finds what is there all the time.
* `Run.loses_no_wakeup`: What is true of parked readers and their answers.
-/

namespace KeyValue

namespace Readers

/-- A read is registered for its keys. -/
def Has (readers : Readers) (ticket : Ticket) : Prop :=
  ∃ reader ∈ readers.waiting, reader.id = ticket.reader ∧ reader.keys = ticket.keys

theorem isWoken_register (readers : Readers) (keys : List String) (id : Nat) :
    (readers.register keys).2.isWoken id = readers.isWoken id := by
  simp [isWoken, register]

/-- When a reader leaves, the others are woken as before. -/
theorem isWoken_unregister (readers : Readers) {gone id : Nat} (h : id ≠ gone) :
    (readers.unregister gone).isWoken id = readers.isWoken id := by
  simp only [isWoken, unregister, List.any_filter]
  congr 1
  funext reader
  by_cases hid : reader.id = id
  · simp [hid, h]
  · simp [hid]

/-- When a reader uses up its wake-up, the others keep theirs. -/
theorem isWoken_consume (readers : Readers) {other id : Nat} (h : id ≠ other) :
    (readers.consume other).isWoken id = readers.isWoken id := by
  simp only [isWoken, consume, List.any_map]
  congr 1
  funext reader
  by_cases hid : reader.id = other
  · have hne : ¬ other = id := fun heq => h heq.symm
    simp [hid, hne]
  · simp [hid]

-- Waking the readers of a key leaves no one asleep who was awake.
theorem isWoken_notify {readers : Readers} {id : Nat} (h : readers.isWoken id = true)
    (key : String) : (readers.notify key).2.isWoken id = true := by
  simp only [isWoken, notify, List.any_map, List.any_eq_true] at h ⊢
  rcases h with ⟨reader, hreader, hwoken⟩
  refine ⟨reader, hreader, ?_⟩
  simp only [Function.comp_apply]
  split
  · simp only [Bool.and_eq_true] at hwoken ⊢
    exact ⟨hwoken.1, trivial⟩
  · exact hwoken

-- A registered reader of the key is woken.
theorem Has.isWoken_notify {readers : Readers} {ticket : Ticket} (h : readers.Has ticket)
    {key : String} (hkey : key ∈ ticket.keys) :
    (readers.notify key).2.isWoken ticket.reader = true := by
  rcases h with ⟨reader, hreader, hid, hkeys⟩
  simp only [isWoken, notify, List.any_map, List.any_eq_true]
  refine ⟨reader, hreader, ?_⟩
  have hcontains : reader.keys.contains key = true := by
    rw [hkeys]
    simpa using hkey
  simp only [Function.comp_apply, if_pos hcontains, hid, beq_self_eq_true, Bool.and_self]

end Readers

namespace Engine

-- A request that adds no entry leaves the readers alone, and no stream has news.
theorem run_fades {engine : Engine} (hsound : engine.keyspace.Sound) (now : UInt64)
    {request : Request} (h : ∀ key id fields, request ≠ .addEntry key id fields) :
    (engine.run now request).2.readers = engine.readers ∧
      engine.keyspace.Fades (engine.run now request).2.keyspace := by
  by_cases hwrite : request.isWrite = true
  · cases request with
    | addEntry key id fields => exact absurd rfl (h key id fields)
    | set key value options =>
        refine ⟨rfl, ?_⟩
        simp only [run, withKeyspace, KeyCommand.set]
        cases KeyCommand.deadlineOf now .never options with
        | error e => exact .refl _
        | ok deadline => exact engine.keyspace.set_fades key value deadline
    | increment key => exact ⟨rfl, Keyspace.increment_fades hsound now key⟩
    | _ => simp [Request.isWrite] at hwrite
  · rcases engine.run_read now (Bool.not_eq_true _ ▸ hwrite) with ⟨keyspace, hprunes, hrun⟩
    rw [hrun]
    exact ⟨rfl, hprunes.fades hsound⟩

-- Keys of a snapshot are no streams.
theorem load_fades (engine : Engine) (now : UInt64) (entries : List Snapshot.Entry) :
    engine.keyspace.Fades (engine.load now entries).2.keyspace := by
  simp only [load]
  generalize entries.filter (fun entry => !entry.isExpired now) = live
  generalize engine.keyspace = keyspace
  induction live generalizing keyspace with
  | nil => exact .refl keyspace
  | cons entry rest ih =>
      exact (keyspace.set_fades entry.key entry.value entry.deadline).trans (ih _)

end Engine

/-- The read that a thread has registered. -/
def Phase.ticket? : Phase → Option Ticket
  | looks ticket _ _ _ | parked ticket => some ticket
  | _ => none

namespace Traffic

/-- A reader is woken, or a thread that added to one of its streams has still to wake it. -/
def Alarmed (traffic : Traffic) (ticket : Ticket) : Prop :=
  traffic.engine.readers.isWoken ticket.reader = true ∨
    ∃ other key, traffic.phase other = .added key ∧ key ∈ ticket.keys

end Traffic

/-- Cursors of a read with entries that lie above them. -/
def Finds.Good (finds : Finds) (ticket : Ticket) : Prop :=
  ∀ find ∈ finds, find.1 ∈ ticket.cursors ∧ ∀ entry ∈ find.2, find.1.above < entry.id

/-- A reader that has found nothing, and does not want nothing, is alarmed if a stream that it
    passed has news. -/
def Phase.Watched (traffic : Traffic) : Phase → Prop
  | resolves read _ cursors left => read.keys = cursors.map (·.key) ++ left.map (·.1)
  | looks ticket found left last =>
    found.Good ticket ∧ ∃ passed, ticket.cursors = passed ++ left ∧
      (ticket.count ≠ some 0 → found = [] → last = false →
        ∀ cursor ∈ passed, cursor.HasNews traffic.engine.keyspace → traffic.Alarmed ticket)
  | parked ticket =>
    ticket.count ≠ some 0 →
      ∀ cursor ∈ ticket.cursors, cursor.HasNews traffic.engine.keyspace → traffic.Alarmed ticket
  | _ => True

/-- A reader that is yet to look at all its streams has passed none of them. -/
theorem Phase.watched_looks_all (traffic : Traffic) (ticket : Ticket) (last : Bool) :
    (Phase.looks ticket [] ticket.cursors last).Watched traffic := by
  refine ⟨fun find hfind => ?_, [], rfl, fun _ _ _ cursor hcursor => ?_⟩
  · simp at hfind
  · simp at hcursor

/-- A reader is watched on if the streams it waits for have no news that it is not alarmed about. -/
theorem Phase.Watched.frame {before after : Traffic} {phase : Phase} (h : phase.Watched before)
    (halarm : ∀ ticket, phase.ticket? = some ticket → ∀ cursor ∈ ticket.cursors,
      (cursor.HasNews before.engine.keyspace → before.Alarmed ticket) →
        cursor.HasNews after.engine.keyspace → after.Alarmed ticket) : phase.Watched after := by
  cases phase with
  | looks ticket found left last =>
      rcases h with ⟨hgood, passed, hpassed, hwatched⟩
      refine ⟨hgood, passed, hpassed, fun hcount hfound hlast cursor hcursor => ?_⟩
      have hmem : cursor ∈ ticket.cursors := by
        rw [hpassed]
        exact List.mem_append_left _ hcursor
      exact halarm ticket rfl cursor hmem (hwatched hcount hfound hlast cursor hcursor)
  | parked ticket =>
      intro hcount cursor hcursor
      exact halarm ticket rfl cursor hcursor (h hcount cursor hcursor)
  | _ => exact h

namespace Traffic

/-- All readers are watched, and are registered, each under a number of its own. -/
structure Vigilant (traffic : Traffic) : Prop where
  sound : traffic.engine.keyspace.Sound
  bounded : ∀ reader ∈ traffic.engine.readers.waiting, reader.id < traffic.engine.readers.nextId
  registered : ∀ client ticket, (traffic.phase client).ticket? = some ticket →
    traffic.engine.readers.Has ticket
  unique : ∀ client other ticket ticket', (traffic.phase client).ticket? = some ticket →
    (traffic.phase other).ticket? = some ticket' → ticket.reader = ticket'.reader → client = other
  watched : ∀ client, (traffic.phase client).Watched traffic

/-- A reader that is held has a number below the next one. -/
theorem Vigilant.reader_lt {traffic : Traffic} (h : traffic.Vigilant) {client : Nat}
    {ticket : Ticket} (hticket : (traffic.phase client).ticket? = some ticket) :
    ticket.reader < traffic.engine.readers.nextId := by
  rcases h.registered client ticket hticket with ⟨reader, hreader, hid, _⟩
  rw [← hid]
  exact h.bounded reader hreader

/-- The engine changes, but for its readers. News come only to streams whose readers are going to be
    woken. -/
theorem Vigilant.withEngine {traffic : Traffic} (h : traffic.Vigilant) (engine : Engine)
    (hreaders : engine.readers = traffic.engine.readers) (hsound : engine.keyspace.Sound)
    (hnews : ∀ cursor : Cursor, cursor.HasNews engine.keyspace →
      cursor.HasNews traffic.engine.keyspace ∨ ∃ other, traffic.phase other = .added cursor.key) :
    Vigilant { traffic with engine } := by
  refine ⟨hsound, ?_, ?_, h.unique, fun client => ?_⟩
  · rw [hreaders]
    exact h.bounded
  · rw [hreaders]
    exact h.registered
  · refine (h.watched client).frame fun ticket hticket cursor hcursor halarm hafter => ?_
    have hsame : Alarmed { traffic with engine } ticket ↔ traffic.Alarmed ticket := by
      unfold Alarmed
      rw [hreaders]
    rw [hsame]
    -- Old news were alarming before, and new ones come from a thread that has added an entry.
    rcases hnews cursor hafter with hbefore | ⟨other, hadded⟩
    · exact halarm hbefore
    · exact Or.inr ⟨other, cursor.key, hadded, List.mem_map_of_mem hcursor⟩

theorem go_phase_of_ne (traffic : Traffic) {client other : Nat} (engine : Engine) (phase : Phase)
    (h : other ≠ client) : (traffic.go client engine phase).phase other = traffic.phase other :=
  Function.update_of_ne h ..

-- A thread goes on. If it has added an entry, the readers were woken; if it holds a read, the read
-- is registered under a number of its own.
theorem Vigilant.goPhase {traffic : Traffic} (h : traffic.Vigilant) {client : Nat} {phase : Phase}
    (hadded : ∀ key, traffic.phase client = .added key → ∀ other ticket,
      (traffic.phase other).ticket? = some ticket → key ∈ ticket.keys →
        traffic.engine.readers.isWoken ticket.reader = true)
    (hticket : ∀ ticket, phase.ticket? = some ticket → traffic.engine.readers.Has ticket ∧
      ∀ other ticket', other ≠ client → (traffic.phase other).ticket? = some ticket' →
        ticket'.reader ≠ ticket.reader)
    (hwatched : phase.Watched (traffic.go client traffic.engine phase)) :
    (traffic.go client traffic.engine phase).Vigilant := by
  refine ⟨h.sound, h.bounded, ?_, ?_, ?_⟩
  · intro other ticket hheld
    by_cases hother : other = client
    · rw [hother, go_phase] at hheld
      exact (hticket ticket hheld).1
    · rw [go_phase_of_ne _ _ _ hother] at hheld
      exact h.registered other ticket hheld
  · intro other another ticket ticket' hheld hheld' hsame
    by_cases hother : other = client
    · by_cases hanother : another = client
      · rw [hother, hanother]
      · rw [hother, go_phase] at hheld
        rw [go_phase_of_ne _ _ _ hanother] at hheld'
        exact absurd hsame.symm ((hticket ticket hheld).2 another ticket' hanother hheld')
    · rw [go_phase_of_ne _ _ _ hother] at hheld
      by_cases hanother : another = client
      · rw [hanother, go_phase] at hheld'
        exact absurd hsame ((hticket ticket' hheld').2 other ticket hother hheld)
      · rw [go_phase_of_ne _ _ _ hanother] at hheld'
        exact h.unique other another ticket ticket' hheld hheld' hsame
  · intro other
    by_cases hother : other = client
    · rw [hother, go_phase]
      exact hwatched
    · rw [go_phase_of_ne _ _ _ hother]
      refine (h.watched other).frame fun ticket hheld cursor _ halarm hnews => ?_
      rcases halarm hnews with hwoken | ⟨adder, key, hkey, hmem⟩
      · exact Or.inl hwoken
      · -- If the thread that goes on was to wake the reader, it has done so.
        by_cases hadder : adder = client
        · exact Or.inl (hadded key (hadder ▸ hkey) other ticket hheld hmem)
        · refine Or.inr ⟨adder, key, ?_, hmem⟩
          rw [go_phase_of_ne _ _ _ hadder]
          exact hkey

/-- A thread that holds a read goes on with it, or drops it. -/
theorem Vigilant.goOn {traffic : Traffic} (h : traffic.Vigilant) {client : Nat} {phase : Phase}
    (hadded : ∀ key, traffic.phase client ≠ .added key)
    (hticket : ∀ ticket, phase.ticket? = some ticket →
      (traffic.phase client).ticket? = some ticket)
    (hwatched : phase.Watched (traffic.go client traffic.engine phase)) :
    (traffic.go client traffic.engine phase).Vigilant := by
  refine h.goPhase (fun key hkey => absurd hkey (hadded key)) (fun ticket hheld => ?_) hwatched
  refine ⟨h.registered client ticket (hticket ticket hheld), fun other ticket' hother hheld' => ?_⟩
  intro hsame
  exact hother (h.unique other client ticket' ticket hheld' (hticket ticket hheld) hsame)

-- The readers change. Those that hold a read stay registered, and stay woken unless they are still
-- to look at all their streams.
theorem Vigilant.withReaders {traffic : Traffic} (h : traffic.Vigilant) (readers : Readers)
    (hbounded : ∀ reader ∈ readers.waiting, reader.id < readers.nextId)
    (hregistered : ∀ client ticket, (traffic.phase client).ticket? = some ticket →
      readers.Has ticket)
    (hwoken : ∀ client ticket, (traffic.phase client).ticket? = some ticket →
      (∀ last, traffic.phase client ≠ .looks ticket [] ticket.cursors last) →
        traffic.engine.readers.isWoken ticket.reader = true →
          readers.isWoken ticket.reader = true) :
    Vigilant { traffic with engine := { traffic.engine with readers } } := by
  refine ⟨h.sound, hbounded, hregistered, h.unique, fun client => ?_⟩
  by_cases hlooks : ∃ ticket last, traffic.phase client = .looks ticket [] ticket.cursors last
  · rcases hlooks with ⟨ticket, last, hlooks⟩
    rw [hlooks]
    exact Phase.watched_looks_all _ ticket last
  · refine (h.watched client).frame fun ticket hheld cursor _ halarm hnews => ?_
    rcases halarm hnews with hwas | hadded
    · refine Or.inl (hwoken client ticket hheld (fun last hlast => ?_) hwas)
      exact hlooks ⟨ticket, last, hlast⟩
    · exact Or.inr hadded

-- Waking readers, and using up wake-ups, changes neither their numbers nor their keys.
theorem Vigilant.mapReaders {traffic : Traffic} (h : traffic.Vigilant) {readers : Readers}
    {change : BlockedReader → BlockedReader}
    (hwaiting : readers.waiting = traffic.engine.readers.waiting.map change)
    (hnext : readers.nextId = traffic.engine.readers.nextId)
    (hchange : ∀ reader, (change reader).id = reader.id ∧ (change reader).keys = reader.keys)
    (hwoken : ∀ client ticket, (traffic.phase client).ticket? = some ticket →
      (∀ last, traffic.phase client ≠ .looks ticket [] ticket.cursors last) →
        traffic.engine.readers.isWoken ticket.reader = true →
          readers.isWoken ticket.reader = true) :
    Vigilant { traffic with engine := { traffic.engine with readers } } := by
  refine h.withReaders readers ?_ ?_ hwoken
  · intro reader hreader
    rw [hwaiting] at hreader
    rcases List.mem_map.mp hreader with ⟨old, hold, rfl⟩
    rw [(hchange old).1, hnext]
    exact h.bounded old hold
  · intro client ticket hticket
    rcases h.registered client ticket hticket with ⟨reader, hreader, hid, hkeys⟩
    refine ⟨change reader, ?_, (hchange reader).1.trans hid, (hchange reader).2.trans hkeys⟩
    rw [hwaiting]
    exact List.mem_map_of_mem hreader

/-- An alarm is not lost when a thread goes on that has no one to wake. -/
theorem Alarmed.go {traffic : Traffic} {ticket : Ticket} (h : traffic.Alarmed ticket)
    {client : Nat} (hadded : ∀ key, traffic.phase client ≠ .added key) {engine : Engine}
    (hreaders : engine.readers = traffic.engine.readers) (phase : Phase) :
    (traffic.go client engine phase).Alarmed ticket := by
  rcases h with hwoken | ⟨adder, key, hkey, hmem⟩
  · refine Or.inl ?_
    rw [go_engine, hreaders]
    exact hwoken
  · refine Or.inr ⟨adder, key, ?_, hmem⟩
    rw [go_phase_of_ne]
    · exact hkey
    · rintro rfl
      exact hadded key hkey

/-- A read is dropped, and its reader forgotten. -/
theorem Vigilant.leave {traffic : Traffic} (h : traffic.Vigilant) {client : Nat}
    {ticket : Ticket} (hticket : (traffic.phase client).ticket? = some ticket) :
    (traffic.go client (traffic.engine.forget ticket.reader) .idle).Vigilant := by
  have hadded : ∀ key, traffic.phase client ≠ .added key := by
    intro key hkey
    simp [hkey, Phase.ticket?] at hticket
  -- First the thread drops its read, so that nobody holds the reader when it is forgotten.
  have hidle : (traffic.go client traffic.engine .idle).Vigilant :=
    h.goOn hadded (fun ticket hheld => by simp [Phase.ticket?] at hheld) trivial
  have hother : ∀ other ticket',
      ((traffic.go client traffic.engine .idle).phase other).ticket? = some ticket' →
        ticket'.reader ≠ ticket.reader := by
    intro other ticket' hheld hsame
    by_cases heq : other = client
    · simp [heq, go_phase, Phase.ticket?] at hheld
    · rw [go_phase_of_ne _ _ _ heq] at hheld
      exact heq (h.unique other client ticket' ticket hheld hticket hsame)
  refine hidle.withReaders (traffic.engine.readers.unregister ticket.reader) ?_ ?_ ?_
  · intro reader hreader
    exact h.bounded reader (List.mem_filter.mp hreader).1
  · intro other ticket' hheld
    rcases hidle.registered other ticket' hheld with ⟨reader, hreader, hid, hkeys⟩
    refine ⟨reader, List.mem_filter.mpr ⟨hreader, ?_⟩, hid, hkeys⟩
    rw [hid]
    simpa using hother other ticket' hheld
  · intro other ticket' hheld _ hwoken
    rw [Readers.isWoken_unregister _ (hother other ticket' hheld)]
    exact hwoken

/-- A keyspace is left in which no stream has news. -/
theorem Vigilant.withKeyspace {traffic : Traffic} (h : traffic.Vigilant) (keyspace : Keyspace)
    (hsound : keyspace.Sound) (hfades : traffic.engine.keyspace.Fades keyspace) :
    Vigilant { traffic with engine := { traffic.engine with keyspace } } :=
  h.withEngine { traffic.engine with keyspace } rfl hsound fun _ hnews =>
    Or.inl (hnews.of_fades hfades)

/-- A keyspace is left that was pruned only. -/
theorem Vigilant.prune {traffic : Traffic} (h : traffic.Vigilant) {keyspace : Keyspace}
    (hprunes : traffic.engine.keyspace.Prunes keyspace) :
    Vigilant { traffic with engine := { traffic.engine with keyspace } } :=
  h.withKeyspace keyspace (hprunes.sound h.sound) (hprunes.fades h.sound)

/-- A read is registered for its keys, and its reader starts to look. -/
theorem Vigilant.register {traffic : Traffic} (h : traffic.Vigilant) {client : Nat}
    {read : StreamRead} {ms : UInt64} {cursors : List Cursor} (count : Option Nat)
    (deadline : Option Nat) (hphase : traffic.phase client = .resolves read ms cursors []) :
    (traffic.go client
      { traffic.engine with readers := (traffic.engine.readers.register read.keys).2 }
      (.looks ⟨(traffic.engine.readers.register read.keys).1, cursors, count, deadline⟩ [] cursors
        false)).Vigilant := by
  have hkeys := h.watched client
  rw [hphase] at hkeys
  -- First the reader is added, which changes nothing for the others, and then the thread goes on.
  have hregistered : Vigilant { traffic with engine := { traffic.engine with
      readers := (traffic.engine.readers.register read.keys).2 } } := by
    refine h.withReaders _ ?_ ?_ ?_
    · intro reader hreader
      simp only [Readers.register, List.mem_append, List.mem_singleton] at hreader ⊢
      rcases hreader with hold | rfl
      · exact Nat.lt_succ_of_lt (h.bounded reader hold)
      · exact Nat.lt_succ_self _
    · intro other ticket hticket
      rcases h.registered other ticket hticket with ⟨reader, hreader, hid⟩
      exact ⟨reader, List.mem_append_left _ hreader, hid⟩
    · intro other ticket _ _ hwoken
      rw [Readers.isWoken_register]
      exact hwoken
  refine hregistered.goPhase (by simp [hphase]) (fun ticket hticket => ?_) ?_
  · simp only [Phase.ticket?, Option.some.injEq] at hticket
    subst hticket
    refine ⟨⟨_, List.mem_append_right _ (List.mem_singleton_self _), rfl, ?_⟩, ?_⟩
    · simp only [Phase.Watched, List.map_nil, List.append_nil] at hkeys
      exact hkeys
    · -- The number is new, so no other thread holds it.
      intro other ticket' _ hticket'
      exact Nat.ne_of_lt (h.reader_lt hticket')
  · exact Phase.watched_looks_all _ _ false

/-- A reader uses up its wake-up, and starts to look at all its streams. -/
theorem Vigilant.consume {traffic : Traffic} (h : traffic.Vigilant) {client : Nat}
    {ticket : Ticket} (hphase : traffic.phase client = .parked ticket) :
    (traffic.go client
      { traffic.engine with readers := traffic.engine.readers.consume ticket.reader }
      (.looks ticket [] ticket.cursors false)).Vigilant := by
  have hlooks : (traffic.go client traffic.engine
      (.looks ticket [] ticket.cursors false)).Vigilant := by
    refine h.goOn (by simp [hphase]) (by simp [hphase, Phase.ticket?]) ?_
    exact Phase.watched_looks_all _ ticket false
  refine hlooks.mapReaders rfl rfl
    (fun reader => by split <;> exact ⟨rfl, rfl⟩) ?_
  intro other ticket' hticket hnot hwoken
  by_cases hother : other = client
  · -- The reader itself has all its streams to look at.
    rw [hother, go_phase] at hticket hnot
    rw [← Option.some.inj hticket] at hnot
    exact absurd rfl (hnot false)
  · -- The wake-up of another reader is not used up, because it has another number.
    have hne : ticket'.reader ≠ ticket.reader := by
      intro hsame
      refine hother (hlooks.unique other client ticket' ticket hticket ?_ hsame)
      rw [go_phase]
      rfl
    rw [Readers.isWoken_consume _ hne]
    exact hwoken

/-- The readers of a key to which a thread added an entry are woken. -/
theorem Vigilant.notify {traffic : Traffic} (h : traffic.Vigilant) {client : Nat} {key : String}
    (hphase : traffic.phase client = .added key) :
    (traffic.go client (traffic.engine.notify key) .idle).Vigilant := by
  have hnotified : Vigilant { traffic with engine := traffic.engine.notify key } := by
    refine h.mapReaders rfl rfl (fun reader => by split <;> exact ⟨rfl, rfl⟩) ?_
    exact fun other ticket _ _ hwoken => Readers.isWoken_notify hwoken key
  refine hnotified.goPhase (fun other hother another ticket hticket hmem => ?_)
    (by simp [Phase.ticket?]) trivial
  rw [hphase] at hother
  rw [← Phase.added.inj hother] at hmem
  exact (h.registered another ticket hticket).isWoken_notify hmem

/-- A reader has looked at one stream more. -/
theorem Vigilant.look {traffic : Traffic} (h : traffic.Vigilant) {client : Nat} {ticket : Ticket}
    {found : Finds} {cursor : Cursor} {left : List Cursor} {last : Bool}
    {entries : List StreamEntry} {keyspace : Keyspace} {now : UInt64}
    (hphase : traffic.phase client = .looks ticket found (cursor :: left) last)
    (hread : cursor.read traffic.engine.keyspace now ticket.count = (.ok entries, keyspace)) :
    (traffic.go client { traffic.engine with keyspace }
      (.looks ticket (if entries = [] then found else found ++ [(cursor, entries)]) left
        last)).Vigilant := by
  rcases Cursor.read_spec h.sound hread with ⟨hprunes, habove, hfinds⟩
  have hwatched := h.watched client
  rw [hphase] at hwatched
  rcases hwatched with ⟨hgood, passed, hpassed, hwatched⟩
  refine (h.prune hprunes).goOn (by simp [hphase]) (by simp [hphase, Phase.ticket?]) ?_
  refine ⟨?_, passed ++ [cursor], by rw [hpassed, List.append_assoc]; rfl, ?_⟩
  · by_cases hnone : entries = []
    · rw [if_pos hnone]
      exact hgood
    · rw [if_neg hnone]
      intro find hfind
      rcases List.mem_append.mp hfind with hold | hnew
      · exact hgood find hold
      · rw [List.mem_singleton.mp hnew]
        refine ⟨?_, habove⟩
        rw [hpassed]
        exact List.mem_append_right _ List.mem_cons_self
  · intro hcount hfound hlast other hother hnews
    -- The reader has still found nothing, so there was nothing in this stream either.
    have hnone : entries = [] := by
      by_contra hsome
      simp [hsome] at hfound
    rw [if_pos hnone] at hfound
    have hbefore := hnews.of_fades (hprunes.fades h.sound)
    rcases List.mem_append.mp hother with hold | hnew
    · exact (hwatched hcount hfound hlast other hold hbefore).go (by simp [hphase]) rfl _
    · -- This is the stream just read, and nothing was found there.
      rw [List.mem_singleton.mp hnew] at hbefore
      exact absurd hnone (hfinds hcount hbefore)

/-- An entry is added, and its readers are still to be woken. -/
theorem Vigilant.add {traffic : Traffic} (h : traffic.Vigilant) {client : Nat} {now : UInt64}
    {key id : String} {fields : List String} {added : StreamId} {keyspace : Keyspace}
    (hphase : traffic.phase client = .idle)
    (hadd : StreamCommand.addEntry traffic.engine.keyspace now key id fields =
      (.ok added, keyspace)) :
    (traffic.go client { traffic.engine with keyspace } (.added key)).Vigilant := by
  have hadded : (traffic.go client traffic.engine (.added key)).Vigilant :=
    h.goOn (by simp [hphase]) (by simp [Phase.ticket?]) trivial
  have hsound := Engine.run_sound h.sound now (.addEntry key id fields)
  have hothers := (Keyspace.addEntryCommand_fades h.sound now key id fields).1
  rw [(Engine.run_addEntry _ _ _ _ _).2, hadd] at hsound
  rw [hadd] at hothers
  -- The stream of the key may have news, for which its thread has still to wake the readers.
  refine hadded.withEngine { traffic.engine with keyspace } rfl hsound fun cursor hnews => ?_
  by_cases hkey : cursor.key = key
  · refine Or.inr ⟨client, ?_⟩
    rw [go_phase, hkey]
  · exact Or.inl (hnews.of_eq (hothers cursor.key hkey))

/-- Every step keeps readers vigilant. -/
theorem Step.vigilant {before after : Traffic} {outcome : Outcome}
    (hstep : Step before outcome after) (h : before.Vigilant) : after.Vigilant := by
  cases hstep with
  | @ask client arguments read ms hphase hread hblock =>
      refine h.goOn (by simp [hphase]) (by simp [Phase.ticket?]) ?_
      rfl
  | @resolve client read ms cursors key id left cursor keyspace now hphase hresolve =>
      have hprunes := Cursor.resolve_prunes before.engine.keyspace now key id
      have hkeys := h.watched client
      rw [hresolve] at hprunes
      rw [hphase] at hkeys
      refine (h.prune hprunes).goOn (by simp [hphase]) (by simp [Phase.ticket?]) ?_
      simp only [Phase.Watched] at hkeys ⊢
      rw [hkeys]
      simp [Cursor.resolve_key hresolve]
  | @refuse client read ms cursors key id left e keyspace now hphase hresolve =>
      have hprunes := Cursor.resolve_prunes before.engine.keyspace now key id
      rw [hresolve] at hprunes
      exact (h.prune hprunes).goOn (by simp [hphase]) (by simp [Phase.ticket?]) trivial
  | register now hphase => exact h.register _ _ hphase
  | look now hphase hread => exact h.look hphase hread
  | @fail client ticket found cursor left last e keyspace now hphase hread =>
      have hprunes : before.engine.keyspace.Prunes
          (cursor.read before.engine.keyspace now ticket.count).2 :=
        before.engine.keyspace.touch_prunes now cursor.key
      rw [hread] at hprunes
      refine (h.prune hprunes).leave ?_
      simp [hphase, Phase.ticket?]
  | answer hphase hdone => exact h.leave (by simp [hphase, Phase.ticket?])
  | @park client ticket hphase =>
      have hwatched := h.watched client
      rw [hphase] at hwatched
      rcases hwatched with ⟨_, passed, hpassed, hwatched⟩
      -- Nothing is left to look at, so all streams were passed.
      refine h.goOn (by simp [hphase]) (by simp [hphase, Phase.ticket?]) ?_
      intro hcount cursor hcursor hnews
      rw [hpassed, List.append_nil] at hcursor
      exact (hwatched hcount rfl rfl cursor hcursor hnews).go (by simp [hphase]) rfl _
  | wake hphase hwoken => exact h.consume hphase
  | @expire client ticket hphase hdeadline =>
      refine h.goOn (by simp [hphase]) (by simp [hphase, Phase.ticket?]) ?_
      exact Phase.watched_looks_all _ ticket true
  | add now hphase hadd => exact h.add hphase hadd
  | @refuseEntry client key id fields e keyspace now hphase hadd =>
      have hsound := Engine.run_sound h.sound now (.addEntry key id fields)
      have hfades := (Keyspace.addEntryCommand_fades h.sound now key id fields).2 e
      rw [(Engine.run_addEntry _ _ _ _ _).2, hadd] at hsound
      rw [hadd] at hfades
      exact (h.withKeyspace keyspace hsound (hfades rfl)).goOn (by simp [hphase])
        (by simp [Phase.ticket?]) trivial
  | notify hphase => exact h.notify hphase
  | @run client request now hphase hrequest =>
      rcases Engine.run_fades h.sound now hrequest with ⟨hreaders, hfades⟩
      have hengine := h.withEngine (before.engine.run now request).2 hreaders
        (Engine.run_sound h.sound now request) fun _ hnews => Or.inl (hnews.of_fades hfades)
      exact hengine.goOn (by simp [hphase]) (by simp [Phase.ticket?]) trivial
  | load now entries =>
      exact h.withEngine (before.engine.load now entries).2 rfl
        (Keyspace.sound_invariant.load h.sound now entries) fun _ hnews =>
          Or.inl (hnews.of_fades (before.engine.load_fades now entries))
  | surroundings role links =>
      exact h.withEngine { before.engine with role, links } rfl h.sound fun _ => Or.inl

/-- At the start there is nobody to watch. -/
theorem start_vigilant (config : Config) (file : Snapshot.File) (replicationId : String) :
    (start config file replicationId).Vigilant := by
  refine ⟨Keyspace.empty_sound, ?_, ?_, ?_, fun client => trivial⟩
  · intro reader hreader
    simp [start, Engine.start, Readers.empty] at hreader
  · intro client ticket hticket
    simp [start, Phase.ticket?] at hticket
  · intro client other ticket ticket' hticket
    simp [start, Phase.ticket?] at hticket

/-- Every run keeps watch, by its steps. -/
theorem Run.vigilant {before after : Traffic} {log : List Outcome} (h : Run before log after)
    (hbefore : before.Vigilant) : after.Vigilant := by
  induction h with
  | done traffic => exact hbefore
  | step hfirst _ ih => exact ih (hfirst.vigilant hbefore)

/-- No reader has the number, and none will. -/
structure Gone (id : Nat) (traffic : Traffic) : Prop where
  old : id < traffic.engine.readers.nextId
  absent : ∀ reader ∈ traffic.engine.readers.waiting, reader.id ≠ id

theorem Gone.of_readers {id : Nat} {before after : Traffic} (h : Gone id before)
    (hreaders : after.engine.readers = before.engine.readers) : Gone id after := by
  refine ⟨?_, ?_⟩
  · rw [hreaders]
    exact h.old
  · rw [hreaders]
    exact h.absent

/-- Forgetting a reader brings none back. -/
theorem Gone.forget {id : Nat} {traffic : Traffic} (h : Gone id traffic) (client other : Nat)
    (keyspace : Keyspace) (phase : Phase) :
    Gone id (traffic.go client (Engine.forget { traffic.engine with keyspace } other) phase) :=
  ⟨h.old, fun reader hreader => h.absent reader (List.mem_filter.mp hreader).1⟩

/-- A reader that is gone does not come back. -/
theorem Step.gone {before after : Traffic} {outcome : Outcome} (hstep : Step before outcome after)
    (hvigilant : before.Vigilant) {id : Nat} (h : Gone id before) : Gone id after := by
  cases hstep with
  | ask | resolve | refuse | look | park | expire | add | refuseEntry | load | surroundings =>
      exact h.of_readers rfl
  | run now hphase hrequest =>
      exact h.of_readers (Engine.run_fades hvigilant.sound now hrequest).1
  | register now hphase =>
      refine ⟨Nat.lt_succ_of_lt h.old, fun reader hreader => ?_⟩
      rcases List.mem_append.mp hreader with hold | hnew
      · exact h.absent reader hold
      · rw [List.mem_singleton.mp hnew]
        exact Nat.ne_of_gt h.old
  | fail now hphase hread => exact h.forget ..
  | answer hphase hdone => exact h.forget _ _ _ _
  | wake hphase hwoken | notify hphase =>
      refine ⟨h.old, fun reader hreader => ?_⟩
      rcases List.mem_map.mp hreader with ⟨old, hold, rfl⟩
      have hne := h.absent old hold
      split <;> exact hne

-- The reader of a read that is answered is gone.
theorem Step.gone_of_answered {before after : Traffic} {ticket : Ticket}
    {result : Except Error Finds} (hstep : Step before (.answered ticket result) after)
    (hvigilant : before.Vigilant) : Gone ticket.reader after := by
  cases hstep with
  | fail now hphase hread | answer hphase hdone =>
      refine ⟨hvigilant.reader_lt (by rw [hphase]; rfl), fun reader hreader => ?_⟩
      simpa using (List.mem_filter.mp hreader).2

/-- A reader that is gone is gone for good, as its number is not given again. -/
theorem Run.gone {before after : Traffic} {log : List Outcome} (h : Run before log after)
    (hvigilant : before.Vigilant) {id : Nat} (hgone : Gone id before) : Gone id after := by
  induction h with
  | done traffic => exact hgone
  | step hfirst _ ih => exact ih (hfirst.vigilant hvigilant) (hfirst.gone hvigilant hgone)

/-- What can be seen of a run comes from one of its steps. -/
theorem Run.split {before after : Traffic} {log : List Outcome} (h : Run before log after)
    (hvigilant : before.Vigilant) {outcome : Outcome} (hmem : outcome ∈ log) :
    ∃ middle next later, middle.Vigilant ∧ Step middle outcome next ∧ Run next later after := by
  induction h with
  | done traffic => simp at hmem
  | step hfirst hrest ih =>
      rcases List.mem_cons.mp hmem with rfl | hlater
      · exact ⟨_, _, _, hvigilant, hfirst, hrest⟩
      · exact ih (hfirst.vigilant hvigilant) hlater

/-- Steps that keep a condition. -/
inductive Stays (condition : Traffic → Prop) : Traffic → Traffic → Prop
  | done {traffic : Traffic} (h : condition traffic) : Stays condition traffic traffic
  | step {before middle after : Traffic} {outcome : Outcome} (h : condition before)
      (hstep : Step before outcome middle) (rest : Stays condition middle after) :
      Stays condition before after

/-- A read that has found something, or has still to look at the stream of the cursor; or it was
    answered. -/
def Seeks (traffic : Traffic) (client : Nat) (ticket : Ticket) (cursor : Cursor) : Prop :=
  (∃ found left last, traffic.phase client = .looks ticket found left last ∧
    (found ≠ [] ∨ cursor ∈ left)) ∨ Gone ticket.reader traffic

/-- While there is something to find, the read goes on with it. -/
theorem Step.seeks {before after : Traffic} {outcome : Outcome} (hstep : Step before outcome after)
    (hvigilant : before.Vigilant) {client : Nat} {ticket : Ticket} {cursor : Cursor}
    (hcount : ticket.count ≠ some 0) (hnews : cursor.HasNews before.engine.keyspace)
    (h : before.Seeks client ticket cursor) : after.Seeks client ticket cursor := by
  rcases h with ⟨found, left, last, hlooks, hseeks⟩ | hgone
  · -- The step of another thread leaves the read where it is.
    have hother : ∀ {other : Nat} {engine : Engine} {phase : Phase}, client ≠ other →
        (before.go other engine phase).Seeks client ticket cursor := by
      intro other engine phase hne
      refine Or.inl ⟨found, left, last, ?_, hseeks⟩
      rw [go_phase_of_ne _ _ _ hne]
      exact hlooks
    cases hstep with
    | ask hphase _ _ | resolve _ hphase _ | refuse _ hphase _ | register _ hphase
    | wake hphase _ | expire hphase _ | add _ hphase _ | refuseEntry _ hphase _ | notify hphase
    | run _ hphase _ =>
        refine hother ?_
        rintro rfl
        simp [hphase] at hlooks
    | load | surroundings => exact Or.inl ⟨found, left, last, hlooks, hseeks⟩
    | @look other ticket' found' read left' last' entries keyspace now hphase hread =>
        by_cases hclient : client = other
        · subst hclient
          rw [hphase] at hlooks
          rcases Phase.looks.inj hlooks with ⟨rfl, rfl, rfl, rfl⟩
          refine Or.inl ⟨_, left', last', go_phase .., ?_⟩
          -- What was found stays found, and reading the stream with news finds something.
          rcases hseeks with hfound | hleft
          · left
            split
            · exact hfound
            · simp
          · rcases List.mem_cons.mp hleft with rfl | hrest
            · left
              rw [if_neg ((Cursor.read_spec hvigilant.sound hread).2.2 hcount hnews)]
              simp
            · exact Or.inr hrest
        · exact hother hclient
    | @fail other ticket' found' read left' last' e keyspace now hphase hread =>
        by_cases hclient : client = other
        · subst hclient
          rw [hphase] at hlooks
          rw [← (Phase.looks.inj hlooks).1]
          exact Or.inr ((Step.fail now hphase hread).gone_of_answered hvigilant)
        · exact hother hclient
    | @answer other ticket' found' last' hphase hdone =>
        by_cases hclient : client = other
        · subst hclient
          rw [hphase] at hlooks
          rw [← (Phase.looks.inj hlooks).1]
          exact Or.inr ((Step.answer hphase hdone).gone_of_answered hvigilant)
        · exact hother hclient
    | @park other ticket' hphase =>
        -- A reader parks only when it has found nothing and nothing is left.
        refine hother ?_
        rintro rfl
        rw [hphase] at hlooks
        rcases Phase.looks.inj hlooks with ⟨_, rfl, rfl, _⟩
        simp at hseeks
  · exact Or.inr (hstep.gone hvigilant hgone)

/-- A read that is answered while there is something to find has found something. -/
theorem Stays.finds {before last after : Traffic} {client : Nat} {ticket : Ticket}
    {cursor : Cursor}
    (h : Stays (fun traffic => cursor.HasNews traffic.engine.keyspace) before last)
    (hvigilant : before.Vigilant) (hcount : ticket.count ≠ some 0)
    (hseeks : before.Seeks client ticket cursor) {found : Finds}
    (hanswer : Step last (.answered ticket (.ok found)) after) : found ≠ [] := by
  induction h with
  | done hnews =>
      rcases hseeks with ⟨found', left, final, hlooks, hseeks⟩ | hgone
      · cases hanswer with
        | @answer other _ _ final' hphase hdone =>
            -- The number of the reader tells that it is this client who is answered.
            have hclient : client = other := by
              refine hvigilant.unique client other ticket ticket ?_ ?_ rfl
              · rw [hlooks]
                rfl
              · rw [hphase]
                rfl
            subst hclient
            rw [hphase] at hlooks
            rcases Phase.looks.inj hlooks with ⟨_, rfl, rfl, _⟩
            simpa using hseeks
      · cases hanswer with
        | answer hphase hdone =>
            rcases hvigilant.registered _ ticket (by rw [hphase]; rfl) with
              ⟨reader, hreader, hid, _⟩
            exact absurd hid (hgone.absent reader hreader)
  | step hnews hstep _ ih =>
      exact ih (hstep.vigilant hvigilant) (hstep.seeks hvigilant hcount hnews hseeks) hanswer

/-- What a read finds is not answered like nothing. -/
theorem reply_ne_null {found : Finds} (h : found ≠ []) : found.reply ≠ .null := by
  cases found with
  | nil => exact absurd rfl h
  | cons find rest => simp [Finds.reply, Cursor.readReply]

-- A parked reader that goes on has all its streams to look at.
theorem Step.looks_of_parked {before after : Traffic} {outcome : Outcome}
    (hstep : Step before outcome after) {client : Nat} {ticket : Ticket}
    (hparked : before.phase client = .parked ticket)
    (hnot : after.phase client ≠ .parked ticket) :
    ∃ last, after.phase client = .looks ticket [] ticket.cursors last := by
  -- While another thread makes the step, the reader stays parked.
  have hsame : ∀ {other : Nat} {engine : Engine} {phase : Phase}, client ≠ other →
      ¬ (before.go other engine phase).phase client ≠ .parked ticket := by
    intro other engine phase hne
    rw [go_phase_of_ne _ _ _ hne, hparked]
    exact fun h => h rfl
  cases hstep with
  | ask hphase _ _ | resolve _ hphase _ | refuse _ hphase _ | register _ hphase | look _ hphase _
  | fail _ hphase _ | answer hphase _ | park hphase | add _ hphase _ | refuseEntry _ hphase _
  | notify hphase | run _ hphase _ =>
      refine absurd hnot (hsame ?_)
      rintro rfl
      simp [hphase] at hparked
  | load | surroundings => exact absurd hparked hnot
  | @wake other ticket' hphase hwoken | @expire other ticket' hphase hdeadline =>
      by_cases hclient : client = other
      · subst hclient
        rw [hphase] at hparked
        rw [← Phase.parked.inj hparked]
        exact ⟨_, go_phase ..⟩
      · exact absurd hnot (hsame hclient)

/-- Readers and threads that add entries run in any interleaving, from the start of a server. Of
    reads that do not ask for zero entries,
    * a parked reader with news is woken, or a thread that added an entry to one of its streams has
      still to wake its readers;
    * a parked reader that goes on, because it is woken or its time is over, looks at all its
      streams again, and is not answered without entries if a stream has news until it is answered.
    Of all reads,
    * the entries that they are answered with lie above the ids where they started;
    * once they are answered, their readers are not registered any more. -/
theorem Run.loses_no_wakeup {config : Config} {file : Snapshot.File} {replicationId : String}
    {traffic : Traffic} {log : List Outcome}
    (h : Run (start config file replicationId) log traffic) :
    (∀ client ticket, traffic.phase client = .parked ticket → ticket.count ≠ some 0 →
      ∀ cursor ∈ ticket.cursors, cursor.HasNews traffic.engine.keyspace →
        traffic.engine.readers.isWoken ticket.reader = true ∨
          ∃ other key, traffic.phase other = .added key ∧ key ∈ ticket.keys) ∧
      (∀ client ticket, traffic.phase client = .parked ticket → ticket.count ≠ some 0 →
        ∀ outcome next, Step traffic outcome next → next.phase client ≠ .parked ticket →
          (∃ final, next.phase client = .looks ticket [] ticket.cursors final) ∧
            ∀ cursor ∈ ticket.cursors, ∀ last,
              Stays (fun traffic => cursor.HasNews traffic.engine.keyspace) next last →
                ∀ found after, Step last (.answered ticket (.ok found)) after →
                  found.reply ≠ .null) ∧
      (∀ ticket found, .answered ticket (.ok found) ∈ log → ∀ find ∈ found,
        find.1 ∈ ticket.cursors ∧ ∀ entry ∈ find.2, find.1.above < entry.id) ∧
      ∀ ticket result, .answered ticket result ∈ log →
        ∀ reader ∈ traffic.engine.readers.waiting, reader.id ≠ ticket.reader := by
  have hstart := start_vigilant config file replicationId
  have hvigilant := h.vigilant hstart
  refine ⟨?_, ?_, ?_, ?_⟩
  · intro client ticket hphase hcount cursor hcursor hnews
    have hwatched := hvigilant.watched client
    rw [hphase] at hwatched
    exact hwatched hcount cursor hcursor hnews
  · intro client ticket hphase hcount outcome next hstep hnot
    -- It has all its streams to look at, and the one with news among them.
    rcases hstep.looks_of_parked hphase hnot with ⟨final, hlooks⟩
    refine ⟨⟨final, hlooks⟩, fun cursor hcursor last hstays found after hanswer => ?_⟩
    have hseeks : next.Seeks client ticket cursor :=
      Or.inl ⟨[], ticket.cursors, final, hlooks, Or.inr hcursor⟩
    exact reply_ne_null (hstays.finds (hstep.vigilant hvigilant) hcount hseeks hanswer)
  · intro ticket found hmem
    rcases h.split hstart hmem with ⟨middle, next, later, hmiddle, hstep, _⟩
    cases hstep with
    | @answer client _ _ final hphase hdone =>
        have hwatched := hmiddle.watched client
        rw [hphase] at hwatched
        exact hwatched.1
  · intro ticket result hmem
    rcases h.split hstart hmem with ⟨middle, next, later, hmiddle, hstep, hrest⟩
    -- The reader leaves with the answer, and its number is not given again.
    exact (hrest.gone (hstep.vigilant hmiddle) (hstep.gone_of_answered hmiddle)).absent

-- An entry arrives at a stream whose reader is parked, and the reader is not woken yet.
theorem Run.loses_no_wakeup_added :
    ∃ log traffic ticket,
      Run (start {} .missing "id") log traffic ∧ traffic.phase 0 = .parked ticket ∧
        traffic.engine.readers.isWoken ticket.reader = false ∧
        ∃ other key, traffic.phase other = .added key ∧ key ∈ ticket.keys := by
  let read : StreamRead := { block := some 0, starts := [("k", "0")] }
  let cursor : Cursor := ⟨"k", .zero⟩
  let ticket : Ticket := ⟨0, [cursor], none, none⟩
  let entry : StreamEntry := ⟨⟨1, 1⟩, [("f", "v")]⟩
  have hread : StreamRead.ofArguments {} ["BLOCK", "0", "STREAMS", "k", "0"] = .ok read := by
    have hstreams : Text.sameWord "BLOCK" "STREAMS" = false := by decide +kernel
    have hcount : Text.sameWord "BLOCK" "COUNT" = false := by decide +kernel
    have hblock : Text.sameWord "BLOCK" "BLOCK" = true := by decide +kernel
    have hlast : Text.sameWord "STREAMS" "STREAMS" = true := by decide +kernel
    have hzero : Decimal.uint64? "0" = some 0 := by decide +kernel
    simp [StreamRead.ofArguments, StreamRead.startsOf, hstreams, hcount, hblock, hlast, hzero,
      Except.map, read]
  have hrun : Run (start {} .missing "id") _ _ :=
    .step (@Step.ask _ 0 ["BLOCK", "0", "STREAMS", "k", "0"] read 0 rfl hread rfl)
      (.step (@Step.resolve _ 0 read 0 [] "k" "0" [] cursor .empty 1 rfl rfl)
        (.step (@Step.register _ 0 read 0 [cursor] 1 rfl)
          (.step (@Step.look _ 0 ticket [] cursor [] false [] .empty 1 rfl rfl)
            (.step (@Step.park _ 0 ticket rfl)
              (.step (@Step.add _ 1 "k" "1-1" ["f", "v"] ⟨1, 1⟩
                (Keyspace.empty.insert "k" ⟨.stream ⟨[entry]⟩, .never⟩) 2 rfl rfl)
                (.done _))))))
  -- The cursor of the reader has news, and the reader is asleep.
  have hwoken := (Run.loses_no_wakeup hrun).1 0 ticket rfl (by simp [ticket]) cursor
    List.mem_cons_self ⟨entry, List.mem_cons_self, by decide⟩
  exact ⟨_, _, ticket, hrun, rfl, rfl, hwoken.resolve_left (by decide)⟩

end Traffic

end KeyValue
