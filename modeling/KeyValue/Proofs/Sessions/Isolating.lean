import KeyValue.Proofs.Engine.Using

/-!
# Queues that are run with nothing of others in between

The commands of a transaction are run one after the other, and other sessions may use the engine in
between. What everybody does is a list of uses, each with its time and with what was found
(`Replays`). Some of them are those of the queue (`Runs`), in order; together with what was found they
tell the replies.

If no other session comes across the queue while it is run (`KeepsOff`), the uses of the queue can be
moved to the front, past those of the others, and everybody finds the same (`Replays.gather`). Then
the queue is run as a whole, as `Engine.runQueue` runs it (`Runs.runQueue`).

## Main definitions

* `Deed`, `Replays`: What somebody does, and what many do one after the other.
* `own`, `others`: What a session does, and what the others do.
* `Makes`, `Runs`: What a request does, and what a queue does.
* `Interleaving`: A session runs a queue, with others in between.
* `Isolated`: The same with the queue run as a whole.
* `KeepsOff`: The others do not come across what a session does.

## Theorems

* `Replays.swap`, `Replays.gather`: Deeds in another order.
* `Runs.runQueue`: A queue that is run with nothing in between.
* `Interleaving.isolated`: A queue that nobody comes across can be moved to the front.
-/

namespace KeyValue

/-- What somebody does in one go, at its time, and what is found. -/
structure Deed where
  /-- The client whose session it is, if it is one. -/
  client : Option Nat
  now : UInt64
  use : Use
  finding : Finding

/-- These deeds, one after the other, find what they found, and lead from one engine to another, which
    may differ in what no request can tell. -/
inductive Replays : Engine → List Deed → Engine → Prop
  | done {first last : Engine} (h : first.Same last) : Replays first [] last
  | step {first last : Engine} {deed : Deed} {deeds : List Deed}
      (hfinds : (deed.use.on first deed.now).1 = deed.finding)
      (rest : Replays (deed.use.on first deed.now).2 deeds last) : Replays first (deed :: deeds) last

/-- What the session of a client does. -/
def own (client : Nat) (deeds : List Deed) : List Deed := deeds.filter (·.client = some client)

/-- What everybody else does. -/
def others (client : Nat) (deeds : List Deed) : List Deed := deeds.filter (·.client ≠ some client)

/-- No one else comes across what the session of a client does. -/
def KeepsOff (client : Nat) (deeds : List Deed) : Prop :=
  ∀ deed ∈ own client deeds, ∀ other ∈ others client deeds,
    deed.use.Apart other.use deed.now other.now

namespace Replays

variable {first middle last next : Engine} {deed other : Deed} {deeds later : List Deed}

theorem congr (h : Replays first deeds last) (hsame : first.Same next) : Replays next deeds last := by
  induction h generalizing next with
  | done hlast => exact .done (hsame.symm.trans hlast)
  | @step first last deed deeds hfinds rest ih =>
      rcases deed.use.on_congr deed.now hsame with ⟨hfinding, hafter⟩
      exact .step (hfinding.symm.trans hfinds) (ih hafter)

theorem trans_same (h : Replays first deeds last) (hsame : last.Same next) :
    Replays first deeds next := by
  induction h with
  | done hlast => exact .done (hlast.trans hsame)
  | step hfinds rest ih => exact .step hfinds (ih hsame)

theorem append (h : Replays first deeds middle) (h' : Replays middle later last) :
    Replays first (deeds ++ later) last := by
  induction h with
  | done hsame => exact h'.congr hsame.symm
  | step hfinds rest ih => exact .step hfinds (ih h')

theorem split (h : Replays first (deeds ++ later) last) :
    ∃ middle, Replays first deeds middle ∧ Replays middle later last := by
  induction deeds generalizing first with
  | nil => exact ⟨first, .done (.refl first), h⟩
  | cons deed rest ih =>
      cases h with
      | step hfinds hrest =>
          rcases ih hrest with ⟨middle, hfirst, hlast⟩
          exact ⟨middle, .step hfinds hfirst, hlast⟩

/-- Two deeds that are apart can be done in the other order. -/
theorem swap (h : Replays first (deed :: other :: deeds) last)
    (hapart : deed.use.Apart other.use deed.now other.now) :
    Replays first (other :: deed :: deeds) last := by
  cases h with
  | step hfinds hrest =>
      cases hrest with
      | step hfinds' hlast =>
          rcases Use.swap hapart first with ⟨hsecond, hfirst, hsame⟩
          exact .step (hsecond.symm.trans hfinds') (.step (hfirst.trans hfinds) (hlast.congr hsame))

/-- A deed is moved behind those that it is apart from. -/
theorem move (h : Replays first (deed :: (deeds ++ later)) last)
    (hapart : ∀ other ∈ deeds, deed.use.Apart other.use deed.now other.now) :
    Replays first (deeds ++ deed :: later) last := by
  induction deeds generalizing first with
  | nil => exact h
  | cons other rest ih =>
      cases h.swap (hapart other List.mem_cons_self) with
      | step hfinds hrest =>
          exact .step hfinds (ih hrest fun next hnext => hapart next (List.mem_cons_of_mem _ hnext))

/-- What a session does is moved to the front, if nobody comes across it. -/
theorem gather {client : Nat} (h : Replays first (deeds ++ later) last)
    (hoff : KeepsOff client deeds) :
    Replays first (own client deeds ++ (others client deeds ++ later)) last := by
  induction deeds generalizing first with
  | nil => exact h
  | cons deed rest ih =>
      have hrest : KeepsOff client rest := by
        intro mine hmine other hother
        refine hoff mine ?_ other ?_
        · exact ((List.sublist_cons_self deed rest).filter _).subset hmine
        · exact ((List.sublist_cons_self deed rest).filter _).subset hother
      cases h with
      | step hfinds hlast =>
          have hgathered := Replays.step hfinds (ih hlast hrest)
          by_cases hclient : deed.client = some client
          · simpa [own, others, hclient] using hgathered
          · -- Somebody else's deed is moved behind those of the session.
            have hmoved := hgathered.move fun mine hmine => by
              refine (hoff mine ?_ deed ?_).symm
              · exact ((List.sublist_cons_self deed rest).filter _).subset hmine
              · simp [others, hclient]
            simpa [own, others, hclient] using hmoved

end Replays

/-- What a read of streams does to look up its starts, up to the first that fails. -/
inductive Resolves (client : Nat) :
    List (String × String) → List Deed → Except Error (List Cursor) → Prop
  | done : Resolves client [] [] (.ok [])
  | fails {rest : List (String × String)} (now : UInt64) (key id : String) (e : Error) :
      Resolves client ((key, id) :: rest) [⟨some client, now, .resolve key id, .start (.error e)⟩]
        (.error e)
  | step {rest : List (String × String)} {deeds : List Deed} {result : Except Error (List Cursor)}
      (now : UInt64) (key id : String) (cursor : Cursor) (h : Resolves client rest deeds result) :
      Resolves client ((key, id) :: rest)
        (⟨some client, now, .resolve key id, .start (.ok cursor)⟩ :: deeds)
        (result.map (cursor :: ·))

/-- What a read does to look at its streams, up to the first that fails. -/
inductive Looks (client : Nat) (count : Option Nat) :
    List Cursor → List Deed → Except Error (List Reply) → Prop
  | done : Looks client count [] [] (.ok [])
  | fails {rest : List Cursor} (now : UInt64) (cursor : Cursor) (e : Error) :
      Looks client count (cursor :: rest)
        [⟨some client, now, .look count cursor, .entries (.error e)⟩] (.error e)
  | step {rest : List Cursor} {deeds : List Deed} {result : Except Error (List Reply)}
      (now : UInt64) (cursor : Cursor) (entries : List StreamEntry)
      (h : Looks client count rest deeds result) :
      Looks client count (cursor :: rest)
        (⟨some client, now, .look count cursor, .entries (.ok entries)⟩ :: deeds)
        (result.map fun replies =>
          if entries.isEmpty then replies else Cursor.streamReply cursor.key entries :: replies)

/-- What a request does that does not wait, with its result. -/
inductive Makes (client : Nat) : Request → List Deed → Except Error Reply → Prop
  | whole {request : Request} (now : UInt64)
      (hwhole : ∀ arguments, request ≠ .readStreams arguments) (result : Except Error Reply) :
      Makes client request [⟨some client, now, .run request hwhole, .reply result⟩] result
  | unread {arguments : List String} {e : Error}
      (hread : StreamRead.ofArguments {} arguments = .error e) :
      Makes client (.readStreams arguments) [] (.error e)
  | unresolved {arguments : List String} {read : StreamRead} {deeds : List Deed} {e : Error}
      (hread : StreamRead.ofArguments {} arguments = .ok read)
      (hresolves : Resolves client read.starts deeds (.error e)) :
      Makes client (.readStreams arguments) deeds (.error e)
  | reads {arguments : List String} {read : StreamRead} {deeds later : List Deed}
      {cursors : List Cursor} {result : Except Error (List Reply)}
      (hread : StreamRead.ofArguments {} arguments = .ok read)
      (hresolves : Resolves client read.starts deeds (.ok cursors))
      (hlooks : Looks client read.count cursors later result) :
      Makes client (.readStreams arguments) (deeds ++ later) (result.map Cursor.readReply)

/-- What a queue does, with the replies. -/
inductive Runs (client : Nat) : List Command → List Deed → List Reply → Prop
  | done : Runs client [] [] []
  | refused {command : Command} {queue : List Command} {deeds : List Deed} {replies : List Reply}
      {e : Error} (hrequest : Request.ofCommand command = .error e)
      (rest : Runs client queue deeds replies) :
      Runs client (command :: queue) deeds (.ofError e :: replies)
  | step {command : Command} {queue : List Command} {request : Request} {deeds later : List Deed}
      {result : Except Error Reply} {replies : List Reply}
      (hrequest : Request.ofCommand command = .ok request)
      (hmakes : Makes client request deeds result) (rest : Runs client queue later replies) :
      Runs client (command :: queue) (deeds ++ later) (.ofExcept result :: replies)

section Whole

variable {client : Nat} {now : UInt64} {first last : Engine} {deeds : List Deed}

/-- Looking up the starts with nothing in between. -/
theorem Resolves.resolveAll {starts : List (String × String)} {result : Except Error (List Cursor)}
    (h : Resolves client starts deeds result) (hnow : ∀ deed ∈ deeds, deed.now = now)
    (hreplays : Replays first deeds last) :
    (Cursor.resolveAll first.keyspace now starts).1 = result ∧
      (first.withKeyspace (Cursor.resolveAll first.keyspace now starts)).2.Same last := by
  induction h generalizing first with
  | done =>
      cases hreplays with
      | done hsame => exact ⟨rfl, hsame⟩
  | @fails rest time key id e =>
      obtain rfl : time = now := hnow _ List.mem_cons_self
      cases hreplays with
      | step hfinds hrest =>
          cases hrest with
          | done hsame =>
              have hresolve : (Cursor.resolve first.keyspace time key id).1 = .error e :=
                Finding.start.inj hfinds
              have hsplit : Cursor.resolve first.keyspace time key id =
                (.error e, (Cursor.resolve first.keyspace time key id).2) := by rw [← hresolve]
              simp only [Cursor.resolveAll]
              rw [hsplit]
              exact ⟨rfl, hsame⟩
  | @step rest deeds result time key id cursor h ih =>
      obtain rfl : time = now := hnow _ List.mem_cons_self
      cases hreplays with
      | step hfinds hrest =>
          have hresolve : (Cursor.resolve first.keyspace time key id).1 = .ok cursor :=
            Finding.start.inj hfinds
          have hsplit : Cursor.resolve first.keyspace time key id =
            (.ok cursor, (Cursor.resolve first.keyspace time key id).2) := by rw [← hresolve]
          have hlast := ih (fun deed hdeed => hnow deed (List.mem_cons_of_mem _ hdeed)) hrest
          simp only [Cursor.resolveAll]
          rw [hsplit]
          exact ⟨congrArg (Except.map (cursor :: ·)) hlast.1, hlast.2⟩

/-- Looking at the streams with nothing in between. -/
theorem Looks.readAll {count : Option Nat} {cursors : List Cursor}
    {result : Except Error (List Reply)} (h : Looks client count cursors deeds result)
    (hnow : ∀ deed ∈ deeds, deed.now = now) (hreplays : Replays first deeds last) :
    (first.readAll now count cursors).1 = result ∧
      (first.readAll now count cursors).2.Same last := by
  induction h generalizing first with
  | done =>
      cases hreplays with
      | done hsame => exact ⟨rfl, hsame⟩
  | @fails rest time cursor e =>
      obtain rfl : time = now := hnow _ List.mem_cons_self
      cases hreplays with
      | step hfinds hrest =>
          cases hrest with
          | done hsame =>
              have hread : (cursor.read first.keyspace time count).1 = .error e :=
                Finding.entries.inj hfinds
              have hsplit : cursor.read first.keyspace time count =
                (.error e, (cursor.read first.keyspace time count).2) := by rw [← hread]
              simp only [Engine.readAll, Engine.withKeyspace, Cursor.readAll]
              rw [hsplit]
              exact ⟨rfl, hsame⟩
  | @step rest deeds result time cursor entries h ih =>
      obtain rfl : time = now := hnow _ List.mem_cons_self
      cases hreplays with
      | step hfinds hrest =>
          have hread : (cursor.read first.keyspace time count).1 = .ok entries :=
            Finding.entries.inj hfinds
          have hsplit : cursor.read first.keyspace time count =
            (.ok entries, (cursor.read first.keyspace time count).2) := by rw [← hread]
          have hlast := ih (fun deed hdeed => hnow deed (List.mem_cons_of_mem _ hdeed)) hrest
          simp only [Engine.readAll, Engine.withKeyspace, Cursor.readAll]
          rw [hsplit]
          exact ⟨congrArg (Except.map _) hlast.1, hlast.2⟩

/-- A request with nothing in between. -/
theorem Makes.run {request : Request} {result : Except Error Reply}
    (h : Makes client request deeds result) (hnow : ∀ deed ∈ deeds, deed.now = now)
    (hreplays : Replays first deeds last) :
    (first.run now request).1 = result ∧ (first.run now request).2.Same last := by
  cases h with
  | whole time hwhole result =>
      obtain rfl : time = now := hnow _ List.mem_cons_self
      cases hreplays with
      | step hfinds hrest =>
          cases hrest with
          | done hsame => exact ⟨Finding.reply.inj hfinds, hsame⟩
  | unread hread =>
      cases hreplays with
      | done hsame =>
          simp only [Engine.run, Engine.openRead, hread]
          exact ⟨trivial, hsame⟩
  | unresolved hread hresolves =>
      have hresolved := hresolves.resolveAll hnow hreplays
      simp only [Engine.withKeyspace] at hresolved
      simp only [Engine.run, Engine.openRead, hread, Engine.withKeyspace, hresolved.1, Except.map]
      exact ⟨trivial, hresolved.2⟩
  | reads hread hresolves hlooks =>
      rcases hreplays.split with ⟨middle, hfirst, hlater⟩
      have hresolved := hresolves.resolveAll
        (fun deed hdeed => hnow deed (List.mem_append_left _ hdeed)) hfirst
      have hlooked := hlooks.readAll
        (fun deed hdeed => hnow deed (List.mem_append_right _ hdeed))
        (hlater.congr hresolved.2.symm)
      simp only [Engine.withKeyspace] at hresolved hlooked
      simp only [Engine.run, Engine.openRead, hread, Engine.withKeyspace, hresolved.1, Except.map]
      exact ⟨congrArg (Except.map Cursor.readReply) hlooked.1, hlooked.2⟩

/-- A queue that is run with nothing in between is run as a whole. -/
theorem Runs.runQueue {queue : List Command} {replies : List Reply}
    (h : Runs client queue deeds replies) (hnow : ∀ deed ∈ deeds, deed.now = now)
    (hreplays : Replays first deeds last) :
    (first.runQueue now queue).1 = replies ∧ (first.runQueue now queue).2.Same last := by
  induction h generalizing first with
  | done =>
      cases hreplays with
      | done hsame => exact ⟨rfl, hsame⟩
  | refused hrequest rest ih =>
      have hlast := ih hnow hreplays
      simp only [Engine.runQueue, Engine.runCommand, hrequest]
      exact ⟨congrArg _ hlast.1, hlast.2⟩
  | step hrequest hmakes rest ih =>
      rcases hreplays.split with ⟨middle, hfirst, hlater⟩
      have hrun := hmakes.run (fun deed hdeed => hnow deed (List.mem_append_left _ hdeed)) hfirst
      have hlast := ih (fun deed hdeed => hnow deed (List.mem_append_right _ hdeed))
        (hlater.congr hrun.2.symm)
      simp only [Engine.runQueue, Engine.runCommand, hrequest]
      exact ⟨by rw [hrun.1, hlast.1], hlast.2⟩

end Whole

/-- What a session does to run a queue, with what others do before, in between and after. -/
structure Interleaving (client : Nat) (queue : List Command) (replies : List Reply)
    (first : Engine) (early during late : List Deed) (last : Engine) : Prop where
  replays : Replays first (early ++ during ++ late) last
  runs : Runs client queue (own client during) replies

/-- The same deeds with the queue run as a whole: everybody finds what they found, and in the end each
    key holds the same. If the clock stands still meanwhile, the queue is run at once. -/
def Isolated (client : Nat) (queue : List Command) (replies : List Reply) (first : Engine)
    (early during late : List Deed) (last : Engine) : Prop :=
  ∃ before after, Replays first early before ∧ Replays before (own client during) after ∧
    Replays after (others client during ++ late) last ∧
    ∀ now, (∀ deed ∈ own client during, deed.now = now) →
      (before.runQueue now queue).1 = replies ∧ (before.runQueue now queue).2.Same after

/-- What a session does to run a queue can be moved to the front, if nobody comes across it. -/
theorem Interleaving.isolated {client : Nat} {queue : List Command} {replies : List Reply}
    {first last : Engine} {early during late : List Deed}
    (h : Interleaving client queue replies first early during late last)
    (hoff : KeepsOff client during) :
    Isolated client queue replies first early during late last := by
  have hreplays := h.replays
  rw [List.append_assoc] at hreplays
  rcases hreplays.split with ⟨before, hearly, hrest⟩
  rcases (hrest.gather hoff).split with ⟨after, hown, hothers⟩
  exact ⟨before, after, hearly, hown, hothers, fun now hnow => h.runs.runQueue hnow hown⟩

end KeyValue
