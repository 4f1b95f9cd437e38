import KeyValue.Proofs.Engine.Requests
import KeyValue.Proofs.Keyspace.Slicing
import KeyValue.Proofs.Text.Globbing
import KeyValue.Waiting

/-!
# Handlers that find their words by place

A command comes to its handler as a list of words. The handler names the words by their places and
takes slices of them, without asking whether they are there.

It need not ask: where a command is a request, its name accepts the number of its words, and then
each place that the handler names is one of them. Words beyond the accepted minimum are options, of
which there may be any number; the handler goes through them as far as they go. So a handler serves
the request, whatever the words say (`handler_eq`).

Numbers fit likewise. A deadline for a key stays at the last moment there is, and the end of a wait
is a moment that a clock with signed seconds can name. What counts things that are stored or were
received, such as acknowledgements, is a natural number and has no width.

## Main definitions

* `Request.words`: The words of a command, as its request has them.
* `Places.Context`: How a command came to its handler.
* `Places.Handler`: What is run for a command.
* `Places.handler?`: The handler of a command.
* `Places.serve`: What a request comes to.

## Theorems

* `Request.args_eq`: A command and its request have the same words.
* `afterNow_eq`, `deadlineAfter_eq`, `countReply_eq`: The numbers fit.
* `startsOf_eq`, `pairsFrom_eq`: Words are split where they can be.
* `handler_eq`: A handler finds the words of its command and serves the request.
-/

namespace KeyValue

/-- The words of the commands that are such a request; what a resync says is not looked at. -/
def Request.words : Request → List String
  | ping word | info word => word.toList
  | echo word | get word | increment word | type word | keys word => [word]
  | set key value options => key :: value :: options
  | config action parameters => action :: parameters
  | beginTransaction | runTransaction | dropTransaction | resync => []
  | replication option arguments => option :: arguments
  | waitForReplicas wanted timeout => [wanted, timeout]
  | addEntry key id fields => key :: id :: fields
  | range key start stop options => key :: start :: stop :: options
  | readStreams arguments => arguments

/-- A command and the request that it is have the same words. -/
theorem Request.args_eq {command : Command} {request : Request} (h : ofCommand command = .ok request)
    (hresync : request ≠ .resync) : command.args = request.words := by
  unfold ofCommand at h
  split at h <;> first
    | (rw [← Except.ok.inj h]; assumption)
    | exact absurd (Except.ok.inj h).symm hresync
    | simp only [reduceCtorEq] at h

namespace Places

/-- How a command came to its handler. -/
inductive Context where
  /-- A session sent it; `index` is its place in the history. -/
  | sent (index : Option Nat)
  /-- It was taken from the queue of a transaction, or the master sent it. -/
  | taken
  deriving DecidableEq, Repr

/-- What is run for a command. -/
abbrev Handler := Engine → UInt64 → List String → Context → Checked (Progress × Engine)

/-- What a request that is answered at once comes to. -/
def answered (outcome : Except Error Reply × Engine) : Progress × Engine :=
  (.answered outcome.1, outcome.2)

/-- What a request comes to. Only one that a session sent may wait. -/
def serve (engine : Engine) (now : UInt64) (context : Context) (request : Request) :
    Progress × Engine :=
  match request, context with
  | .readStreams arguments, .sent _ => engine.startRead now arguments
  | .waitForReplicas wanted timeout, .sent index => engine.startWait now index wanted timeout
  | request, _ => answered (engine.run now request)

/-- The deadline `amount` units of `unitMs` milliseconds after `now`. -/
def afterNow (now amount : UInt64) (unitMs : Nat) : Checked Deadline := do
  let span ← Checked.unsigned (min Decimal.maxUInt64 (amount.toNat * unitMs))
  let ms ← Checked.unsigned (min Decimal.maxUInt64 (now.toNat + span.toNat))
  return ⟨ms⟩

/-- The deadline that options ask for, or `deadline` if they ask for none. -/
def deadlineOf (now : UInt64) (deadline : Deadline) :
    List String → Checked (Except Error Deadline)
  | [] => .ok (.ok deadline)
  | option :: rest =>
    match KeyCommand.expiryUnit? option with
    | none => .ok (.error (.malformed s!"unsupported SET option '{option}'"))
    | some unitMs =>
      match rest with
      | [] => .ok (.error (.malformed s!"{option} requires a value"))
      | amount :: rest =>
        match Decimal.uint64? amount with
        | none => .ok (.error .notInteger)
        | some amount =>
          if amount = 0 then .ok (.error (.malformed "invalid expire time in 'set' command"))
          else do
            let deadline ← afterNow now amount unitMs
            deadlineOf now deadline rest

/-- The keys that match a pattern. -/
def matching (pattern : String) : List String → Checked (List String)
  | [] => .ok []
  | key :: rest => do
    let isFound ← Glob.Places.isMatch pattern key
    let found ← matching pattern rest
    return if isFound then key :: found else found

/-- Fields with their values: so many pairs of words from a place on. -/
def pairsFrom (words : List String) : Nat → Nat → Checked (List (String × String))
  | _, 0 => .ok []
  | start, count + 1 => do
    let pair ← Checked.slice words start (start + 2)
    let field ← Checked.item pair 0
    let value ← Checked.item pair 1
    let pairs ← pairsFrom words (start + 2) count
    return (field, value) :: pairs

/-- The keys and then the ids of a read, as many of them. -/
def startsOf (words : List String) : Checked (Except Error (List (String × String))) :=
  if words.isEmpty || words.length % 2 != 0 then
    .ok (.error (.malformed ("unbalanced XREAD list of streams: " ++
      "for each stream key an ID must be specified")))
  else do
    let keys ← Checked.front words (words.length / 2)
    let ids ← Checked.behind words (words.length / 2)
    return .ok (keys.zip ids)

/-- The read that the words ask for, beyond what `read` has of it. -/
def readOf (read : StreamRead) : List String → Checked (Except Error StreamRead)
  | [] => .ok (.error StreamRead.expectedStreams)
  | option :: rest =>
    if Text.sameWord option "STREAMS" then do
      let starts ← startsOf rest
      return starts.map fun starts => { read with starts }
    else
      match rest with
      | [] => .ok (.error StreamRead.expectedStreams)
      | value :: rest =>
        if Text.sameWord option "COUNT" then
          match Decimal.count? value with
          | none => .ok (.error .notInteger)
          | some count => readOf { read with count } rest
        else if Text.sameWord option "BLOCK" then
          match Decimal.uint64? value with
          | none => .ok (.error .notInteger)
          | some block => readOf { read with block } rest
        else .ok (.error StreamRead.expectedStreams)

/-- Read and resolve the words of a read. -/
def openRead (engine : Engine) (now : UInt64) (words : List String) :
    Checked (Except Error (StreamRead × List Cursor) × Engine) := do
  match ← readOf {} words with
  | .error e => return (.error e, engine)
  | .ok read =>
    let (cursors, engine) :=
      engine.withKeyspace (Cursor.resolveAll engine.keyspace now read.starts)
    return (cursors.map (read, ·), engine)

/-- The end of a wait of `ms` milliseconds, which a clock counts in signed seconds; zero is
    forever. -/
def deadlineAfter (now ms : UInt64) : Checked (Option Nat) :=
  if ms = 0 then .ok none
  else do
    let _ ← Checked.signed ((now.toNat + ms.toNat) / 1000 : Nat)
    return some (now.toNat + ms.toNat)

/-- A number of replicas as a reply. -/
def countReply (count : Nat) : Checked Reply := do
  let count ← Checked.signed (min count Decimal.maxInt64 : Nat)
  return .integer count

/-- The replies for the streams that have entries above their cursors. -/
def readCursors (keyspace : Keyspace) (now : UInt64) (count : Option Nat) :
    List Cursor → Checked (Except Error (List Reply) × Keyspace)
  | [] => .ok (.ok [], keyspace)
  | cursor :: rest => do
    match ← readStream keyspace now cursor.key (after · cursor.above count) with
    | (.error e, keyspace) => return (.error e, keyspace)
    | (.ok entries, keyspace) =>
      let (result, keyspace) ← readCursors keyspace now count rest
      return (result.map fun replies =>
        if entries.isEmpty then replies
        else Cursor.streamReply cursor.key entries :: replies, keyspace)

/-- Look at the streams of a read. -/
def readAll (engine : Engine) (now : UInt64) (count : Option Nat) (cursors : List Cursor) :
    Checked (Except Error (List Reply) × Engine) := do
  let outcome ← readCursors engine.keyspace now count cursors
  return engine.withKeyspace outcome

/-- A registered reader looks at its streams. -/
def look (engine : Engine) (now : UInt64) (reader : Nat) (cursors : List Cursor)
    (count : Option Nat) : Checked (Option (Except Error Reply) × Engine) := do
  match ← readAll engine now count cursors with
  | (.error e, engine) => return (some (.error e), engine.forget reader)
  | (.ok [], engine) => return (none, engine)
  | (.ok replies, engine) => return (some (.ok (Cursor.readReply replies)), engine.forget reader)

namespace Handler

/-- The handler of a command whose only word is a key, a pattern or a message. -/
def ofWord (serve : Engine → UInt64 → String → Checked (Except Error Reply × Engine)) : Handler :=
  fun engine now args _ => do
    let word ← Checked.item args 0
    return answered (← serve engine now word)

/-- The handler of a command that may have a word. -/
def ofWord? (serve : Engine → Option String → Except Error Reply) : Handler :=
  fun engine _ args _ => .ok (answered (serve engine args[0]?, engine))

def ping : Handler := ofWord? fun _ message =>
  .ok (match message with
    | some message => .bulkText message
    | none => .simple "PONG")

def echo : Handler := ofWord fun engine _ message => .ok (.ok (.bulkText message), engine)

def set : Handler := fun engine now args _ => do
  let key ← Checked.item args 0
  let value ← Checked.item args 1
  let options ← Checked.behind args 2
  match ← deadlineOf now .never options with
  | .error e => return answered (.error e, engine)
  | .ok deadline =>
    return answered (engine.withKeyspace
      (.ok .ok, engine.keyspace.set key (.ofText value) deadline))

def get : Handler := ofWord fun engine now key =>
  .ok (engine.withKeyspace (KeyCommand.get engine.keyspace engine.file now key))

def incr : Handler := ofWord fun engine now key => do
  let (result, keyspace) ← increment engine.keyspace now key
  return engine.withKeyspace (result.map .integer, keyspace)

def type : Handler := ofWord fun engine now key =>
  .ok (engine.withKeyspace (KeyCommand.type engine.keyspace engine.file now key))

def keys : Handler := ofWord fun engine now pattern => do
  let (stored, keyspace) := engine.keyspace.keys now
  match engine.file.keys now with
  | .error e => return engine.withKeyspace (.error e, keyspace)
  | .ok inFile =>
    let found ← matching pattern (KeyCommand.ascending (stored ++ inFile))
    return engine.withKeyspace (.ok (.bulkTexts found), keyspace)

def info : Handler := ofWord? fun engine topic => .ok (Report.info engine.role topic)

def config : Handler := fun engine _ args _ => do
  let action ← Checked.item args 0
  let parameters ← Checked.behind args 1
  return answered (Report.config engine.config action parameters, engine)

def wait : Handler := fun engine now args context => do
  let wanted ← Checked.item args 0
  let timeout ← Checked.item args 1
  match Engine.waitNumbers wanted timeout with
  | .error e => return answered (.error e, engine)
  | .ok (wanted, timeout) =>
    match engine.role, context with
    | .master master, .sent (some index) =>
      match master.waitTarget index wanted with
      | .inl count => return answered (.ok (← countReply count), engine)
      | .inr wait =>
        return (.waits ⟨.acks wait, ← deadlineAfter now timeout⟩,
          (engine.updateMaster (·.install wait)).propagate Master.ackRequest)
    | _, _ => return answered (.ok (.integer 0), engine)

def xadd : Handler := fun engine now args _ => do
  let key ← Checked.item args 0
  let id ← Checked.item args 1
  match IdRequest.ofText id with
  | .error e => return answered (.error e, engine)
  | .ok request =>
    let words ← Checked.behind args 2
    if words.length % 2 ≠ 0 then return answered (.error (.wrongArity "xadd"), engine)
    else
      let fields ← pairsFrom words 0 (words.length / 2)
      match ← addEntry engine.keyspace now key request fields with
      | (.error e, keyspace) => return answered (.error e, { engine with keyspace })
      | (.ok id, keyspace) =>
        return answered (.ok (.bulkText id.text), { engine with keyspace }.notify key)

def xrange : Handler := fun engine now args _ => do
  let key ← Checked.item args 0
  let start ← Checked.item args 1
  let stop ← Checked.item args 2
  let options ← Checked.behind args 3
  let bounds : Except Error (StreamId × StreamId × Option Nat) := do
    return (← StreamId.rangeStart start, ← StreamId.rangeEnd stop,
      ← StreamCommand.rangeLimit options)
  match bounds with
  | .error e => return answered (.error e, engine)
  | .ok (start, stop, count) =>
    let (result, keyspace) ←
      readStream engine.keyspace now key fun stream => range stream start stop count
    return answered
      (engine.withKeyspace (result.map StreamCommand.entriesReply, keyspace))

def xread : Handler := fun engine now args context => do
  match ← openRead engine now args with
  | (.error e, engine) => return answered (.error e, engine)
  | (.ok (read, cursors), engine) =>
    match context, read.block with
    | .sent _, some ms =>
      let deadline ← deadlineAfter now ms
      let (reader, readers) := engine.readers.register read.keys
      match ← look { engine with readers } now reader cursors read.count with
      | (some result, engine) => return answered (result, engine)
      | (none, engine) => return (.waits ⟨.entries reader cursors read.count, deadline⟩, engine)
    | _, _ =>
      let (result, engine) ← readAll engine now read.count cursors
      return answered (result.map Cursor.readReply, engine)

end Handler

/-- The handler of a command; a command that acts on the session that sends it has none. -/
def handler? : CommandName → Option Handler
  | .ping => some Handler.ping
  | .echo => some Handler.echo
  | .set => some Handler.set
  | .get => some Handler.get
  | .incr => some Handler.incr
  | .type => some Handler.type
  | .keys => some Handler.keys
  | .info => some Handler.info
  | .config => some Handler.config
  | .wait => some Handler.wait
  | .xadd => some Handler.xadd
  | .xrange => some Handler.xrange
  | .xread => some Handler.xread
  | .multi | .exec | .discard | .replconf | .psync => none

/-- The deadline of a key stays at the last moment there is. -/
theorem afterNow_eq (now amount : UInt64) (unitMs : Nat) :
    afterNow now amount unitMs = .ok (.afterNow now amount unitMs) := by
  have hmax : Decimal.maxUInt64 < UInt64.size := by decide
  have hspan : (UInt64.ofNat (min Decimal.maxUInt64 (amount.toNat * unitMs))).toNat =
      min Decimal.maxUInt64 (amount.toNat * unitMs) :=
    UInt64.toNat_ofNat_of_lt' (Nat.lt_of_le_of_lt (Nat.min_le_left _ _) hmax)
  rw [afterNow, Checked.unsigned_eq_ok (Nat.min_le_left _ _), Checked.ok_bind,
    Checked.unsigned_eq_ok (Nat.min_le_left _ _), Checked.ok_bind, hspan]
  rfl

/-- Each option is looked at with the word behind it, if there is one. -/
theorem deadlineOf_eq (now : UInt64) (deadline : Deadline) (options : List String) :
    deadlineOf now deadline options = .ok (KeyCommand.deadlineOf now deadline options) := by
  fun_induction KeyCommand.deadlineOf now deadline options with
  | case1 deadline => rfl
  | case2 deadline option rest hunit => rw [deadlineOf, hunit]
  | case3 deadline option unitMs hunit => rw [deadlineOf, hunit]
  | case4 deadline option unitMs hunit amount rest hamount => simp only [deadlineOf, hunit, hamount]
  | case5 deadline option unitMs hunit amount rest hamount =>
      simp only [deadlineOf, hunit, hamount, if_true]
  | case6 deadline option unitMs hunit amount rest amount' hamount hzero ih =>
      simp only [deadlineOf, hunit, hamount, if_neg hzero, afterNow_eq, Checked.ok_bind, ih]

/-- A pattern is compared with each key by place. -/
theorem matching_eq (pattern : String) (keys : List String) :
    matching pattern keys = .ok (keys.filter (Glob.isMatch pattern)) := by
  induction keys with
  | nil => rfl
  | cons key rest ih =>
      rw [matching, Glob.Places.isMatch_eq, Checked.ok_bind, ih, Checked.ok_bind,
        List.filter_cons, Checked.pure_eq_ok]

/-- Words of which there are two for each pair are taken in pairs. -/
theorem pairsFrom_eq {words : List String} {start count : Nat}
    (h : start + 2 * count = words.length) :
    ∃ pairs, StreamCommand.pairs? (words.drop start) = some pairs ∧
      pairsFrom words start count = .ok pairs := by
  induction count generalizing start with
  | zero =>
      have hend : words.drop start = [] := List.drop_eq_nil_of_le (by omega)
      rw [hend]
      exact ⟨[], rfl, rfl⟩
  | succ count ih =>
      have hlater : start + 2 + 2 * count = words.length := by omega
      rcases ih hlater with ⟨pairs, hpairs, hfrom⟩
      rcases hdrop : words.drop start with _ | ⟨field, _ | ⟨value, rest⟩⟩
      · have := congrArg List.length hdrop
        rw [List.length_drop, List.length_nil] at this
        omega
      · have := congrArg List.length hdrop
        rw [List.length_drop, List.length_singleton] at this
        omega
      have hrest : words.drop (start + 2) = rest := by
        rw [← List.drop_drop, hdrop]
        rfl
      rw [hrest] at hpairs
      have hslice : Checked.slice words start (start + 2) = .ok [field, value] := by
        rw [Checked.slice_eq_ok (by omega) (by omega), hdrop, Nat.add_sub_cancel_left]
        rfl
      refine ⟨(field, value) :: pairs, ?_, ?_⟩
      · rw [StreamCommand.pairs?, hpairs, Option.map_some]
      · rw [pairsFrom, hslice, Checked.ok_bind, Checked.item_eq_ok rfl, Checked.ok_bind,
          Checked.item_eq_ok rfl, Checked.ok_bind, hfrom, Checked.ok_bind, Checked.pure_eq_ok]

-- An odd number of words leaves a field without a value.
theorem pairs?_eq_none {words : List String} (h : words.length % 2 ≠ 0) :
    StreamCommand.pairs? words = none := by
  fun_induction StreamCommand.pairs? words with
  | case1 => exact absurd rfl h
  | case2 => rfl
  | case3 field value rest ih =>
      rw [ih (by simpa only [List.length_cons, Nat.add_assoc, Nat.add_mod_right] using h)]
      rfl

/-- The words of a read are cut in the middle, if they are as many ids as keys. -/
theorem startsOf_eq (words : List String) :
    startsOf words = .ok (StreamRead.startsOf words) := by
  unfold startsOf StreamRead.startsOf
  split
  · rfl
  · rw [Checked.front_eq_ok (Nat.div_le_self _ _), Checked.ok_bind,
      Checked.behind_eq_ok (Nat.div_le_self _ _)]
    rfl

/-- The options of a read are gone through by place up to its streams. -/
theorem readOf_eq (read : StreamRead) (words : List String) :
    readOf read words = .ok (StreamRead.ofArguments read words) := by
  fun_induction StreamRead.ofArguments read words with
  | case1 => rfl
  | case2 read option rest hstreams =>
      unfold readOf
      simp only [if_pos hstreams, startsOf_eq]
      rfl
  | case3 read option hstreams => simp only [readOf, if_neg hstreams]
  | case4 read option hstreams value rest hcount hnumber =>
      simp only [readOf, if_neg hstreams, if_pos hcount, hnumber]
  | case5 read option hstreams value rest hcount count hnumber ih =>
      simp only [readOf, if_neg hstreams, if_pos hcount, hnumber, ih]
  | case6 read option hstreams value rest hcount hblock hnumber =>
      simp only [readOf, if_neg hstreams, if_neg hcount, if_pos hblock, hnumber]
  | case7 read option hstreams value rest hcount hblock block hnumber ih =>
      simp only [readOf, if_neg hstreams, if_neg hcount, if_pos hblock, hnumber, ih]
  | case8 read option hstreams value rest hcount hblock =>
      simp only [readOf, if_neg hstreams, if_neg hcount, if_neg hblock]

/-- A read is opened by place: its words are read, and each of its starts is looked up. -/
theorem openRead_eq (engine : Engine) (now : UInt64) (words : List String) :
    openRead engine now words = .ok (engine.openRead now words) := by
  unfold openRead Engine.openRead
  rw [readOf_eq, Checked.ok_bind]
  cases StreamRead.ofArguments {} words <;> rfl

/-- The end of a wait is a moment that a clock can name. -/
theorem deadlineAfter_eq (now ms : UInt64) :
    deadlineAfter now ms = .ok (Engine.deadlineAfter now ms) := by
  unfold deadlineAfter Engine.deadlineAfter
  by_cases hforever : ms = 0
  · rw [if_pos hforever, if_pos hforever]
  · have hmin : Int64.minValue.toInt = -2 ^ 63 := rfl
    have hmax : Int64.maxValue.toInt = 2 ^ 63 - 1 := rfl
    have hnow := now.toNat_lt
    have hms := ms.toNat_lt
    rw [if_neg hforever, if_neg hforever, Checked.signed_eq_ok (by omega) (by omega)]
    rfl

/-- A count that does not fit is cut down to one that does. -/
theorem countReply_eq (count : Nat) : countReply count = .ok (Engine.countReply count) := by
  have hmin : Int64.minValue.toInt = -2 ^ 63 := rfl
  have hmax : Int64.maxValue.toInt = Decimal.maxInt64 := rfl
  have hle := Nat.min_le_right count Decimal.maxInt64
  rw [countReply, Checked.signed_eq_ok (by omega) (by omega)]
  rfl

/-- The streams of a read are looked at one after the other, up to one that fails. -/
theorem readCursors_eq (now : UInt64) (count : Option Nat) (cursors : List Cursor) :
    ∀ keyspace, readCursors keyspace now count cursors =
      .ok (Cursor.readAll keyspace now count cursors) := by
  induction cursors with
  | nil => exact fun _ => rfl
  | cons cursor rest ih =>
      intro keyspace
      rw [readCursors, readStream_eq fun stream => after_eq stream cursor.above count,
        Checked.ok_bind, Cursor.readAll, Cursor.read, Keyspace.after]
      rcases keyspace.readStream now cursor.key (·.after cursor.above count) with
        ⟨e | entries, after⟩
      · rfl
      · simp only [ih, Checked.ok_bind, Checked.pure_eq_ok]

theorem readAll_eq (engine : Engine) (now : UInt64) (count : Option Nat) (cursors : List Cursor) :
    readAll engine now count cursors = .ok (engine.readAll now count cursors) := by
  rw [readAll, readCursors_eq]
  rfl

/-- A reader looks at its streams by place, and leaves the registry as it is told by what it
    finds. -/
theorem look_eq (engine : Engine) (now : UInt64) (reader : Nat) (cursors : List Cursor)
    (count : Option Nat) :
    look engine now reader cursors count = .ok (engine.look now reader cursors count) := by
  unfold look Engine.look
  rw [readAll_eq, Checked.ok_bind]
  rcases engine.readAll now count cursors with ⟨e | _ | ⟨reply, replies⟩, after⟩ <;> rfl

namespace Handler

variable (engine : Engine) (now : UInt64) (context : Context)

/-- A handler that serves one word names the only one there is. -/
theorem ofWord_eq {serve : Engine → UInt64 → String → Checked (Except Error Reply × Engine)}
    {word : String} {outcome : Except Error Reply × Engine}
    (h : serve engine now word = .ok outcome) :
    ofWord serve engine now [word] context = .ok (answered outcome) := by
  rw [ofWord, Checked.item_eq_ok rfl, Checked.ok_bind, h]
  rfl

/-- The key and the value are there, and the options follow. -/
theorem set_eq (key value : String) (options : List String) :
    set engine now (key :: value :: options) context =
      .ok (answered (engine.run now (.set key value options))) := by
  rw [set, Checked.item_eq_ok rfl, Checked.ok_bind, Checked.item_eq_ok rfl, Checked.ok_bind,
    Checked.behind_eq_ok (by simp), Checked.ok_bind, deadlineOf_eq, Checked.ok_bind]
  simp only [Engine.run, KeyCommand.set, List.drop_succ_cons, List.drop_zero]
  cases KeyCommand.deadlineOf now .never options <;> rfl

theorem incr_eq (key : String) :
    incr engine now [key] context = .ok (answered (engine.run now (.increment key))) := by
  refine ofWord_eq engine now context ?_
  rw [increment_eq]
  rfl

/-- A list of keys names its pattern. -/
theorem keys_eq (pattern : String) :
    keys engine now [pattern] context = .ok (answered (engine.run now (.keys pattern))) := by
  refine ofWord_eq engine now context ?_
  simp only [Engine.run, KeyCommand.keys, matching_eq, Checked.ok_bind]
  cases engine.file.keys now <;> rfl

/-- The subcommand is there, and the parameters follow. -/
theorem config_eq (action : String) (parameters : List String) :
    config engine now (action :: parameters) context =
      .ok (answered (engine.run now (.config action parameters))) := by
  rw [config, Checked.item_eq_ok rfl, Checked.ok_bind, Checked.behind_eq_ok (by simp)]
  rfl

/-- Only the command of a session waits for replicas. -/
theorem wait_eq (wanted timeout : String) :
    wait engine now [wanted, timeout] context =
      .ok (serve engine now context (.waitForReplicas wanted timeout)) := by
  rw [wait, Checked.item_eq_ok rfl, Checked.ok_bind, Checked.item_eq_ok rfl, Checked.ok_bind]
  cases context with
  | taken =>
      simp only [serve, answered, Engine.run]
      rcases Engine.waitNumbers wanted timeout with e | ⟨wanted, timeout⟩
      · rfl
      · cases engine.role <;> rfl
  | sent index =>
      simp only [serve, Engine.startWait]
      rcases Engine.waitNumbers wanted timeout with e | ⟨wanted, timeout⟩
      · rfl
      rcases index with _ | index
      · cases engine.role <;> rfl
      rcases engine.role with master | replica
      · simp only
        rcases master.waitTarget index wanted with count | wait
        · simp only [countReply_eq, Checked.ok_bind]
          rfl
        · simp only [deadlineAfter_eq, Checked.ok_bind]
          rfl
      · rfl

/-- An entry has a key and an id, and its fields follow. -/
theorem xadd_eq (key id : String) (words : List String) :
    xadd engine now (key :: id :: words) context =
      .ok (answered (engine.run now (.addEntry key id words))) := by
  rw [xadd, Checked.item_eq_ok rfl, Checked.ok_bind, Checked.item_eq_ok rfl, Checked.ok_bind,
    Checked.behind_eq_ok (by simp)]
  simp only [Checked.ok_bind, List.drop_succ_cons, List.drop_zero, Engine.run, Engine.addEntry,
    StreamCommand.addEntry]
  cases IdRequest.ofText id with
  | error e => rfl
  | ok request =>
      by_cases hodd : words.length % 2 ≠ 0
      · simp only [if_pos hodd, pairs?_eq_none hodd]
        rfl
      · have heven : 0 + 2 * (words.length / 2) = words.length := by omega
        rcases pairsFrom_eq heven with ⟨pairs, hpairs, hfrom⟩
        rw [List.drop_zero] at hpairs
        simp only [if_neg hodd, hpairs, hfrom, Checked.ok_bind, addEntry_eq]
        rcases engine.keyspace.addEntry now key request pairs with ⟨e | id, keyspace⟩ <;> rfl

/-- A range has a key and two bounds, and its options follow. -/
theorem xrange_eq (key start stop : String) (options : List String) :
    xrange engine now (key :: start :: stop :: options) context =
      .ok (answered (engine.run now (.range key start stop options))) := by
  rw [xrange, Checked.item_eq_ok rfl, Checked.ok_bind, Checked.item_eq_ok rfl, Checked.ok_bind,
    Checked.item_eq_ok rfl, Checked.ok_bind, Checked.behind_eq_ok (by simp)]
  simp only [Checked.ok_bind, List.drop_succ_cons, List.drop_zero, Engine.run,
    StreamCommand.range]
  generalize (do
    return (← StreamId.rangeStart start, ← StreamId.rangeEnd stop,
      ← StreamCommand.rangeLimit options) :
        Except Error (StreamId × StreamId × Option Nat)) = bounds
  rcases bounds with e | ⟨start, stop, count⟩
  · rfl
  · simp only [readStream_eq fun stream => range_eq stream start stop count, Checked.ok_bind]
    rfl

/-- Only the command of a session waits for entries. -/
theorem xread_eq (arguments : List String) :
    xread engine now arguments context =
      .ok (serve engine now context (.readStreams arguments)) := by
  rw [xread, openRead_eq, Checked.ok_bind]
  rcases hopened : engine.openRead now arguments with ⟨e | ⟨read, cursors⟩, opened⟩
  · cases context <;> simp only [serve, Engine.startRead, Engine.run, hopened] <;> rfl
  cases context with
  | taken =>
      simp only [serve, Engine.run, hopened, readAll_eq, Checked.ok_bind]
      rfl
  | sent index =>
      simp only [serve, Engine.startRead, hopened]
      cases read.block with
      | none =>
          simp only [readAll_eq, Checked.ok_bind]
          rfl
      | some ms =>
          simp only [deadlineAfter_eq, look_eq, Checked.ok_bind]
          rcases Engine.look _ now _ cursors read.count with ⟨_ | result, looked⟩ <;> rfl

end Handler

open Handler in
/-- A handler finds the words of its command and serves the request that they are. -/
theorem handler_eq {command : Command} {request : Request} {handler : Handler}
    (h : Request.ofCommand command = .ok request) (hhandler : handler? command.name = some handler)
    (engine : Engine) (now : UInt64) (context : Context) :
    handler engine now command.args context = .ok (serve engine now context request) := by
  rw [Request.name_eq h] at hhandler
  have hresync : request ≠ .resync := by
    rintro rfl
    exact nomatch hhandler
  rw [Request.args_eq h hresync]
  cases request with
  | waitForReplicas wanted timeout =>
      cases hhandler
      exact wait_eq engine now context wanted timeout
  | readStreams arguments =>
      cases hhandler
      exact xread_eq engine now context arguments
  | set key value options =>
      cases hhandler
      exact set_eq engine now context key value options
  | increment key =>
      cases hhandler
      exact incr_eq engine now context key
  | keys pattern =>
      cases hhandler
      exact keys_eq engine now context pattern
  | config action parameters =>
      cases hhandler
      exact config_eq engine now context action parameters
  | addEntry key id fields =>
      cases hhandler
      exact xadd_eq engine now context key id fields
  | range key start stop options =>
      cases hhandler
      exact xrange_eq engine now context key start stop options
  | ping message | info message =>
      cases hhandler
      cases message <;> rfl
  | echo word | get word | type word =>
      cases hhandler
      exact ofWord_eq engine now context rfl
  | _ => exact nomatch hhandler

end Places

end KeyValue
