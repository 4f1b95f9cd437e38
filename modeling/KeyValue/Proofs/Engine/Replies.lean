import KeyValue.Engine
import KeyValue.Proofs.Snapshot.Refusals
import KeyValue.Proofs.Wire.Codec

/-!
# Replies that end where they should

Every reply to a request ends on the wire where it should (`Reply.Ends`), unless it quotes a text of
the request that has a line feed.

Contents go into byte strings, which may hold anything. Lines carry fixed words, numbers, and the
texts that a few errors quote: an option of a write, a subcommand, an option of a replica
(`Request.quoted`). If those are of one line, then so is every error, and the reply is read back.

## Main definitions

* `Reply.Ends`: No line of a reply holds a line feed.
* `Request.quoted`: The texts of a request that an error can quote.
* `Command.Plain`: A command whose quoted texts are of one line.

## Theorems

* `Keyspace.increment_lines`, `Keyspace.addEntry_lines`, `Keyspace.readStream_lines`: What the
  keyspace refuses, it refuses in one line.
* `Engine.run_ends`: Requests that do not wait.
* `Engine.runQueue_ends`: The queue of a transaction.
-/

namespace KeyValue

open Text

namespace StreamId

/-- A half of an id that is no number is refused with fixed words. -/
theorem part_lines (text : String) : LineFailures (part text) := by
  unfold part
  split
  · exact .ok _
  · exact .error (by decide)

theorem ofParts_lines (ms seq : String) : LineFailures (ofParts ms seq) :=
  .bind (part_lines ms) fun _ => .bind (part_lines seq) fun _ => .ok _

/-- The default sequence stands in for the second half, so only the first one can be refused
    then. -/
theorem ofTextWith_lines (seq : UInt64) (text : String) : LineFailures (ofTextWith seq text) := by
  unfold ofTextWith
  split
  · exact .bind (part_lines text) fun _ => .ok _
  · exact ofParts_lines _ _

/-- The sign for the least id is taken as it is, and anything else is read as an id. -/
theorem rangeStart_lines (text : String) : LineFailures (rangeStart text) := by
  unfold rangeStart
  split
  · exact .ok _
  · exact ofTextWith_lines 0 text

theorem rangeEnd_lines (text : String) : LineFailures (rangeEnd text) := by
  unfold rangeEnd
  split
  · exact .ok _
  · exact ofTextWith_lines maxPart text

end StreamId

/-- What is refused as the id of a new entry is refused with fixed words; none of its text is
    quoted. -/
theorem IdRequest.ofText_lines (text : String) : LineFailures (IdRequest.ofText text) := by
  unfold IdRequest.ofText
  split
  · exact .ok _
  · split
    · exact .bind (StreamId.part_lines text) fun _ => .ok _
    · exact .bind (StreamId.part_lines _) fun _ => .ok _
    · exact .bind (StreamId.ofParts_lines _ _) fun _ => .ok _

namespace Stream

/-- An id that is not above the last one, or is the least of all, is refused with fixed words. -/
theorem checkAbove_lines (last : Option StreamId) (id : StreamId) :
    LineFailures (checkAbove last id) := by
  unfold checkAbove
  split
  · exact .ok _
  · split
    · exact .error (by decide)
    · exact .ok _

/-- That the sequences of some milliseconds are used up is said in fixed words. -/
theorem nextIn_lines (last : Option StreamId) (ms : UInt64) : LineFailures (nextIn last ms) := by
  unfold nextIn
  split
  · exact .ok _
  · split
    · split
      · exact .error (by decide)
      · exact .ok _
    · split
      · exact .error (by decide)
      · exact .ok _

/-- Whichever way an id is chosen, it is found or refused in one line. -/
theorem nextId_lines (stream : Stream) (request : IdRequest) (now : UInt64) :
    LineFailures (stream.nextId request now) := by
  cases request with
  | explicit id =>
      simp only [nextId]
      split
      · exact .error (by decide)
      · exact .map (checkAbove_lines _ _) _
  | autoSequence ms => exact nextIn_lines _ ms
  | auto =>
      simp only [nextId]
      split <;> exact nextIn_lines _ _

end Stream

namespace Keyspace

variable (keyspace : Keyspace) (now : UInt64) (key : String)

/-- The ways in which an increment can fail all have fixed words. -/
theorem increment_lines : LineFailures (keyspace.increment now key).1 := by
  simp only [increment]
  split
  · exact .error (by decide)
  · split
    · split
      · exact .error (by decide)
      · exact .ok _
    · exact .error (by decide)
    · exact .error (by decide)

/-- An entry is refused for the type of the key or for its id, and in both cases without a
    quotation. -/
theorem addEntry_lines (request : IdRequest) (fields : List (String × String)) :
    LineFailures (keyspace.addEntry now key request fields).1 := by
  simp only [addEntry]
  split
  · rename_i stream _
    have hnext := stream.nextId_lines request now
    cases hid : stream.nextId request now with
    | error e => exact .error (hnext e hid)
    | ok id =>
        have happend : LineFailures (stream.append id fields) :=
          .map (Stream.checkAbove_lines _ _) _
        simp only
        split
        · rename_i e hadded
          exact .error (happend e hadded)
        · exact .ok _
  · exact .error (by decide)

/-- Reading a stream can only fail for the type of the key. -/
theorem readStream_lines {α : Type} (read : Stream → α) :
    LineFailures (keyspace.readStream now key read).1 := by
  simp only [readStream]
  split
  · exact .ok _
  · exact .ok _
  · exact .error (by decide)

end Keyspace

namespace Reply

/-- A reply ends where it should, and so do all replies inside it. -/
def Ends (reply : Reply) : Prop := reply.All Lined

/-- An error becomes a line, so it ends where it should if it is of one line. -/
theorem ofError_ends {e : Error} (h : e.OneLine) : (ofError e).Ends := by
  have hcode : OneLine e.code := by
    unfold Error.code
    split <;> decide
  exact oneLine_append.mpr ⟨oneLine_append.mpr ⟨hcode, by decide⟩, h⟩

/-- The header of an array holds a number only, so an array ends where it should if its items do. -/
theorem array_ends {items : List Reply} (h : ∀ item ∈ items, item.Ends) : (array items).Ends :=
  ⟨trivial, (allIn_iff items).mpr h⟩

theorem bulkTexts_ends (texts : List String) : (bulkTexts texts).Ends := by
  refine array_ends fun item hmem => ?_
  rcases List.mem_map.mp hmem with ⟨text, _, rfl⟩
  exact trivial

/-- The outcome of a request is an error of one line or a reply that ends where it should. -/
theorem ofExcept_ends {result : Except Error Reply} (h : LineFailures result)
    (h' : ∀ reply, result = .ok reply → reply.Ends) : (ofExcept result).Ends := by
  cases result with
  | error e => exact ofError_ends (h e rfl)
  | ok reply => exact h' reply rfl

/-- An outcome that is turned into a reply ends where it should if all possible replies do. -/
theorem ofExcept_map_ends {α : Type} {result : Except Error α} (h : LineFailures result)
    {f : α → Reply} (h' : ∀ value, (f value).Ends) : (ofExcept (result.map f)).Ends := by
  cases result with
  | error e => exact ofError_ends (h e rfl)
  | ok value => exact h' value

end Reply

namespace StreamCommand

/-- Ids and fields are sent as byte strings, which may hold anything. -/
theorem entriesReply_ends (entries : List StreamEntry) : (entriesReply entries).Ends := by
  refine Reply.array_ends fun item hmem => ?_
  rcases List.mem_map.mp hmem with ⟨entry, _, rfl⟩
  refine Reply.array_ends fun part hpart => ?_
  rcases List.mem_cons.mp hpart with rfl | hfields
  · exact trivial
  · rw [List.mem_singleton.mp hfields]
    exact Reply.bulkTexts_ends _

/-- Before the keyspace is asked, the id and the number of words can be refused. -/
theorem addEntry_lines (keyspace : Keyspace) (now : UInt64) (key id : String)
    (fields : List String) : LineFailures (addEntry keyspace now key id fields).1 := by
  have hid := IdRequest.ofText_lines id
  unfold addEntry
  split
  · exact .error (hid _ (by assumption))
  · split
    · exact .error (by decide)
    · exact keyspace.addEntry_lines now key _ _

theorem countOf_lines (text : String) : LineFailures (countOf text) := by
  unfold countOf
  split
  · exact .ok _
  · exact .error (by decide)

/-- The limit of a range is refused as a number or as an option, in fixed words. -/
theorem rangeLimit_lines (options : List String) : LineFailures (rangeLimit options) := by
  unfold rangeLimit
  split
  · exact .ok _
  · split
    · exact .map (countOf_lines _) _
    · exact .error (by decide)
  · exact .error (by decide)

/-- A range is refused for a bound, its limit or the type of the key, and else shows its entries. -/
theorem range_ends (keyspace : Keyspace) (now : UInt64) (key start stop : String)
    (options : List String) :
    (Reply.ofExcept (range keyspace now key start stop options).1).Ends := by
  simp only [range]
  split
  · rename_i e hbounds
    refine Reply.ofError_ends ?_
    -- The bounds and the limit are read one after the other.
    refine (LineFailures.bind (StreamId.rangeStart_lines start) fun first => ?_) e hbounds
    refine .bind (StreamId.rangeEnd_lines stop) fun last => ?_
    exact .bind (rangeLimit_lines options) fun _ => .ok _
  · exact Reply.ofExcept_map_ends (keyspace.readStream_lines now key _) entriesReply_ends

end StreamCommand

/-- The options of a read are refused in fixed words, in whatever order they come. -/
theorem StreamRead.ofArguments_lines (read : StreamRead) (arguments : List String) :
    LineFailures (StreamRead.ofArguments read arguments) := by
  fun_induction StreamRead.ofArguments read arguments with
  | case1 => exact .error (by decide)
  | case2 read option rest _ =>
      refine .map ?_ _
      unfold StreamRead.startsOf
      split
      · exact .error (by decide)
      · exact .ok _
  | case3 => exact .error (by decide)
  | case4 => exact .error (by decide)
  | case5 _ _ _ _ _ _ _ _ ih => exact ih
  | case6 => exact .error (by decide)
  | case7 _ _ _ _ _ _ _ _ _ ih => exact ih
  | case8 => exact .error (by decide)

namespace Cursor

variable (now : UInt64)

/-- Only the sign for the last id looks at the stream, and fails if the key holds something else. -/
theorem resolve_lines (keyspace : Keyspace) (key id : String) :
    LineFailures (resolve keyspace now key id).1 := by
  unfold resolve
  split
  · exact .map (keyspace.readStream_lines now key _) _
  · exact .map (StreamId.rangeStart_lines id) _

/-- The starts of a read are resolved one after the other, up to one that fails. -/
theorem resolveAll_lines (starts : List (String × String)) :
    ∀ keyspace, LineFailures (resolveAll keyspace now starts).1 := by
  induction starts with
  | nil => exact fun _ => .ok _
  | cons start rest ih =>
      intro keyspace
      have hfirst := resolve_lines now keyspace start.1 start.2
      simp only [resolveAll]
      split
      · rename_i hresolve
        rw [hresolve] at hfirst
        exact .error (hfirst _ rfl)
      · exact .map (ih _) _

theorem streamReply_ends (key : String) (entries : List StreamEntry) :
    (streamReply key entries).Ends := by
  refine Reply.array_ends fun item hmem => ?_
  rcases List.mem_cons.mp hmem with rfl | hentries
  · exact trivial
  · rw [List.mem_singleton.mp hentries]
    exact StreamCommand.entriesReply_ends entries

/-- The streams of a read are shown one after the other, up to one that cannot be read. -/
theorem readAll_ends (count : Option Nat) (cursors : List Cursor) :
    ∀ keyspace, LineFailures (readAll keyspace now count cursors).1 ∧
      ∀ replies, (readAll keyspace now count cursors).1 = .ok replies →
        ∀ reply ∈ replies, reply.Ends := by
  induction cursors with
  | nil =>
      refine fun _ => ⟨.ok _, ?_⟩
      intro replies h
      rw [← Except.ok.inj h]
      simp
  | cons cursor rest ih =>
      intro keyspace
      have hfirst := keyspace.readStream_lines now cursor.key (·.after cursor.above count)
      simp only [readAll]
      split
      · rename_i hread
        refine ⟨.error ?_, by simp⟩
        exact hfirst _ (congrArg Prod.fst hread)
      · rename_i entries after hread
        rcases ih after with ⟨hlines, hends⟩
        refine ⟨.map hlines _, ?_⟩
        intro replies h
        cases hrest : (readAll after now count rest).1 with
        | error e => simp [hrest, Except.map] at h
        | ok later =>
            rw [hrest] at h
            rw [← Except.ok.inj h]
            simp only
            split
            · exact hends later hrest
            · exact List.forall_mem_cons.mpr ⟨streamReply_ends _ _, hends later hrest⟩

/-- A read that finds nothing is answered with a null reply, and else with the streams it found. -/
theorem readReply_ends {replies : List Reply} (h : ∀ reply ∈ replies, reply.Ends) :
    (readReply replies).Ends := by
  unfold readReply
  split
  · exact trivial
  · exact Reply.array_ends h

/-- What a read of streams is answered with. -/
theorem ofExcept_readAll_ends (keyspace : Keyspace) (count : Option Nat) (cursors : List Cursor) :
    (Reply.ofExcept ((readAll keyspace now count cursors).1.map readReply)).Ends := by
  rcases readAll_ends now count cursors keyspace with ⟨hlines, hends⟩
  refine Reply.ofExcept_ends (.map hlines _) ?_
  intro reply h
  cases hread : (readAll keyspace now count cursors).1 with
  | error e => simp [hread, Except.map] at h
  | ok replies =>
      rw [hread] at h
      rw [← Except.ok.inj h]
      exact readReply_ends (hends replies hread)

end Cursor

/-- The texts of a request that an error can quote. -/
def Request.quoted : Request → List String
  | .set _ _ options => options
  | .config action _ => [action]
  | .replication option _ => [option]
  | _ => []

/-- The texts of the command that an error can quote are of one line. -/
def Command.Plain (command : Command) : Prop :=
  ∀ request, Request.ofCommand command = .ok request → ∀ text ∈ request.quoted, OneLine text

namespace KeyCommand

/-- An option is quoted when it is not known or lacks its value, so it has to be of one line
    itself. -/
theorem deadlineOf_lines (now : UInt64) (deadline : Deadline) (options : List String)
    (h : ∀ option ∈ options, OneLine option) : LineFailures (deadlineOf now deadline options) := by
  fun_induction deadlineOf now deadline options with
  | case1 => exact .ok _
  | case2 deadline option rest _ =>
      have hoption := (h option List.mem_cons_self).quote "unsupported SET option '" "'"
        (by decide) (by decide)
      exact .error (Error.malformed_oneLine hoption)
  | case3 deadline option _ =>
      refine .error (Error.malformed_oneLine ?_)
      exact oneLine_append.mpr ⟨h option List.mem_cons_self, by decide⟩
  | case4 => exact .error (by decide)
  | case5 => exact .error (by decide)
  | case6 _ _ _ _ _ _ _ _ _ ih =>
      exact ih fun other hother => h other (List.mem_cons_of_mem _ (List.mem_cons_of_mem _ hother))

/-- A value is sent as a byte string, whatever is in it; a stream is refused for its type. -/
theorem valueReply_ends (value : Value) : (Reply.ofExcept (valueReply value)).Ends := by
  cases value with
  | text text => exact trivial
  | integer number => exact trivial
  | stream stream => exact Reply.ofError_ends (by decide)

/-- Where the keyspace has no value the snapshot file is asked. It holds texts, or is refused in one
    line. -/
theorem get_ends (keyspace : Keyspace) (file : Snapshot.File) (now : UInt64) (key : String) :
    (Reply.ofExcept (get keyspace file now key).1).Ends := by
  unfold get
  split
  · exact valueReply_ends _
  · refine Reply.ofExcept_map_ends (.map file.entries_lines _) fun found => ?_
    cases found <;> exact trivial

theorem type_ends (keyspace : Keyspace) (file : Snapshot.File) (now : UInt64) (key : String) :
    (Reply.ofExcept (type keyspace file now key).1).Ends := by
  have hname : ∀ kind : ValueKind, OneLine kind.typeName := by
    intro kind
    cases kind <;> decide
  unfold type
  split
  · exact hname _
  · refine Reply.ofExcept_map_ends (.map file.entries_lines _) fun found => ?_
    cases found with
    | none => exact (by decide : OneLine "none")
    | some entry => exact hname .text

end KeyCommand

/-- The subcommand is quoted when it is not known, so it has to be of one line itself. -/
theorem Report.config_ends (config : Config) {action : String} (parameters : List String)
    (h : OneLine action) : (Reply.ofExcept (Report.config config action parameters)).Ends := by
  unfold Report.config
  split
  · exact Reply.bulkTexts_ends _
  · exact Reply.ofError_ends (Error.malformed_oneLine (h.quote
      "unsupported CONFIG subcommand '" "'" (by decide) (by decide)))

/-- The report is sent as a byte string, so the line feeds in it do no harm. -/
theorem Report.info_ends (role : Role) (topic : Option String) : (Report.info role topic).Ends := by
  unfold Report.info
  extract_lets isWanted
  by_cases h : isWanted = true
  · rw [if_pos h]
    exact trivial
  · rw [if_neg h]
    exact trivial

namespace Engine

variable (engine : Engine) (now : UInt64)

theorem waitNumbers_lines (wanted timeout : String) :
    LineFailures (waitNumbers wanted timeout) := by
  unfold waitNumbers
  split
  · exact .ok _
  · exact .error (by decide)

/-- A read is refused before it starts for its options or for one of its ids. -/
theorem openRead_lines (arguments : List String) :
    LineFailures (engine.openRead now arguments).1 := by
  have harguments := StreamRead.ofArguments_lines {} arguments
  unfold openRead
  split
  · exact .error (harguments _ (by assumption))
  · exact .map (Cursor.resolveAll_lines now _ _) _

/-- A request that does not wait is answered with a reply that ends where it should. -/
theorem run_ends {request : Request} (h : ∀ text ∈ request.quoted, OneLine text) :
    (Reply.ofExcept (engine.run now request).1).Ends := by
  cases request with
  | ping message =>
      cases message with
      | none => exact (by decide : OneLine "PONG")
      | some message => exact trivial
  | echo message => exact trivial
  | set key value options =>
      have hdeadline := KeyCommand.deadlineOf_lines now .never options h
      simp only [run, withKeyspace, KeyCommand.set]
      split
      · exact Reply.ofError_ends (hdeadline _ (by assumption))
      · exact (by decide : OneLine "OK")
  | get key => exact KeyCommand.get_ends _ _ now key
  | increment key =>
      exact Reply.ofExcept_map_ends (engine.keyspace.increment_lines now key) fun _ => trivial
  | type key => exact KeyCommand.type_ends _ _ now key
  | keys pattern =>
      exact Reply.ofExcept_map_ends (.map engine.file.entries_lines _) fun _ =>
        Reply.bulkTexts_ends _
  | info topic => exact Report.info_ends _ topic
  | config action parameters =>
      exact Report.config_ends _ parameters (h action List.mem_cons_self)
  | beginTransaction => exact Reply.ofError_ends (by decide)
  | runTransaction => exact Reply.ofError_ends (by decide)
  | dropTransaction => exact Reply.ofError_ends (by decide)
  | replication option arguments => exact Reply.ofError_ends (by decide)
  | resync => exact Reply.ofError_ends (by decide)
  | waitForReplicas wanted timeout =>
      exact Reply.ofExcept_map_ends (waitNumbers_lines wanted timeout) fun _ => trivial
  | addEntry key id fields =>
      have hadded := StreamCommand.addEntry_lines engine.keyspace now key id fields
      simp only [run, addEntry]
      split
      · rename_i hfailed
        exact Reply.ofError_ends (hadded _ (congrArg Prod.fst hfailed))
      · exact trivial
  | range key start stop options => exact StreamCommand.range_ends _ now key start stop options
  | readStreams arguments =>
      have hopen := engine.openRead_lines now arguments
      simp only [run]
      split
      · rename_i hfailed
        exact Reply.ofError_ends (hopen _ (congrArg Prod.fst hfailed))
      · exact Cursor.ofExcept_readAll_ends now _ _ _

-- A number of arguments that is refused is refused by the name of the command.
theorem ofCommand_lines (command : Command) : LineFailures (Request.ofCommand command) := by
  intro e he
  rw [Request.ofCommand_eq_error_iff, Command.checkArity, CommandName.checkArity] at he
  split at he
  · simp only [reduceCtorEq] at he
  · rw [← Except.error.inj he]
    have hname : OneLine command.name.text := by cases command.name <;> decide
    exact Error.wrongArity_oneLine (oneLine_toLower hname)

/-- A queued command is answered with its outcome, or with the reason of its refusal. -/
theorem runCommand_ends {command : Command} (h : command.Plain) :
    (engine.runCommand now command).1.Ends := by
  have hrequest := ofCommand_lines command
  unfold runCommand
  cases hread : Request.ofCommand command with
  | error e => exact Reply.ofError_ends (hrequest e hread)
  | ok request => exact engine.run_ends now (h request hread)

/-- The replies to a queue end where they should. -/
theorem runQueue_ends (queue : List Command) :
    ∀ engine : Engine, (∀ command ∈ queue, command.Plain) →
      ∀ reply ∈ (engine.runQueue now queue).1, reply.Ends := by
  induction queue with
  | nil => exact fun _ _ => by simp [runQueue]
  | cons command rest ih =>
      intro engine h
      rw [List.forall_mem_cons] at h
      exact List.forall_mem_cons.mpr ⟨engine.runCommand_ends now h.1, ih _ h.2⟩

end Engine

end KeyValue
