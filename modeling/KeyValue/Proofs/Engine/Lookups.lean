import KeyValue.Proofs.Engine.Setup
import KeyValue.Proofs.Keyspace.Locality
import KeyValue.Proofs.Sessions.Storing

/-!
# What is found at a key

Three commands tell what keys hold: the value of a key, the name of its kind, and the list of the
keys. Each asks the keyspace first and the snapshot file for the rest, in its own way. All three
tell of the same value (`Engine.found?`): the one that the keyspace holds, if it is not expired,
and else that of the first entry of the file that is not expired. So an expired key uncovers the
entry that it has hidden.

## Main definitions

* `Snapshot.firstOf`: The entry of a key that a look-up in a file finds.
* `Engine.found?`: What a key holds, in the keyspace or in the file.
* `Request.isLookup`, `Engine.lookUp`: The commands, and what a session is answered.

## Theorems

* `run_get`, `run_type`, `run_keys`: The commands tell what is found.
* `dispatch_lookup`: A session is answered with that.
* `lookups_agree`: The commands agree on what exists.
-/

namespace KeyValue

namespace Snapshot

/-- The first entry of a key that is not expired at the time `now`. -/
def firstOf (entries : List Entry) (now : UInt64) (key : String) : Option Entry :=
  entries.find? fun entry => entry.key == key && !entry.isExpired now

variable {file : File} {entries : List Entry} (h : file.entries = .ok entries) (now : UInt64)
include h

theorem File.lookup?_of_entries (key : String) :
    file.lookup? now key = .ok (firstOf entries now key) := by
  rw [lookup?, h]
  rfl

/-- The keys of a file are those that a look-up finds. -/
theorem File.keys_of_entries : ∃ keys, file.keys now = .ok keys ∧
    ∀ key, key ∈ keys ↔ (firstOf entries now key).isSome = true := by
  refine ⟨_, by rw [keys, h]; rfl, fun key => ?_⟩
  simp only [firstOf, List.find?_isSome, List.mem_map, List.mem_filter, Bool.and_eq_true,
    beq_iff_eq]
  constructor
  · rintro ⟨entry, ⟨hmem, hlive⟩, hkey⟩
    exact ⟨entry, hmem, hkey, hlive⟩
  · rintro ⟨entry, hmem, hkey, hlive⟩
    exact ⟨entry, ⟨hmem, hlive⟩, hkey⟩

end Snapshot

-- A text is not a stream, however it is stored.
theorem Value.ofText_typeName (text : String) : (Value.ofText text).kind.typeName = "string" := by
  unfold ofText
  split
  · split <;> rfl
  · rfl

/-- Whether the request tells what keys hold. -/
def Request.isLookup : Request → Bool
  | .get _ | .type _ | .keys _ => true
  | _ => false

namespace Engine

/-- What a key holds at the time `now`: a value in the keyspace, or else a text in the file. -/
def found? (engine : Engine) (entries : List Snapshot.Entry) (now : UInt64) (key : String) :
    Option Value :=
  ((engine.keyspace.live? now key).map (·.value)).or
    ((Snapshot.firstOf entries now key).map (.ofText ·.value))

section Runs

variable {engine : Engine} {entries : List Snapshot.Entry}
  (hentries : engine.file.entries = .ok entries) (now : UInt64)
include hentries

theorem run_get (key : String) :
    (engine.run now (.get key)).1 =
      (engine.found? entries now key).elim (.ok .null) KeyCommand.valueReply := by
  have hfile := Snapshot.File.lookup?_of_entries hentries now key
  simp only [run, withKeyspace, KeyCommand.get, Keyspace.get, found?]
  cases engine.keyspace.live? now key with
  | some item => rfl
  | none =>
      simp only [Option.map_none, Option.none_or, hfile]
      cases Snapshot.firstOf entries now key with
      | none => rfl
      | some entry => exact (KeyCommand.valueReply_ofText entry.value).symm

theorem run_type (key : String) :
    (engine.run now (.type key)).1 =
      .ok (.simple ((engine.found? entries now key).elim "none" (·.kind.typeName))) := by
  have hfile := Snapshot.File.lookup?_of_entries hentries now key
  simp only [run, withKeyspace, KeyCommand.type, Keyspace.kind, found?]
  cases engine.keyspace.live? now key with
  | some item => rfl
  | none =>
      simp only [Option.map_none, Option.none_or, hfile]
      cases Snapshot.firstOf entries now key with
      | none => rfl
      | some entry =>
          simp only [Option.map_some, Option.elim_some, Value.ofText_typeName]
          rfl

/-- The keys that are listed are those at which something is found. -/
theorem run_keys (pattern : String) :
    ∃ keys, (engine.run now (.keys pattern)).1 = .ok (.bulkTexts keys) ∧
      keys.Pairwise (· < ·) ∧
      ∀ key, key ∈ keys ↔ Glob.isMatch pattern key = true ∧
        (engine.found? entries now key).isSome = true := by
  obtain ⟨inFile, hinFile, hmem⟩ := Snapshot.File.keys_of_entries hentries now
  refine ⟨(KeyCommand.ascending ((engine.keyspace.keys now).1 ++ inFile)).filter
    (Glob.isMatch pattern), ?_, (KeyCommand.pairwise_ascending _).filter _, fun key => ?_⟩
  · simp only [run, withKeyspace, KeyCommand.keys, hinFile]
    rfl
  · rw [List.mem_filter, KeyCommand.mem_ascending, List.mem_append, KeyCommand.mem_keys, hmem,
      and_comm, found?, Option.isSome_or, Option.isSome_map, Option.isSome_map, Bool.or_eq_true]

end Runs

variable (engine : Engine) {session : Session} (now : UInt64)

/-- A session without a transaction is answered what it looks up. -/
theorem dispatch_lookup {command : Command} {request : Request}
    (hrequest : Request.ofCommand command = .ok request) (hlookup : request.isLookup = true)
    (hclosed : session.transaction = .closed) :
    (engine.dispatch session now command).1 = .answered (.ofExcept (engine.run now request).1) := by
  have hhandle : (engine.record command).2.handle session now (engine.record command).1 command =
      _ := handle_of_closed hrequest hclosed
  -- The history, in which the command is recorded, is not looked at.
  have hkeyspace : (engine.record command).2.keyspace = engine.keyspace := by
    unfold record
    cases engine.role <;> rfl
  have hfile := (engine.record_setup command).file
  cases request with
  | get key | type key | keys pattern =>
      simp only [perform, startRequest] at hhandle
      simp only [engine.dispatch_of_handle now hhandle, run, withKeyspace, hkeyspace, hfile]
  | _ => simp only [Request.isLookup, Bool.false_eq_true] at hlookup

/-- What a session is answered that looks up a word. -/
def lookUp (engine : Engine) (session : Session) (now : UInt64) (raw : Bytes) (name : CommandName)
    (word : String) : Dispatch :=
  (engine.dispatch session now ⟨name, [word], raw⟩).1

section Answers

variable {engine} {entries : List Snapshot.Entry}
  (hentries : engine.file.entries = .ok entries) (hclosed : session.transaction = .closed)
  (raw : Bytes) (key : String)
include hentries hclosed

theorem lookUp_get :
    engine.lookUp session now raw .get key = .answered (.ofExcept
      ((engine.found? entries now key).elim (.ok .null) KeyCommand.valueReply)) := by
  have hrequest : Request.ofCommand ⟨.get, [key], raw⟩ = .ok (.get key) := rfl
  rw [lookUp, engine.dispatch_lookup now hrequest rfl hclosed, run_get hentries]

theorem lookUp_type :
    engine.lookUp session now raw .type key = .answered (.reply
      (.simple ((engine.found? entries now key).elim "none" (·.kind.typeName)))) := by
  have hrequest : Request.ofCommand ⟨.type, [key], raw⟩ = .ok (.type key) := rfl
  rw [lookUp, engine.dispatch_lookup now hrequest rfl hclosed, run_type hentries]
  rfl

end Answers

/-- What exists is told alike in three ways. A key is of no kind if it has no value, and a stream if
    its value is of the wrong kind; it is a string if it has one. The keys that are listed are
    those that match the pattern and are of some kind, in ascending order. -/
theorem lookups_agree {engine : Engine} {session : Session} {entries : List Snapshot.Entry}
    (hentries : engine.file.entries = .ok entries) (hclosed : session.transaction = .closed)
    (now : UInt64) (raw : Bytes) :
    (∀ pattern, ∃ keys, engine.lookUp session now raw .keys pattern =
        .answered (.reply (.bulkTexts keys)) ∧ keys.Pairwise (· < ·) ∧
      ∀ key, key ∈ keys ↔ Glob.isMatch pattern key = true ∧
        engine.lookUp session now raw .type key ≠ .answered (.reply (.simple "none"))) ∧
    ∀ key,
      (engine.lookUp session now raw .type key = .answered (.reply (.simple "none")) ↔
        engine.lookUp session now raw .get key = .answered (.reply .null)) ∧
      (engine.lookUp session now raw .type key = .answered (.reply (.simple "stream")) ↔
        engine.lookUp session now raw .get key = .answered (.reply (.ofError .wrongType))) ∧
      (engine.lookUp session now raw .type key = .answered (.reply (.simple "string")) ↔
        ∃ payload, engine.lookUp session now raw .get key =
          .answered (.reply (.bulk payload))) := by
  constructor
  · intro pattern
    obtain ⟨keys, hkeys, hsorted, hmem⟩ := run_keys hentries now pattern
    have hrequest : Request.ofCommand ⟨.keys, [pattern], raw⟩ = .ok (.keys pattern) := rfl
    have hanswer : engine.lookUp session now raw .keys pattern = _ :=
      engine.dispatch_lookup now hrequest rfl hclosed
    rw [hkeys] at hanswer
    refine ⟨keys, hanswer, hsorted, fun key => (hmem key).trans (and_congr_right fun _ => ?_)⟩
    rw [lookUp_type now hentries hclosed]
    rcases engine.found? entries now key with _ | _ | _ | _ <;>
      simp [Value.kind, ValueKind.typeName]
  · intro key
    rw [lookUp_type now hentries hclosed, lookUp_get now hentries hclosed]
    rcases engine.found? entries now key with _ | _ | _ | _ <;>
      simp [Value.kind, ValueKind.typeName, KeyCommand.valueReply, Response.ofExcept,
        Reply.ofExcept, Reply.ofError, Reply.bulkText]

/-- An expired key uncovers the one in the file: it is listed, and has a value, beside a stream. -/
theorem lookups_agree_uncovered :
    let content := Snapshot.magic ++ [48, 48, 49, 49, 0, 1, 107, 1, 97, 255]
    let stream : Stream := ⟨[⟨⟨1, 1⟩, [("f", "v")]⟩]⟩
    let keyspace := (Keyspace.empty.set "k" (.integer 1) ⟨5⟩).set "s" (.stream stream) .never
    let engine := { Engine.start {} (.regular content) "id" with keyspace }
    (∃ keys, engine.lookUp {} 7 [] .keys "*" = .answered (.reply (.bulkTexts keys)) ∧
      "k" ∈ keys ∧ "s" ∈ keys) ∧
    (∃ payload, engine.lookUp {} 7 [] .get "k" = .answered (.reply (.bulk payload))) ∧
    engine.lookUp {} 7 [] .get "s" = .answered (.reply (.ofError .wrongType)) := by
  intro content stream keyspace engine
  have hentries : engine.file.entries = .ok [⟨"k", "a", .never⟩] := by decide +kernel
  have hstring : engine.lookUp {} 7 [] .type "k" = .answered (.reply (.simple "string")) := by
    rfl
  have hstream : engine.lookUp {} 7 [] .type "s" = .answered (.reply (.simple "stream")) := by
    rfl
  have hclosed : ({} : Session).transaction = .closed := rfl
  obtain ⟨hkeys, hkinds⟩ := lookups_agree hentries hclosed 7 []
  obtain ⟨keys, hanswer, -, hmem⟩ := hkeys "*"
  refine ⟨⟨keys, hanswer, (hmem "k").mpr ⟨by decide +kernel, ?_⟩,
    (hmem "s").mpr ⟨by decide +kernel, ?_⟩⟩, (hkinds "k").2.2.mp hstring,
    (hkinds "s").2.1.mp hstream⟩
  · rw [hstring]
    simp
  · rw [hstream]
    simp

end Engine

end KeyValue
