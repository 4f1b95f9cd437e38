import KeyValue.Proofs.Framing.Encoding

/-!
# Commands as clients spell them

A client sends commands in the wire form of their words, one behind the other, and a framer hands
out these commands, however the stream is cut.

A client may spell the name of a command in any letter case. The framer finds the command that is
meant, because no two names differ in case only (`CommandName.ofText?_of_sameWord`). The arguments
are texts, and texts are read back from their bytes as they are; the name keeps its spelling only in
the bytes of the command.

## Main definitions

* `Spelling`: A command as a client spells it.
* `Spelling.wire`, `Spelling.command`: Its wire form, and the command that is meant.
* `Spelling.Fits`: Its lengths are not refused.

## Theorems

* `CommandName.ofText?_of_sameWord`: The command that a spelling of its name stands for.
* `Spelling.carries`: A wire form is read as the command.
* `Framer.drainAll_spellings`: Wire forms one behind the other, in pieces.
-/

namespace KeyValue

/-- A word that spells a name, in any letter case, stands for the command of that name. -/
theorem CommandName.ofText?_of_sameWord {name : CommandName} {word : String}
    (h : Text.sameWord name.text word = true) : CommandName.ofText? word = some name := by
  unfold Text.sameWord at h
  unfold CommandName.ofText? Text.sameWord
  -- Only the lower case of the word is looked at, and that is the one of the name.
  rw [← beq_iff_eq.mp h]
  cases name <;> decide +kernel

-- The lower case of each word is computed for itself, which is faster than comparing the two.
theorem CommandName.sameWord_of_lower {name : CommandName} {word : String} (lower : String)
    (hname : name.text.toLower = lower) (hword : word.toLower = lower) :
    Text.sameWord name.text word = true := by
  rw [Text.sameWord, hname, hword, beq_self_eq_true]

/-- A command as a client spells it: its name in any letter case, and its arguments. -/
structure Spelling where
  name : CommandName
  word : String
  args : List String
  same : Text.sameWord name.text word = true

namespace Spelling

/-- The words of the command. -/
def words (spelling : Spelling) : List String := spelling.word :: spelling.args

/-- What the client sends. -/
def wire (spelling : Spelling) : Bytes := Wire.request spelling.words

/-- The command that is meant, with the bytes that it is sent in. -/
def command (spelling : Spelling) : Command := ⟨spelling.name, spelling.args, spelling.wire⟩

/-- There are not too many words, and none is too long. -/
structure Fits (spelling : Spelling) : Prop where
  count : spelling.words.length ≤ Wire.maxArrayLength
  length : ∀ word ∈ spelling.words, (Text.bytes word).length ≤ Wire.maxBulkLength

theorem wire_eq (spelling : Spelling) :
    spelling.wire = Framer.encoded (spelling.words.map Text.bytes) := by
  unfold wire Wire.request Reply.bulkTexts Framer.encoded
  rw [List.map_map]
  rfl

/-- The wire form of a command is read as the command. -/
theorem carries {spelling : Spelling} (h : spelling.Fits) :
    Framer.Carries .start spelling.wire [.ok spelling.command] := by
  have hcount : (spelling.args.map Text.bytes).length < Wire.maxArrayLength := by
    have := h.count
    rwa [words, List.length_cons, Nat.succ_le_iff, ← List.length_map Text.bytes] at this
  have hlengths : ∀ part ∈ Text.bytes spelling.word :: spelling.args.map Text.bytes,
      part.length ≤ Wire.maxBulkLength := by
    rw [← List.map_cons]
    exact List.forall_mem_map.mpr h.length
  have hargs : (spelling.args.map Text.bytes).map Text.ofBytes = spelling.args := by
    rw [List.map_map]
    exact List.map_id'' Text.ofBytes_bytes _
  have hcarries := Framer.carries_encoded hcount hlengths
  rw [Text.ofBytes_bytes, hargs, ← List.map_cons, Framer.eventOf,
    CommandName.ofText?_of_sameWord spelling.same] at hcarries
  rw [command, wire_eq]
  exact hcarries

end Spelling

namespace Framer

/-- Commands in their wire forms, one behind the other and cut into pieces in any way, are handed out
    in order, each with its name, its arguments and its bytes, and nothing is left. -/
theorem drainAll_spellings (spellings : List Spelling) (chunks : List Bytes)
    (hfits : ∀ spelling ∈ spellings, spelling.Fits)
    (hchunks : chunks.flatten = spellings.flatMap (·.wire)) :
    empty.drainAll chunks =
      (spellings.map fun spelling =>
          .ok ⟨spelling.name, spelling.args, Wire.request (spelling.word :: spelling.args)⟩,
        ⟨[], .idle⟩) := by
  have hcarries := Carries.flatMap fun spelling hmem => Spelling.carries (hfits spelling hmem)
  rw [← hchunks] at hcarries
  exact hcarries.drainAll

/-- Two commands in three pieces, with an argument that looks like a header and an empty one. -/
theorem drainAll_spellings_pieces :
    let set : Spelling :=
      ⟨.set, "sEt", ["k", "\r\n*1\r\n"],
        CommandName.sameWord_of_lower "set" (by decide +kernel) (by decide +kernel)⟩
    let echo : Spelling :=
      ⟨.echo, "ECHO", [""],
        CommandName.sameWord_of_lower "echo" (by decide +kernel) (by decide +kernel)⟩
    let stream := set.wire ++ echo.wire
    (∀ spelling ∈ [set, echo], spelling.Fits) ∧
      empty.drainAll [stream.take 9, [], stream.drop 9] =
        ([.ok ⟨.set, ["k", "\r\n*1\r\n"], set.wire⟩, .ok ⟨.echo, [""], echo.wire⟩],
          ⟨[], .idle⟩) := by
  intro set echo stream
  have hfits : ∀ spelling ∈ [set, echo], spelling.Fits := by
    have hset : set.Fits := ⟨by decide, by decide +kernel⟩
    have hecho : echo.Fits := ⟨by decide, by decide +kernel⟩
    exact List.forall_mem_cons.mpr ⟨hset, List.forall_mem_singleton.mpr hecho⟩
  have hchunks : ([stream.take 9, [], stream.drop 9] : List Bytes).flatten =
      [set, echo].flatMap (·.wire) := by
    simp [stream]
  exact ⟨hfits, drainAll_spellings _ _ hfits hchunks⟩

end Framer

end KeyValue
