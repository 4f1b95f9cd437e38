import KeyValue.Proofs.Framing.Places

/-!
# The framer in registers

A framer keeps what belongs to a command in progress inside its progress, so it cannot hold a count
without an array, or a ready command while it waits for bytes. Here the same framer is laid out in
registers that lie side by side and are all there all the time: the cursor, the declared count, the
length of the element, the name, the arguments and the ready command. Every step reads some of them
and leaves the others as they are, and it reads the buffer by places, which the registers have to
get right.

They do. `Registers.Sound` says what belongs together, and every operation keeps it, after failures
as well as before. So the registers run into no fault and answer as the framer does
(`performAll_in_registers`).

## Main definitions

* `Framer.Registers`: A framer laid out in registers.
* `Registers.feed`, `Registers.take`, `Registers.reset`: Its operations.
* `Registers.Sound`: What holds of the registers at any time.
* `Registers.Holds`: The registers hold a framer.
* `Framer.performAll`, `Registers.performAll`: Operations one after another.

## Theorems

* `Holds.sound`: Registers that hold a framer are sound.
* `step_holds`, `advance_holds`, `feed_holds`, `perform_holds`: The registers keep holding it.
* `performAll_in_registers`: Whatever is done, no place is beyond the buffer.
-/

namespace KeyValue

namespace Framer

open Wire

/-- What the registers of a framer are there for at the moment. -/
inductive Phase where
  | idle
  | awaitingLength
  | awaitingValue
  | complete
  | failed
  deriving DecidableEq, Repr

/-- A framer laid out in registers. -/
structure Registers where
  buffer : Bytes := []
  /-- The place up to which the buffer was read for the command in progress. -/
  cursor : Nat := 0
  phase : Phase := .idle
  /-- The number of elements that the array in progress has announced. -/
  declared : Nat := 0
  /-- The length that the last element has announced. -/
  elementLength : Nat := 0
  /-- The first element of the array in progress. -/
  name : Option String := none
  /-- The other elements of the array in progress. -/
  args : List String := []
  ready : Option Command := none
  deriving DecidableEq, Repr

/-- The refusal of an array that has come to its end without a first element. -/
def nameless : Error := .protocol "array completed without a command name"

namespace Registers

/-- What a step of the registers leads to. -/
inductive Step where
  /-- There may be more to do. -/
  | next (registers : Registers)
  /-- Nothing more can be done; whether a command is ready. -/
  | rest (ready : Bool) (registers : Registers)
  | fail (error : Error) (registers : Registers)

/-- Split the bytes of a command off the buffer, if its name is known, and drop them otherwise. -/
def complete (registers : Registers) (name : String) (args : List String) : Checked Step :=
  match CommandName.ofText? name with
  | some known => do
    let raw ← Checked.front registers.buffer registers.cursor
    let buffer ← Checked.behind registers.buffer registers.cursor
    return .rest true { registers with
      buffer, cursor := 0, declared := 0, elementLength := 0
      ready := some ⟨known, args, raw⟩, phase := .complete }
  | none => do
    let buffer ← Checked.behind registers.buffer registers.cursor
    return .fail (.unknownCommand name) { registers with
      buffer, cursor := 0, declared := 0, elementLength := 0
      name := none, args := [], phase := .idle }

/-- Complete an inline line. -/
def completeInline (registers : Registers) (line : Bytes) (next : Nat) : Checked Step :=
  let registers := { registers with cursor := next }
  match Text.asciiWords (Text.ofBytes line) with
  | name :: args => registers.complete name args
  | [] => registers.complete "" []

/-- Take a step where a command may begin. -/
def stepIdle (registers : Registers) : Checked Step :=
  match registers.buffer with
  | [] => .ok (.rest false registers)
  | first :: _ =>
    if first = 42 then do
      match ← Places.array registers.buffer with
      | .error e => return .fail e registers
      | .ok (some (name, args, size)) => complete { registers with cursor := size } name args
      | .ok none =>
        match ← Places.boundedLine registers.buffer registers.cursor with
        | .error e => return .fail e registers
        | .ok none => return .rest false registers
        | .ok (some (stop, next)) =>
          let header ← Checked.front registers.buffer stop
          match arrayHeader header with
          | .error e => return .fail e registers
          | .ok declared =>
            return .next { registers with declared, cursor := next, phase := .awaitingLength }
    else do
      match ← Places.boundedLine registers.buffer 0 with
      | .error e => return .fail e registers
      | .ok none => return .rest false registers
      | .ok (some (stop, next)) =>
        let line ← Checked.front registers.buffer stop
        if line.all isBlankByte then
          let buffer ← Checked.behind registers.buffer next
          return .next { registers with buffer }
        else registers.completeInline line next

/-- Take a step where the header of an element comes next. -/
def stepLength (registers : Registers) : Checked Step := do
  match ← Places.boundedLine registers.buffer registers.cursor with
  | .error e => return .fail e registers
  | .ok none => return .rest false registers
  | .ok (some (stop, next)) =>
    let header ← Checked.slice registers.buffer registers.cursor stop
    match bulkHeader header with
    | .error e => return .fail e registers
    | .ok elementLength =>
      return .next { registers with elementLength, cursor := next, phase := .awaitingValue }

/-- Take a step where the bytes of an element come next. -/
def stepValue (registers : Registers) : Checked Step := do
  match ← Places.value registers.buffer registers.cursor registers.elementLength with
  | .error e => return .fail e registers
  | .ok none => return .rest false registers
  | .ok (some value) =>
    let (name, args) := Places.collect registers.name registers.args value
    let registers := { registers with
      cursor := registers.cursor + registers.elementLength + 2, name, args }
    if registers.args.length + 1 = registers.declared then
      match registers.name with
      | none => return .fail nameless registers
      | some name => complete { registers with name := none, args := [] } name registers.args
    else return .next { registers with phase := .awaitingLength }

/-- Take one step. -/
def step (registers : Registers) : Checked Step :=
  match registers.phase with
  | .idle => registers.stepIdle
  | .awaitingLength => registers.stepLength
  | .awaitingValue => registers.stepValue
  | .complete => .ok (.rest true registers)
  | .failed => .ok (.fail (.protocol "framer is in a failed state") registers)

/-- Take steps to the end, which has to come within `steps` of them. -/
def run : Nat → Registers → Checked (Except Error Bool × Registers)
  | 0, _ => .error .endless
  | steps + 1, registers => do
    match ← registers.step with
    | .next registers => run steps registers
    | .rest ready registers => return (.ok ready, registers)
    | .fail e registers => return (.error e, registers)

/-- Go on as far as the buffered bytes allow. Every step but the last reads a byte or more. -/
def advance (registers : Registers) : Checked (Except Error Bool × Registers) := do
  let unread ← Checked.difference registers.buffer.length registers.cursor
  run (unread + 1) registers

/-- The registers behind a failure: a malformed stream stops them. -/
def behindFailure (registers : Registers) (e : Error) : Registers :=
  if e.isProtocol then { registers with phase := .failed } else registers

/-- Append bytes and go on as far as they allow; the result tells whether a command is ready. -/
def feed (registers : Registers) (bytes : Bytes) : Checked (Except Error Bool × Registers) :=
  if registers.phase = .failed then
    .ok (.error (.protocol "framer must be reset after a protocol error"), registers)
  else do
    match ← { registers with buffer := registers.buffer ++ bytes }.advance with
    | (.ok ready, registers) => return (.ok ready, registers)
    | (.error e, registers) => return (.error e, registers.behindFailure e)

/-- Hand out the command that is ready. -/
def take (registers : Registers) : Option Command × Registers :=
  if registers.phase = .complete then
    (registers.ready, { registers with phase := .idle, ready := none })
  else (none, registers)

/-- Forget everything received. -/
def reset (_registers : Registers) : Registers := {}

/-- The elements read of the array in progress. -/
def collected (registers : Registers) : List String := registers.name.toList ++ registers.args

/-- An array is in progress. -/
structure Begun (registers : Registers) : Prop where
  cursor_le : registers.cursor ≤ registers.buffer.length
  star : registers.buffer.head? = some 42
  declared_pos : 1 ≤ registers.declared
  declared_le : registers.declared ≤ maxArrayLength
  collected_lt : registers.collected.length < registers.declared
  elementLength_le : registers.elementLength ≤ maxBulkLength
  named : registers.name = none → registers.args = []
  unready : registers.ready = none

/-- What holds of the registers at any time. -/
structure Sound (registers : Registers) : Prop where
  cursor_le : registers.cursor ≤ registers.buffer.length
  ready_iff : registers.ready.isSome = true ↔ registers.phase = .complete
  /-- Between commands nothing is kept of a command in progress. -/
  between : registers.phase = .idle ∨ registers.phase = .complete →
    registers.cursor = 0 ∧ registers.declared = 0 ∧ registers.name = none ∧ registers.args = []
  begun : registers.phase = .awaitingLength ∨ registers.phase = .awaitingValue → registers.Begun
  collected_le : registers.collected.length ≤ maxArrayLength

/-- The registers hold a framer. Of a failed one they keep what was read last. -/
inductive Holds : Registers → Framer → Prop where
  | idle (buffer : Bytes) : Holds { buffer } ⟨buffer, .idle⟩
  | awaitingLength {registers : Registers} (hphase : registers.phase = .awaitingLength)
      (begun : registers.Begun) : Holds registers
        ⟨registers.buffer, .awaitingLength registers.cursor registers.declared registers.collected⟩
  | awaitingValue {registers : Registers} (hphase : registers.phase = .awaitingValue)
      (begun : registers.Begun) : Holds registers
        ⟨registers.buffer, .awaitingValue registers.cursor registers.declared registers.collected
          registers.elementLength⟩
  | complete (buffer : Bytes) {command : Command}
      (hcount : command.raw.head? = some 42 → command.args.length + 1 ≤ maxArrayLength) :
      Holds { buffer, phase := .complete, ready := some command } ⟨buffer, .complete command⟩
  | failed {registers : Registers} (hphase : registers.phase = .failed)
      (hcursor : registers.cursor ≤ registers.buffer.length) (hready : registers.ready = none)
      (hcollected : registers.collected.length ≤ maxArrayLength) :
      Holds registers ⟨registers.buffer, .failed⟩

variable {registers : Registers} {framer : Framer}

/-- Registers that hold a framer are sound. -/
theorem Holds.sound (h : Holds registers framer) : registers.Sound := by
  cases h with
  | idle buffer =>
      exact ⟨Nat.zero_le _, by simp, fun _ => ⟨rfl, rfl, rfl, rfl⟩, by simp, by simp [collected]⟩
  | awaitingLength hphase begun =>
      refine ⟨begun.cursor_le, by simp [begun.unready, hphase], by simp [hphase],
        fun _ => begun, ?_⟩
      exact Nat.le_trans (Nat.le_of_lt begun.collected_lt) begun.declared_le
  | awaitingValue hphase begun =>
      refine ⟨begun.cursor_le, by simp [begun.unready, hphase], by simp [hphase],
        fun _ => begun, ?_⟩
      exact Nat.le_trans (Nat.le_of_lt begun.collected_lt) begun.declared_le
  | complete buffer =>
      exact ⟨Nat.zero_le _, by simp, fun _ => ⟨rfl, rfl, rfl, rfl⟩, by simp, by simp [collected]⟩
  | failed hphase hcursor hready hcollected =>
      exact ⟨hcursor, by simp [hready, hphase], by simp [hphase], by simp [hphase], hcollected⟩

end Registers

/-! ### Refusals

No refusal of the parsers is that of a nameless array. -/

/-- The error for an array without a name is raised in one place only. A length does not raise
    it. -/
theorem headerLength_ne_nameless {mark : Char} {bytes : Bytes} {e : Error}
    (h : headerLength mark bytes = .error e) : e ≠ nameless := by
  have hinvalid : Error.protocol s!"expected '{mark}' length line, got '{Text.ofBytes bytes}'" ≠
      nameless := by
    simp [nameless, String.ext_iff, toString]
  unfold headerLength at h
  split at h
  · exact Except.error.inj h ▸ hinvalid
  · split at h
    · split at h
      · simp only [reduceCtorEq] at h
      · exact Except.error.inj h ▸ hinvalid
    · exact Except.error.inj h ▸ hinvalid

theorem arrayHeader_ne_nameless {bytes : Bytes} {e : Error} (h : arrayHeader bytes = .error e) :
    e ≠ nameless := by
  unfold arrayHeader at h
  split at h
  · rename_i hlength
    exact Except.error.inj h ▸ headerLength_ne_nameless hlength
  · split at h
    · rw [← Except.error.inj h]
      decide
    · split at h
      · rw [← Except.error.inj h]
        simp [nameless, String.ext_iff, toString]
      · simp only [reduceCtorEq] at h

theorem bulkHeader_ne_nameless {bytes : Bytes} {e : Error} (h : bulkHeader bytes = .error e) :
    e ≠ nameless := by
  unfold bulkHeader at h
  split at h
  · rename_i hlength
    exact Except.error.inj h ▸ headerLength_ne_nameless hlength
  · split at h
    · rw [← Except.error.inj h]
      simp [nameless, String.ext_iff, toString]
    · simp only [reduceCtorEq] at h

theorem bulkValue_ne_nameless {length : Nat} {bytes : Bytes} {e : Error}
    (h : bulkValue length bytes = .error e) : e ≠ nameless := by
  unfold bulkValue at h
  split at h
  · split at h
    · simp only [reduceCtorEq] at h
    · rw [← Except.error.inj h]
      simp [nameless, String.ext_iff, toString]
  · simp only [reduceCtorEq] at h

theorem lineAt_ne_nameless {bytes : Bytes} {e : Error} (h : lineAt bytes = .error e) :
    e ≠ nameless := by
  rw [(lineAt_eq_error h).2.2]
  decide

theorem wholeElements_ne_nameless {count : Nat} {bytes : Bytes} {e : Error}
    (h : wholeElements count bytes = .error e) : e ≠ nameless := by
  induction count generalizing bytes e with
  | zero => simp only [wholeElements, reduceCtorEq] at h
  | succ count ih =>
      unfold wholeElements at h
      split at h
      · simp only [reduceCtorEq] at h
      · split at h
        · rename_i hheader
          exact Except.error.inj h ▸ bulkHeader_ne_nameless hheader
        · simp only at h
          split at h
          · rename_i hvalue
            exact Except.error.inj h ▸ bulkValue_ne_nameless hvalue
          · simp only [reduceCtorEq] at h
          · split at h
            · rename_i hrest
              exact Except.error.inj h ▸ ih hrest
            · simp only [reduceCtorEq] at h
            · simp only [reduceCtorEq] at h

/-- Reading an array in one go does not raise it either. -/
theorem wholeArray_ne_nameless {bytes : Bytes} {e : Error} (h : wholeArray bytes = .error e) :
    e ≠ nameless := by
  unfold wholeArray at h
  split at h
  · simp only [reduceCtorEq] at h
  · split at h
    · rename_i hheader
      exact Except.error.inj h ▸ arrayHeader_ne_nameless hheader
    · split at h
      · rename_i helements
        exact Except.error.inj h ▸ wholeElements_ne_nameless helements
      · simp only [reduceCtorEq] at h
      · simp only [reduceCtorEq] at h


/-! ### One step -/

namespace Registers

variable {registers : Registers} {framer : Framer}

/-- What a failure leaves behind is held, whether it stops the framer or not. -/
theorem Holds.behindFailure (h : Holds registers framer) (hready : registers.ready = none)
    (e : Error) :
    Holds (registers.behindFailure e)
      (if e.isProtocol then { framer with progress := .failed } else framer) := by
  unfold Registers.behindFailure
  split
  · have hbuffer : framer.buffer = registers.buffer := by cases h <;> rfl
    have hsound := h.sound
    rw [hbuffer]
    exact .failed rfl hsound.cursor_le hready hsound.collected_le
  · exact h

/-- A step of the registers does what a step of the framer does. -/
inductive StepHolds : Step → Framer.Step → Prop where
  | next {registers : Registers} {framer : Framer} (h : Holds registers framer) :
      StepHolds (.next registers) (.next framer)
  | rest {registers : Registers} {framer : Framer} (h : Holds registers framer) :
      StepHolds (.rest framer.isReady registers) (.rest framer)
  | fail {registers : Registers} {framer : Framer} {e : Error}
      (h : Holds (registers.behindFailure e)
        (if e.isProtocol then { framer with progress := .failed } else framer))
      (hname : e ≠ nameless) : StepHolds (.fail e registers) (.fail e framer)

/-- A refusal that leaves the registers as they are. -/
theorem StepHolds.refuse (h : Holds registers framer) (hready : registers.ready = none) {e : Error}
    (hname : e ≠ nameless) : StepHolds (.fail e registers) (.fail e framer) :=
  .fail (h.behindFailure hready e) hname

/-- A command is split off the buffer in both. -/
theorem complete_holds (registers : Registers) (framer : Framer)
    (hbuffer : framer.buffer = registers.buffer)
    (hcursor : registers.cursor ≤ registers.buffer.length) (hname : registers.name = none)
    (hargs : registers.args = []) (hready : registers.ready = none) (name : String)
    (args : List String)
    (hcount : registers.buffer.head? = some 42 → args.length + 1 ≤ maxArrayLength) :
    ∃ step, registers.complete name args = .ok step ∧
      StepHolds step (framer.finish name args registers.cursor) := by
  unfold complete Framer.finish
  rw [hbuffer]
  cases CommandName.ofText? name with
  | none =>
      simp only [Checked.behind_eq_ok hcursor, Checked.ok_bind, hready]
      exact ⟨_, rfl, .fail (.idle _) (by simp [nameless])⟩
  | some known =>
      simp only [Checked.front_eq_ok hcursor, Checked.behind_eq_ok hcursor, Checked.ok_bind, hname,
        hargs]
      refine ⟨_, rfl, .rest (.complete _ ?_)⟩
      -- The bytes of the command start as the buffer does.
      intro hstar
      refine hcount ?_
      rw [List.head?_take] at hstar
      split at hstar
      · simp only [reduceCtorEq] at hstar
      · exact hstar

/-- A step of an idle framer finds the same command, or begins the same array. -/
theorem stepIdle_holds (buffer : Bytes) :
    ∃ step, stepIdle { buffer } = .ok step ∧
      StepHolds step (Framer.stepIdle ⟨buffer, .idle⟩) := by
  unfold stepIdle Framer.stepIdle
  cases buffer with
  | nil => exact ⟨_, rfl, .rest (.idle [])⟩
  | cons first rest =>
      have hidle := Holds.idle (first :: rest)
      by_cases hstar : first = 42
      · simp only [if_pos hstar, Places.array_eq, Checked.ok_bind]
        rcases harray : wholeArray (first :: rest) with e | _ | ⟨values, size⟩
        · exact ⟨_, rfl, .refuse hidle rfl (wholeArray_ne_nameless harray)⟩
        · -- The array is not buffered whole, so its header is read by itself.
          simp only [Except.map, Option.map_none,
            Places.boundedLine_eq (Nat.zero_le _), List.drop_zero, Checked.ok_bind]
          rcases hline : lineAt (first :: rest) with e | _ | line
          · exact ⟨_, rfl, .refuse hidle rfl (lineAt_ne_nameless hline)⟩
          · exact ⟨_, rfl, .rest hidle⟩
          · have hfind := lineAt_eq_some hline
            have hsize := findLine_size hfind
            simp only [Option.map_some, Places.ends, Nat.zero_add, Places.front_line hfind,
              Checked.ok_bind]
            cases hheader : arrayHeader line.content with
            | error e => exact ⟨_, rfl, .refuse hidle rfl (arrayHeader_ne_nameless hheader)⟩
            | ok declared =>
                have hpos := arrayHeader_pos hheader
                refine ⟨_, rfl, .next (.awaitingLength rfl ?_)⟩
                exact ⟨hsize.2, by rw [hstar]; rfl, hpos, arrayHeader_le hheader, hpos,
                  Nat.zero_le _, fun _ => rfl, rfl⟩
        · rcases Places.wholeArray_size harray with ⟨hsize, name, args, rfl, hcount⟩
          exact complete_holds { buffer := first :: rest, cursor := size } ⟨first :: rest, .idle⟩
            rfl hsize rfl rfl rfl name args (fun _ => hcount)
      · simp only [if_neg hstar, Places.boundedLine_eq (Nat.zero_le _), List.drop_zero,
          Checked.ok_bind]
        rcases hline : lineAt (first :: rest) with e | _ | line
        · exact ⟨_, rfl, .refuse hidle rfl (lineAt_ne_nameless hline)⟩
        · exact ⟨_, rfl, .rest hidle⟩
        · have hfind := lineAt_eq_some hline
          have hsize := findLine_size hfind
          have hcommand := complete_holds { buffer := first :: rest, cursor := line.size }
            ⟨first :: rest, .idle⟩ rfl hsize.2 rfl rfl rfl
          have hhead : (first :: rest).head? = some 42 → False := by simpa using hstar
          simp only [Except.map, Option.map_some, Places.ends, Nat.zero_add,
            Places.front_line hfind, Checked.ok_bind]
          by_cases hblank : line.content.all isBlankByte = true
          · simp only [if_pos hblank, Checked.behind_eq_ok hsize.2, Checked.ok_bind]
            exact ⟨_, rfl, .next (.idle _)⟩
          · simp only [if_neg hblank, completeInline, finishInline]
            cases Text.asciiWords (Text.ofBytes line.content) with
            | nil => exact hcommand "" [] (fun h => (hhead h).elim)
            | cons name args => exact hcommand name args (fun h => (hhead h).elim)

/-- A length that is awaited is read from the cursor on, and found in the same place. -/
theorem stepLength_holds (hphase : registers.phase = .awaitingLength) (begun : registers.Begun) :
    ∃ step, registers.stepLength = .ok step ∧
      StepHolds step (Framer.step ⟨registers.buffer,
        .awaitingLength registers.cursor registers.declared registers.collected⟩) := by
  have hcursor := begun.cursor_le
  have hheld := Holds.awaitingLength hphase begun
  unfold stepLength
  simp only [Places.boundedLine_eq hcursor, Checked.ok_bind, Framer.step, Framer.unread,
    Framer.cursor]
  rcases hline : lineAt (registers.buffer.drop registers.cursor) with e | _ | line
  · exact ⟨_, rfl, .refuse hheld begun.unready (lineAt_ne_nameless hline)⟩
  · exact ⟨_, rfl, .rest hheld⟩
  · have hfind := lineAt_eq_some hline
    have hsize := findLine_size hfind
    rw [List.length_drop] at hsize
    simp only [Except.map, Option.map_some, Places.ends, Places.slice_line hcursor hfind,
      Checked.ok_bind]
    cases hheader : bulkHeader line.content with
    | error e => exact ⟨_, rfl, .refuse hheld begun.unready (bulkHeader_ne_nameless hheader)⟩
    | ok length =>
        refine ⟨_, rfl, .next (.awaitingValue rfl ?_)⟩
        exact { begun with
          cursor_le := by simp only; omega
          elementLength_le := bulkHeader_le hheader }

-- The element goes behind those that were read: the first one is the name.
theorem collect_eq (begun : registers.Begun) (value : String) :
    ∃ name args, Places.collect registers.name registers.args value = (some name, args) ∧
      name :: args = registers.collected ++ [value] := by
  cases hname : registers.name with
  | none =>
      have hargs := begun.named hname
      exact ⟨value, registers.args, rfl, by simp [collected, hname, hargs]⟩
  | some name => exact ⟨name, registers.args ++ [value], rfl, by simp [collected, hname]⟩

/-- A value that is awaited is read from the cursor on, if all of it is there. -/
theorem stepValue_holds (hphase : registers.phase = .awaitingValue) (begun : registers.Begun) :
    ∃ step, registers.stepValue = .ok step ∧
      StepHolds step (Framer.step ⟨registers.buffer,
        .awaitingValue registers.cursor registers.declared registers.collected
          registers.elementLength⟩) := by
  have hheld := Holds.awaitingValue hphase begun
  unfold stepValue
  simp only [Places.value_eq, Checked.ok_bind, Framer.step, Framer.unread, Framer.cursor]
  rcases hvalue : bulkValue registers.elementLength (registers.buffer.drop registers.cursor) with
    e | _ | value
  · exact ⟨_, rfl, .refuse hheld begun.unready (bulkValue_ne_nameless hvalue)⟩
  · exact ⟨_, rfl, .rest hheld⟩
  · have hsize := bulkValue_eq_some hvalue
    have hcursor := begun.cursor_le
    have hending : crlf.length = 2 := rfl
    rw [List.length_drop, hending] at hsize
    rcases collect_eq begun value with ⟨name, args, hcollect, hcollected⟩
    have hcount := congrArg List.length hcollected
    rw [List.length_cons] at hcount
    simp only [hcollect, ← hcollected, List.length_cons, hending]
    by_cases hfull : args.length + 1 = registers.declared
    · -- The last element is there, and the name with it.
      simp only [if_pos hfull, finishArray]
      have hend : registers.cursor + registers.elementLength + 2 ≤ registers.buffer.length := by
        omega
      exact complete_holds
        { registers with
          cursor := registers.cursor + registers.elementLength + 2, name := none, args := [] }
        ⟨registers.buffer, _⟩ rfl hend rfl rfl begun.unready name args
        (fun _ => hfull ▸ begun.declared_le)
    · simp only [if_neg hfull]
      have hless := begun.collected_lt
      rw [List.length_append, List.length_singleton] at hcount
      refine ⟨_, rfl, .next (.awaitingLength rfl ?_)⟩
      exact { begun with
        cursor_le := by simp only; omega
        collected_lt := by
          simp only [collected, Option.toList, List.singleton_append, List.length_cons]
          omega
        named := by simp }

/-- A step of registers that hold a framer does what its step does, without a fault. -/
theorem step_holds (h : Holds registers framer) :
    ∃ step, registers.step = .ok step ∧ StepHolds step framer.step := by
  cases h with
  | idle buffer => exact stepIdle_holds buffer
  | awaitingLength hphase begun =>
      simpa only [step, hphase] using stepLength_holds hphase begun
  | awaitingValue hphase begun =>
      simpa only [step, hphase] using stepValue_holds hphase begun
  | complete buffer hcount => exact ⟨_, rfl, .rest (.complete buffer hcount)⟩
  | failed hphase hcursor hready hcollected =>
      refine ⟨_, by simp only [step, hphase]; rfl, ?_⟩
      exact .refuse (.failed hphase hcursor hready hcollected) hready (by decide)

/-! ### Whole operations -/

/-- The registers as a feed leaves them behind. -/
def settled : Except Error Bool × Registers → Registers
  | (.ok _, registers) => registers
  | (.error e, registers) => registers.behindFailure e

/-- Steps of registers that hold a framer come to the same end, within as many as there are unread
    bytes and one more. -/
theorem run_holds (count : Nat) :
    ∀ {registers : Registers} {framer : Framer}, Holds registers framer →
      framer.unread.length < count →
      ∃ last, Registers.run count registers = .ok ((settle (framer.run count)).1, last) ∧
        Holds (settled ((settle (framer.run count)).1, last)) (settle (framer.run count)).2 ∧
        (settle (framer.run count)).1 ≠ .error nameless := by
  induction count with
  | zero => exact fun _ hcount => absurd hcount (Nat.not_lt_zero _)
  | succ count ih =>
      intro registers framer h hcount
      rcases step_holds h with ⟨step, hstep, hholds⟩
      simp only [run, Framer.run, hstep, Checked.ok_bind]
      generalize hframer : framer.step = framerStep at hholds
      cases hholds with
      | next hnext =>
          have hless := step_next_shorter hframer
          exact ih hnext (by omega)
      | rest hrest => exact ⟨_, rfl, hrest, by simp [settle]⟩
      | fail hfail hname => exact ⟨_, rfl, hfail, by simpa [settle] using hname⟩

/-- Bytes are appended to the buffer, whatever is in progress. -/
theorem Holds.append (h : Holds registers framer) (bytes : Bytes) :
    Holds { registers with buffer := registers.buffer ++ bytes }
      { framer with buffer := framer.buffer ++ bytes } := by
  have hbegun : registers.Begun →
      Begun { registers with buffer := registers.buffer ++ bytes } := fun begun =>
    { begun with
      cursor_le := Nat.le_trans begun.cursor_le (by simp)
      star := by simp [List.head?_append, begun.star] }
  cases h with
  | idle buffer => exact .idle (buffer ++ bytes)
  | awaitingLength hphase begun => exact .awaitingLength hphase (hbegun begun)
  | awaitingValue hphase begun => exact .awaitingValue hphase (hbegun begun)
  | complete buffer hcount => exact .complete (buffer ++ bytes) hcount
  | failed hphase hcursor hready hcollected =>
      exact .failed hphase (Nat.le_trans hcursor (by simp)) hready hcollected

-- The bytes that are unread are those behind the cursor.
theorem Holds.unread_length (h : Holds registers framer) (hphase : registers.phase ≠ .failed) :
    framer.unread.length = registers.buffer.length - registers.cursor := by
  cases h with
  | failed hfailed => exact absurd hfailed hphase
  | _ => simp only [Framer.unread, Framer.cursor, List.length_drop]

/-- Registers that hold a framer go on as it does, as far as the bytes allow. -/
theorem advance_holds (h : Holds registers framer) (hphase : registers.phase ≠ .failed) :
    ∃ last, registers.advance = .ok ((settle framer.advance).1, last) ∧
      Holds (settled ((settle framer.advance).1, last)) (settle framer.advance).2 ∧
      (settle framer.advance).1 ≠ .error nameless := by
  unfold advance Framer.advance
  rw [Checked.difference_eq_ok h.sound.cursor_le, Checked.ok_bind, ← h.unread_length hphase]
  exact run_holds _ h (Nat.lt_succ_self _)

/-- A feed of registers that hold a framer answers as its feed does, without a fault. -/
theorem feed_holds (h : Holds registers framer) (bytes : Bytes) :
    ∃ last, registers.feed bytes = .ok ((framer.feed bytes).1, last) ∧
      Holds last (framer.feed bytes).2 ∧ (framer.feed bytes).1 ≠ .error nameless := by
  by_cases hphase : registers.phase = .failed
  · cases h with
    | failed _ hcursor hready hcollected =>
        exact ⟨registers, if_pos hphase, .failed hphase hcursor hready hcollected,
          by simp [Framer.feed, nameless]⟩
    | _ => simp_all
  · have hprogress : framer.progress ≠ .failed := by cases h <;> simp_all
    rw [feed_of_ne_failed hprogress]
    rcases advance_holds (h.append bytes) hphase with ⟨last, hadvance, hholds, hname⟩
    refine ⟨_, ?_, hholds, hname⟩
    unfold feed
    rw [if_neg hphase, hadvance, Checked.ok_bind]
    cases (settle _).1 <;> rfl

/-- What is taken from the framer is taken from the registers. If it came as an array, its words are
    no more than an array may have. -/
theorem take_holds (h : Holds registers framer) :
    registers.take.1 = framer.take.1 ∧ Holds registers.take.2 framer.take.2 ∧
      ∀ command, framer.take.1 = some command → command.raw.head? = some 42 →
        command.args.length + 1 ≤ maxArrayLength := by
  cases h with
  | idle buffer => exact ⟨rfl, .idle buffer, by simp [Framer.take]⟩
  | complete buffer hcount =>
      refine ⟨rfl, .idle buffer, ?_⟩
      intro command hcommand
      rw [← Option.some.inj hcommand]
      exact hcount
  | awaitingLength hphase begun =>
      simp only [take, hphase, reduceCtorEq, if_false, Framer.take]
      exact ⟨trivial, .awaitingLength hphase begun, by simp⟩
  | awaitingValue hphase begun =>
      simp only [take, hphase, reduceCtorEq, if_false, Framer.take]
      exact ⟨trivial, .awaitingValue hphase begun, by simp⟩
  | failed hphase hcursor hready hcollected =>
      simp only [take, hphase, reduceCtorEq, if_false, Framer.take]
      exact ⟨trivial, .failed hphase hcursor hready hcollected, by simp⟩

end Registers

/-! ### Operations one after another -/

/-- What can be asked of a framer. -/
inductive Operation where
  | feed (bytes : Bytes)
  | take
  | reset
  deriving DecidableEq, Repr

/-- What a framer answers. -/
inductive Outcome where
  | fed (result : Except Error Bool)
  | took (command : Option Command)
  | reset
  deriving DecidableEq, Repr

def perform (framer : Framer) : Operation → Outcome × Framer
  | .feed bytes => (.fed (framer.feed bytes).1, (framer.feed bytes).2)
  | .take => (.took framer.take.1, framer.take.2)
  | .reset => (.reset, framer.reset)

/-- Operations one after another, whatever they answer. -/
def performAll : Framer → List Operation → List Outcome × Framer
  | framer, [] => ([], framer)
  | framer, operation :: rest =>
    let (outcome, framer) := framer.perform operation
    let (outcomes, framer) := performAll framer rest
    (outcome :: outcomes, framer)

/-- What a framer may answer: not that an array has no name, and no array of too many elements. -/
def Outcome.Allowed : Outcome → Prop
  | .fed result => result ≠ .error nameless
  | .took (some command) =>
    command.raw.head? = some 42 → command.args.length + 1 ≤ maxArrayLength
  | .took none => True
  | .reset => True

namespace Registers

variable {registers : Registers} {framer : Framer}

def perform (registers : Registers) : Operation → Checked (Outcome × Registers)
  | .feed bytes => do
    let (result, registers) ← registers.feed bytes
    return (.fed result, registers)
  | .take => .ok (.took registers.take.1, registers.take.2)
  | .reset => .ok (.reset, registers.reset)

def performAll : Registers → List Operation → Checked (List Outcome × Registers)
  | registers, [] => .ok ([], registers)
  | registers, operation :: rest => do
    let (outcome, registers) ← registers.perform operation
    let (outcomes, registers) ← performAll registers rest
    return (outcome :: outcomes, registers)

/-- An operation on registers that hold a framer answers as it does on the framer. -/
theorem perform_holds (h : Holds registers framer) (operation : Operation) :
    ∃ last, registers.perform operation = .ok ((framer.perform operation).1, last) ∧
      Holds last (framer.perform operation).2 ∧ (framer.perform operation).1.Allowed := by
  cases operation with
  | feed bytes =>
      rcases feed_holds h bytes with ⟨last, hfeed, hholds, hname⟩
      refine ⟨last, ?_, hholds, hname⟩
      simp only [perform, hfeed, Checked.ok_bind]
      rfl
  | take =>
      rcases take_holds h with ⟨htake, hholds, hcount⟩
      refine ⟨_, by rw [perform, htake]; rfl, hholds, ?_⟩
      simp only [Framer.perform]
      cases hcommand : framer.take.1 with
      | none => trivial
      | some command => exact hcount command hcommand
  | reset => exact ⟨{}, rfl, .idle [], trivial⟩

/-- Operations on registers that hold a framer answer as they do on the framer. -/
theorem performAll_holds (operations : List Operation) :
    ∀ {registers : Registers} {framer : Framer}, Holds registers framer →
      ∃ last, registers.performAll operations = .ok ((framer.performAll operations).1, last) ∧
        Holds last (framer.performAll operations).2 ∧
        ∀ outcome ∈ (framer.performAll operations).1, outcome.Allowed := by
  induction operations with
  | nil => exact fun h => ⟨_, rfl, h, by simp [Framer.performAll]⟩
  | cons operation rest ih =>
      intro registers framer h
      rcases perform_holds h operation with ⟨next, hperform, hnext, hallowed⟩
      rcases ih hnext with ⟨last, hrest, hlast, hallowedAll⟩
      refine ⟨last, ?_, hlast, ?_⟩
      · simp only [performAll, Framer.performAll, hperform, hrest, Checked.ok_bind,
          Checked.pure_eq_ok]
      · simp only [Framer.performAll, List.forall_mem_cons]
        exact ⟨hallowed, hallowedAll⟩

end Registers

/-- Bytes may be fed, commands taken and the framer reset in any order and after any answers: the
    framer can be laid out in registers that are sound at any time. No place that is read is beyond
    the buffer and no difference below zero, no array comes to its end without a name, and no more
    elements are collected than an array may have. -/
theorem performAll_in_registers (operations : List Operation) :
    ∃ registers, Registers.performAll {} operations =
        .ok ((empty.performAll operations).1, registers) ∧
      registers.Holds (empty.performAll operations).2 ∧ registers.Sound ∧
      ∀ outcome ∈ (empty.performAll operations).1, outcome.Allowed := by
  rcases Registers.performAll_holds operations (.idle []) with ⟨last, hall, hholds, hallowed⟩
  exact ⟨last, hall, hholds, hholds.sound, hallowed⟩

end Framer

end KeyValue
