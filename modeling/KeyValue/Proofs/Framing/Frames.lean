import KeyValue.Proofs.Framing.Segmentation

/-!
# Commands as frames

The bytes of a command that a framer handed out are read as that command and nothing else.

A master forwards the bytes that a command came in, and its replica has to find the same command in
them. A look does not depend on the bytes behind those it consumes, and neither on whether there are
any (`look_consumes`). So the bytes read of a command in progress lead to the position the framer is
at (`Contained`), and all its bytes lead to the command (`framed_of_delivered`). Frames can be put
one behind the other, and are read in that order (`reads_frames`).

## Main definitions

* `Framer.Contained`: A position is reached by the bytes that it has read.
* `Command.Delivered`: The command was handed out by a framer.
* `Command.Framed`: The bytes of the command are read as the command.

## Theorems

* `Reads.framed`: Commands that are read are framed.
* `framed_of_delivered`: Commands that are handed out are framed.
* `ShortLines.append`: Lines stay short in front of bytes with short lines.
* `reads_frames`, `shortLines_frames`: Frames one behind the other.
-/

namespace KeyValue

namespace Framer

/-- A position is reached by the bytes that it has read. -/
def Contained (position : Position) : Prop := Reads .start position.read [] position []

end Framer

namespace Command

open Framer

/-- The command was handed out by a framer that was drained piece by piece. -/
def Delivered (command : Command) : Prop :=
  ∃ chunks, .ok command ∈ (Framer.empty.drainAll chunks).1

/-- The bytes of the command are read as the command and nothing else. -/
def Framed (command : Command) : Prop := Reads .start command.raw [.ok command] .start []

end Command

namespace Framer

open Wire

/-- Reading on from a position that is reached by what it has read leads to commands that are
    framed, and to another such position. -/
theorem Reads.framed {position last : Position} {bytes left : Bytes} {events : List Event}
    (h : Reads position bytes events last left) (hcontained : Contained position) :
    Contained last ∧ ∀ command, .ok command ∈ events → command.Framed := by
  induction h with
  | here => exact ⟨hcontained, fun command hmem => by simp at hmem⟩
  | @move position next _ bytes rest _ _ hlook _ ih =>
      rcases look_moved_consumes hlook with ⟨used, _, _, hused, hread | ⟨_, rfl⟩⟩
      · -- A part of a command: the next position is reached by what was read before, and `used`.
        refine ih ?_
        unfold Contained at hcontained ⊢
        rw [hread]
        exact (hcontained.append used).trans (.move hused (.here _ _))
      · exact ih (.here _ _)
  | @event position _ bytes rest _ event _ hlook _ ih =>
      rcases look_found_consumes hlook with ⟨used, _, _, hused, name, args, hevent⟩
      rcases ih (.here _ _) with ⟨hlast, hframed⟩
      refine ⟨hlast, ?_⟩
      intro command hmem
      rcases List.mem_cons.mp hmem with heq | hlater
      · -- The bytes of the command are what was read of it before, and `used`.
        have hraw := eventOf_raw (hevent.symm.trans heq.symm)
        unfold Command.Framed
        rw [hraw, heq]
        exact (hcontained.append used).trans (.event hused (.here _ _))
      · exact hframed command hlater

-- A framer that rests where it was led by what it has read hands out framed commands.
theorem framed_of_drainAll (chunks : List Bytes) :
    ∀ (position : Position) (bytes : Bytes), Contained position →
      ∀ command, .ok command ∈ ((framerAt position bytes).drainAll chunks).1 →
        command.Framed := by
  induction chunks with
  | nil =>
      intro position bytes _ command hmem
      simp [drainAll] at hmem
  | cons chunk chunks ih =>
      intro position bytes hcontained command hmem
      rcases drain_framerAt position bytes chunk with ⟨events, last, left, hreads, _, hdrain⟩
      rcases hreads.framed hcontained with ⟨hlast, hframed⟩
      unfold drained at hdrain
      -- A refusal is no command, and no piece is taken after it.
      split at hdrain
      · rw [drainAll_cons_failed hdrain, List.mem_append] at hmem
        rcases hmem with hmem | hmem
        · exact hframed command hmem
        · simp at hmem
      · rw [drainAll_cons_rest hdrain, List.mem_append] at hmem
        rcases hmem with hmem | hmem
        · exact hframed command hmem
        · exact ih last left hlast command hmem

/-- Commands that are handed out are framed. -/
theorem framed_of_delivered {command : Command} (h : command.Delivered) : command.Framed := by
  rcases h with ⟨chunks, hmem⟩
  exact framed_of_drainAll chunks .start [] (.here _ _) command hmem

/-- A line that is there is as short with bytes behind it. -/
theorem LineFits.append {position : Position} {bytes : Bytes} (h : LineFits position bytes)
    (hlook : look position bytes ≠ .more ∧ ∀ e, look position bytes ≠ .refused e) (more : Bytes) :
    LineFits position (bytes ++ more) := by
  intro hseek line hline
  cases hfind : findLine bytes with
  | none =>
      -- Without its line a look gets nowhere.
      have hstuck := look_of_findLine_none hseek hfind
      split at hstuck
      · exact absurd hstuck (hlook.2 _)
      · exact absurd hstuck hlook.1
  | some found =>
      rw [findLine_append hfind more, Option.some.injEq] at hline
      rw [← hline]
      exact h hseek found hfind

/-- Lines stay short in front of bytes whose lines are short. -/
theorem ShortLines.append {position : Position} {bytes more : Bytes} {events : List Event}
    (hreads : Reads position bytes events .start []) (hshort : ShortLines position bytes)
    (hmore : ShortLines .start more) : ShortLines position (bytes ++ more) := by
  -- The induction follows the reading of the bytes in front; a line behind them is one of `more`.
  generalize hlast : Position.start = last at hreads
  generalize hleft : ([] : Bytes) = left at hreads
  induction hreads with
  | here position bytes =>
      rw [← hlast, ← hleft, List.nil_append]
      exact hmore
  | @move position next _ bytes rest _ _ hlook later ih =>
      have hrest := ih (hshort.of_reads (.move hlook (.here _ _))) hlast hleft
      intro events' last' left' hreads'
      cases hreads' with
      | here => exact LineFits.append (hshort _ _ _ (.here _ _)) (by simp [hlook]) more
      | move hlook' later' =>
          rw [look_moved_append hlook more] at hlook'
          rcases Outlook.moved.inj hlook' with ⟨rfl, rfl⟩
          exact hrest _ _ _ later'
      | event hlook' =>
          rw [look_moved_append hlook more] at hlook'
          simp only [reduceCtorEq] at hlook'
  | @event position _ bytes rest _ event _ hlook later ih =>
      have hrest := ih (hshort.of_reads (.event hlook (.here _ _))) hlast hleft
      intro events' last' left' hreads'
      cases hreads' with
      | here => exact LineFits.append (hshort _ _ _ (.here _ _)) (by simp [hlook]) more
      | move hlook' =>
          rw [look_found_append hlook more] at hlook'
          simp only [reduceCtorEq] at hlook'
      | event hlook' later' =>
          rw [look_found_append hlook more] at hlook'
          rcases Outlook.found.inj hlook' with ⟨rfl, rfl⟩
          exact hrest _ _ _ later'

-- Bytes that are read to where more are missing are not refused.
theorem Reads.not_refused {position last : Position} {bytes left : Bytes} {events : List Event}
    (h : Reads position bytes events last left) (hmore : look last left = .more) {e : Error} :
    look position bytes ≠ .refused e := by
  intro hrefused
  cases h with
  | here => simp only [hrefused, reduceCtorEq] at hmore
  | move hlook => simp only [hrefused, reduceCtorEq] at hlook
  | event hlook => simp only [hrefused, reduceCtorEq] at hlook

/-- Frames one behind the other are read in order. -/
theorem reads_frames (commands : List Command) (h : ∀ command ∈ commands, command.Framed) :
    Reads .start (commands.flatMap (·.raw)) (commands.map .ok) .start [] := by
  induction commands with
  | nil => exact .here _ _
  | cons command rest ih =>
      have hrest := ih fun other hother => h other (List.mem_cons_of_mem _ hother)
      exact ((h command List.mem_cons_self).append _).trans hrest

/-- Frames with short lines have short lines one behind the other. -/
theorem shortLines_frames (commands : List Command) (h : ∀ command ∈ commands, command.Framed)
    (hshort : ∀ command ∈ commands, ShortLines .start command.raw) :
    ShortLines .start (commands.flatMap (·.raw)) := by
  induction commands with
  | nil => exact .of_length_le _ (by simp)
  | cons command rest ih =>
      have hrest := ih (fun other hother => h other (List.mem_cons_of_mem _ hother))
        fun other hother => hshort other (List.mem_cons_of_mem _ hother)
      exact .append (h command List.mem_cons_self) (hshort command List.mem_cons_self) hrest

end Framer

end KeyValue
