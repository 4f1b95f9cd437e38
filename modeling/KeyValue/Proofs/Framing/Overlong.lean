import KeyValue.Proofs.Framing.Segmentation
import KeyValue.Proofs.Framing.Spelling
import KeyValue.Proofs.Text.Words
import Mathlib.Data.List.Infix
import Mathlib.Data.Nat.Find

/-!
# Lines that are too long

A line without its line feed is refused once more than `maxLineLength` bytes of it are there. A
line with its line feed is taken, however long it is. So for a line that is too long it matters
where the stream is cut, and for nothing else.

`Overrun` says that the bytes delivered so far end in such a line, behind everything that can be
read before it. The first delivery after which this is so settles the matter: the line is refused
there, whatever comes later (`drainAll_of_overrun`). If there is none, the stream is read as it is
in one piece (`drainAll_of_fits`), so that nothing else makes a difference between two ways of
cutting it (`drainAll_eq_of_fits`). For a stream that goes on with a line that is too long both
happen (`drainAll_overlong`): the line is refused if a delivery ends behind more than
`maxLineLength` of its bytes and before its line feed, and it is read like any other line if none
does. A write with such a line can be accepted where it arrives first, and refused where the same
bytes are forwarded to.

## Main definitions

* `Framer.Overrun`, `Framer.Overruns`: What was delivered ends in a line that has grown too long.
* `Framer.CutWithin`: A delivery ends where the line is too long and its line feed is missing.
* `Framer.setLine`: A write in one line, with a value of as many letters as one likes.

## Theorems

* `drainAll_of_overrun`: The first delivery that overruns is refused.
* `drainAll_of_fits`: Without such a delivery it does not matter where the stream is cut.
* `drainAll_eq_of_fits`: So two ways of cutting a stream come to the same without such deliveries.
* `drainAll_overlong`: A line that is too long is refused by some deliveries and read by others.
* `accepts_overlong_write`: So one and the same write is accepted and refused.
-/

namespace KeyValue

namespace Framer

open Wire

/-- The refusal of a line for its length. -/
def tooLong : Error := .protocol "line exceeds maximum length"

/-- Behind these events a line is looked for, its line feed is missing, and there is too much of
    it. -/
structure Overrun (position : Position) (bytes : Bytes) (events : List Event) (last : Position)
    (left : Bytes) : Prop where
  reads : Reads position bytes events last left
  seeks : last.seeksLine = true
  noFeed : findLine left = none
  long : maxLineLength < left.length

/-- The bytes end in a line that has grown too long. -/
def Overruns (position : Position) (bytes : Bytes) : Prop :=
  ∃ events last left, Overrun position bytes events last left

variable {position last : Position} {bytes left more : Bytes} {events : List Event}

/-- An over-long line is refused where it is looked at. -/
theorem Overrun.look (h : Overrun position bytes events last left) :
    Framer.look last left = .refused tooLong := by
  rw [look_of_findLine_none h.seeks h.noFeed, if_pos h.long]
  rfl

/-- A framer that rests waits for no line that has grown too long. -/
theorem not_overruns_of_more (hmore : look position bytes = .more) : ¬ Overruns position bytes := by
  rintro ⟨events, last, left, h⟩
  have hsame := (Reads.here position bytes).unique (Or.inl hmore) h.reads (Or.inr ⟨_, h.look⟩)
  rcases hsame with ⟨-, rfl, rfl⟩
  rw [h.look] at hmore
  cases hmore

-- Whether a line has grown too long is seen from any place in front of it.
theorem overruns_iff_of_reads (h : Reads position bytes events last left) (more : Bytes) :
    Overruns position (bytes ++ more) ↔ Overruns last (left ++ more) := by
  constructor
  · rintro ⟨all, final, rest, hover⟩
    rcases (h.append more).resume hover.reads (Or.inr ⟨_, hover.look⟩) with ⟨later, -, hlater⟩
    exact ⟨later, final, rest, hlater, hover.seeks, hover.noFeed, hover.long⟩
  · rintro ⟨later, final, rest, hover⟩
    exact ⟨_, final, rest, (h.append more).trans hover.reads, hover.seeks, hover.noFeed, hover.long⟩

/-- The first of some deliveries is met together with what is there. -/
theorem append_take_cons (bytes chunk : Bytes) (chunks : List Bytes) (n : Nat) :
    bytes ++ ((chunk :: chunks).take (n + 1)).flatten =
      bytes ++ chunk ++ (chunks.take n).flatten := by
  rw [List.take_succ_cons, List.flatten_cons, List.append_assoc]

-- Behind a delivery that was read, the same lines grow too long as before it.
theorem overruns_behind {chunk : Bytes} (h : Reads position (bytes ++ chunk) events last left)
    (chunks : List Bytes) (n : Nat) :
    Overruns position (bytes ++ ((chunk :: chunks).take (n + 1)).flatten) ↔
      Overruns last (left ++ (chunks.take n).flatten) := by
  rw [append_take_cons, overruns_iff_of_reads h]

-- A refusal is for a line that has grown too long, or it stands whatever comes later.
theorem refused_cases {e : Error} (hreads : Reads position bytes events last left)
    (hrefused : look last left = .refused e) :
    Overrun position bytes events last left ∨
      ∀ more, look last (left ++ more) = .refused e ∧ ¬ Overruns position (bytes ++ more) := by
  by_cases hline : last.seeksLine = true ∧ findLine left = none
  · rcases hline with ⟨hseeks, hnone⟩
    refine .inl ⟨hreads, hseeks, hnone, ?_⟩
    by_contra hshort
    rw [look_of_findLine_none hseeks hnone, if_neg hshort] at hrefused
    cases hrefused
  · refine .inr fun more => ?_
    have hstands : look last (left ++ more) = .refused e := by
      rw [look_append last left more (by simp [hrefused]) (fun hs hn => hline ⟨hs, hn⟩), hrefused]
      rfl
    refine ⟨hstands, fun hover => ?_⟩
    -- Reading stops here, so the line that has grown too long would be here.
    rcases (overruns_iff_of_reads hreads more).mp hover with ⟨_, _, _, h⟩
    have hsame := (Reads.here _ _).unique (.inr ⟨e, hstands⟩) h.reads (.inr ⟨_, h.look⟩)
    rcases hsame with ⟨-, rfl, rfl⟩
    have hnone := (findLine_eq_none_iff _).mp h.noFeed
    exact hline ⟨h.seeks, (findLine_eq_none_iff _).mpr fun hmem =>
      hnone (List.mem_append_left more hmem)⟩

/-- The first delivery after which a line has grown too long is refused, behind the events before
    that line. What comes later does not matter. -/
theorem drainAll_of_overrun (chunks : List Bytes) :
    ∀ (n : Nat) (position : Position) (bytes : Bytes) (events : List Event),
      look position bytes = .more →
      Overrun position (bytes ++ (chunks.take n).flatten) events last left →
      (∀ m < n, ¬ Overruns position (bytes ++ (chunks.take m).flatten)) →
      (framerAt position bytes).drainAll chunks =
        (events ++ [.error tooLong], ⟨last.read ++ left, .failed⟩) := by
  induction chunks with
  | nil =>
      intro n position bytes events hmore hover _
      rw [List.take_nil, List.flatten_nil, List.append_nil] at hover
      exact absurd ⟨_, _, _, hover⟩ (not_overruns_of_more hmore)
  | cons chunk chunks ih =>
      intro n position bytes events hmore hover hfirst
      cases n with
      | zero =>
          rw [List.take_zero, List.flatten_nil, List.append_nil] at hover
          exact absurd ⟨_, _, _, hover⟩ (not_overruns_of_more hmore)
      | succ n =>
          rw [append_take_cons] at hover
          rcases drain_cases position bytes chunk with
            ⟨before, middle, rest, hreads, ⟨hmore', hdrain⟩ | ⟨e, hrefused, hdrain⟩⟩
          · -- The framer rests, and the line is still ahead of it.
            rcases (hreads.append _).resume hover.reads
              (.inr ⟨_, hover.look⟩) with ⟨later, rfl, hlater⟩
            have hrest : ∀ m < n, ¬ Overruns middle (rest ++ (chunks.take m).flatten) := by
              intro m hm hlater
              exact hfirst (m + 1) (by omega) ((overruns_behind hreads chunks m).mpr hlater)
            rw [drainAll_cons_rest hdrain,
              ih n middle rest later hmore' ⟨hlater, hover.seeks, hover.noFeed, hover.long⟩ hrest,
              List.append_assoc]
          · rcases refused_cases hreads hrefused with hnow | hother
            · -- The line is refused in this delivery, so the delivery in question is this one.
              cases n with
              | succ n =>
                  have hbefore := hfirst 1 (by omega)
                  rw [append_take_cons, List.take_zero, List.flatten_nil,
                    List.append_nil] at hbefore
                  exact absurd ⟨_, _, _, hnow⟩ hbefore
              | zero =>
                  rw [List.take_zero, List.flatten_nil, List.append_nil] at hover
                  rcases hreads.unique (.inr ⟨e, hrefused⟩) hover.reads (.inr ⟨_, hover.look⟩)
                    with ⟨rfl, rfl, rfl⟩
                  rw [hover.look, Outlook.refused.injEq] at hrefused
                  rw [drainAll_cons_failed hdrain, hrefused]
            · exact absurd ⟨_, _, _, hover⟩ (hother _).2

/-- If no delivery ends in a line that has grown too long, the deliveries together are one reading
    of the whole stream. -/
theorem drainAll_of_fits (chunks : List Bytes) :
    ∀ (position : Position) (bytes : Bytes), look position bytes = .more →
      (∀ n, ¬ Overruns position (bytes ++ (chunks.take n).flatten)) →
      ∃ events last left, Reads position (bytes ++ chunks.flatten) events last left ∧
        Stops last left ∧
        ((framerAt position bytes).drainAll chunks).1 = (drained events last left).1 ∧
        (look last left = .more →
          ((framerAt position bytes).drainAll chunks).2 = framerAt last left) := by
  induction chunks with
  | nil =>
      intro position bytes hmore _
      refine ⟨[], position, bytes, ?_, .inl hmore, by simp only [drainAll, drained, hmore],
        fun _ => rfl⟩
      rw [List.flatten_nil, List.append_nil]
      exact .here _ _
  | cons chunk chunks ih =>
      intro position bytes hmore hfits
      rw [List.flatten_cons, ← List.append_assoc]
      rcases drain_cases position bytes chunk with
        ⟨before, middle, rest, hreads, ⟨hmore', hdrain⟩ | ⟨e, hrefused, hdrain⟩⟩
      · have hrest : ∀ n, ¬ Overruns middle (rest ++ (chunks.take n).flatten) :=
          fun n hlater => hfits (n + 1) ((overruns_behind hreads chunks n).mpr hlater)
        rcases ih middle rest hmore' hrest with ⟨later, last, left, hlater, hstops, hevents, hends⟩
        rw [drainAll_cons_rest hdrain]
        refine ⟨before ++ later, last, left, (hreads.append _).trans hlater, hstops, ?_, hends⟩
        rw [hevents]
        unfold drained
        split
        · exact (List.append_assoc _ _ _).symm
        · rfl
      · rcases refused_cases hreads hrefused with hnow | hother
        · have hbefore := hfits 1
          rw [append_take_cons, List.take_zero, List.flatten_nil, List.append_nil] at hbefore
          exact absurd ⟨_, _, _, hnow⟩ hbefore
        · -- The refusal stands with the rest of the stream in sight.
          have hstands := (hother chunks.flatten).1
          rw [drainAll_cons_failed hdrain]
          refine ⟨before, middle, rest ++ chunks.flatten, hreads.append _, .inr ⟨e, hstands⟩,
            ?_, ?_⟩
          · rw [drained, hstands]
          · intro hmore
            rw [hstands] at hmore
            cases hmore

/-- Only lines that have grown too long make a difference between two ways of cutting a stream. -/
theorem drainAll_eq_of_fits {chunks chunks' : List Bytes} (hsame : chunks.flatten = chunks'.flatten)
    (hfits : ∀ n, ¬ Overruns .start (chunks.take n).flatten)
    (hfits' : ∀ n, ¬ Overruns .start (chunks'.take n).flatten) :
    (empty.drainAll chunks).1 = (empty.drainAll chunks').1 := by
  rcases drainAll_of_fits chunks .start [] rfl hfits with
    ⟨events, last, left, hreads, hstops, hevents, -⟩
  rcases drainAll_of_fits chunks' .start [] rfl hfits' with
    ⟨events', last', left', hreads', hstops', hevents', -⟩
  rw [List.nil_append] at hreads hreads'
  rcases hreads.unique hstops (hsame ▸ hreads') hstops' with ⟨rfl, rfl, rfl⟩
  exact hevents.trans hevents'.symm

/-- Events that were read before come first, whatever is read later. -/
theorem drained_eq (events : List Event) (position : Position) (bytes : Bytes) :
    drained events position bytes =
      (events ++ (drained [] position bytes).1, (drained [] position bytes).2) := by
  unfold drained
  split
  · rfl
  · rw [List.append_nil]

-- A framer that rests after some deliveries goes on with those that follow.
theorem drainAll_append (before after : List Bytes) :
    ∀ (framer : Framer) (events : List Event) (last : Position) (left : Bytes),
      framer.drainAll before = (events, framerAt last left) →
      framer.drainAll (before ++ after) =
        (events ++ ((framerAt last left).drainAll after).1,
          ((framerAt last left).drainAll after).2) := by
  induction before with
  | nil =>
      intro framer events last left h
      rcases Prod.mk.inj h with ⟨rfl, rfl⟩
      rfl
  | cons chunk before ih =>
      intro framer events last left h
      rw [List.cons_append, drainAll]
      rw [drainAll] at h
      generalize framer.drain chunk = drained at h ⊢
      rcases drained with ⟨events', framer'⟩
      simp only at h ⊢
      split at h
      · -- A framer that has failed rests nowhere.
        rename_i hfailed
        rcases Prod.mk.inj h with ⟨-, rfl⟩
        cases last <;> cases hfailed
      · rename_i hrests
        rcases Prod.mk.inj h with ⟨rfl, hlast⟩
        have hrest := ih framer' _ last left (Prod.ext rfl hlast)
        simp only [hrest, List.append_assoc]

-- Two framers that come to the same after a delivery go on in the same way.
theorem drainAll_cons_same {framer framer' drained : Framer} {chunk chunk' : Bytes}
    {before before' events events' : List Event} (h : framer.drain chunk = (events, drained))
    (h' : framer'.drain chunk' = (events', drained)) (hsame : before ++ events = before' ++ events')
    (chunks : List Bytes) :
    before ++ (framer.drainAll (chunk :: chunks)).1 =
        before' ++ (framer'.drainAll (chunk' :: chunks)).1 ∧
      (framer.drainAll (chunk :: chunks)).2 = (framer'.drainAll (chunk' :: chunks)).2 := by
  rw [drainAll, drainAll, h, h']
  simp only
  split
  · exact ⟨hsame, rfl⟩
  · simp only [← List.append_assoc, hsame, and_self]

section Line

variable {before line after : Bytes}

/-- What was delivered when a delivery ends within the line. -/
theorem seen_eq {seen : Bytes} (h : seen <+: before ++ line ++ 10 :: after)
    (hlow : before.length ≤ seen.length) (hhigh : seen.length ≤ before.length + line.length) :
    seen = before ++ line.take (seen.length - before.length) := by
  have htake := List.prefix_iff_eq_take.mp h
  rw [List.append_assoc, List.take_append, List.take_of_length_le hlow,
    List.take_append_of_le_length (by omega)] at htake
  exact htake

-- The part of a line that is there is refused if it is too long, and otherwise more is awaited.
theorem look_part (hseeks : position.seeksLine = true) (hline : 10 ∉ line) (size : Nat) :
    look position (line.take size) =
      if maxLineLength < (line.take size).length then .refused tooLong else .more :=
  look_of_findLine_none hseeks
    ((findLine_eq_none_iff _).mpr fun hmem => hline (List.mem_of_mem_take hmem))

/-- A line behind what was read overruns as soon as more than `maxLineLength` bytes of it are
    there. -/
theorem overruns_seen_iff (hreads : Reads .start before events position [])
    (hseeks : position.seeksLine = true) (hline : 10 ∉ line) (size : Nat) :
    Overruns .start (before ++ line.take size) ↔ maxLineLength < (line.take size).length := by
  have hlook := look_part hseeks hline size
  rw [overruns_iff_of_reads hreads, List.nil_append]
  constructor
  · intro hover
    by_contra hshort
    rw [if_neg hshort] at hlook
    exact not_overruns_of_more hlook hover
  · intro hlong
    refine ⟨[], position, _, .here _ _, hseeks, ?_, hlong⟩
    exact (findLine_eq_none_iff _).mpr fun hmem => hline (List.mem_of_mem_take hmem)

variable {chunks : List Bytes}

-- What was delivered before the line feed of the line overruns only within the line.
theorem not_overruns_seen (hreads : Reads .start before events position [])
    (hseeks : position.seeksLine = true) (hline : 10 ∉ line) {seen : Bytes}
    (hseen : seen <+: before ++ line ++ 10 :: after)
    (hbefore : seen.length ≤ before.length → ¬ Overruns .start seen)
    (hshort : seen.length ≤ before.length + maxLineLength)
    (hhigh : seen.length ≤ before.length + line.length) : ¬ Overruns .start seen := by
  rcases Nat.le_total seen.length before.length with hlow | hlow
  · exact hbefore hlow
  · rw [seen_eq hseen hlow hhigh, overruns_seen_iff hreads hseeks hline, List.length_take]
    omega

-- A framer is not stopped before a place that can be read up to, unless it is by a line that has
-- grown too long.
theorem more_of_reads {seen gap : Bytes} {events' : List Event} {final : Position} {rest : Bytes}
    (hreads : Reads .start (seen ++ gap) events position rest) (hmore : look position rest = .more)
    (hseen : Reads .start seen events' final left) (hstops : Stops final left)
    (hfits : ¬ Overruns .start seen) : look final left = .more := by
  rcases hstops with h | ⟨e, hrefused⟩
  · exact h
  · rcases refused_cases hseen hrefused with hover | hstands
    · exact absurd ⟨_, _, _, hover⟩ hfits
    · have hstands := (hstands gap).1
      rcases hreads.unique (.inl hmore) (hseen.append gap) (.inr ⟨e, hstands⟩) with ⟨-, rfl, rfl⟩
      rw [hmore] at hstands
      cases hstands

end Line

/-- A delivery ends behind more than `maxLineLength` bytes of the line and before its line feed. -/
def CutWithin (before line : Bytes) (chunks : List Bytes) : Prop :=
  ∃ n, before.length + maxLineLength < (chunks.take n).flatten.length ∧
    (chunks.take n).flatten.length ≤ before.length + line.length

section Cut

variable {before line after : Bytes} {chunks : List Bytes}

/-- What was delivered so far is the beginning of the stream. -/
theorem seen_begins (hwhole : chunks.flatten = before ++ line ++ 10 :: after) (n : Nat) :
    (chunks.take n).flatten <+: before ++ line ++ 10 :: after :=
  hwhole ▸ (List.take_prefix n chunks).flatten

-- Later deliveries come behind earlier ones.
theorem seen_mono {m n : Nat} (h : m ≤ n) :
    (chunks.take m).flatten.length ≤ (chunks.take n).flatten.length :=
  (List.take_prefix_take_left h).flatten.length_le

-- One of the deliveries goes beyond a place within the stream.
theorem exists_crossing (chunks : List Bytes) :
    ∀ place : Nat, place < chunks.flatten.length →
      ∃ arrived chunk later, chunks = arrived ++ chunk :: later ∧
        arrived.flatten.length ≤ place ∧ place < (arrived.flatten ++ chunk).length := by
  induction chunks with
  | nil => intro place h; simp at h
  | cons chunk chunks ih =>
      intro place h
      by_cases hnow : place < chunk.length
      · exact ⟨[], chunk, chunks, rfl, Nat.zero_le _, hnow⟩
      · rw [List.flatten_cons, List.length_append] at h
        rcases ih (place - chunk.length) (by omega) with
          ⟨arrived, next, later, rfl, hbefore, hbehind⟩
        refine ⟨chunk :: arrived, next, later, rfl, ?_, ?_⟩
        · rw [List.flatten_cons, List.length_append]
          omega
        · rw [List.flatten_cons, List.append_assoc, List.length_append]
          omega

-- The first delivery behind more than `maxLineLength` bytes of the line refuses it.
theorem drainAll_cutWithin (hreads : Reads .start before events position [])
    (hseeks : position.seeksLine = true) (hline : 10 ∉ line)
    (hwhole : chunks.flatten = before ++ line ++ 10 :: after)
    (hfits : ∀ n, (chunks.take n).flatten.length ≤ before.length →
      ¬ Overruns .start (chunks.take n).flatten) (hcut : CutWithin before line chunks) :
    ∃ part, part <+: line ∧ maxLineLength < part.length ∧
      empty.drainAll chunks = (events ++ [.error tooLong], ⟨position.read ++ part, .failed⟩) := by
  rcases hcut with ⟨n, hlow, hhigh⟩
  have hover : Overruns .start (chunks.take n).flatten := by
    rw [seen_eq (seen_begins hwhole n) (by omega) hhigh, overruns_seen_iff hreads hseeks hline,
      List.length_take]
    omega
  have hleast : ∃ m, Overruns .start (chunks.take m).flatten ∧
      ∀ k < m, ¬ Overruns .start (chunks.take k).flatten := by
    classical
    have hsome : ∃ m, Overruns .start (chunks.take m).flatten := ⟨n, hover⟩
    exact ⟨Nat.find hsome, Nat.find_spec hsome, fun k => Nat.find_min hsome⟩
  rcases hleast with ⟨m, hover, hfirst⟩
  have hmn : m ≤ n := Nat.le_of_not_lt fun hlt => hfirst n hlt ‹_›
  have hbehind : before.length < (chunks.take m).flatten.length :=
    Nat.lt_of_not_le fun hle => hfits m hle hover
  have hseen := seen_eq (seen_begins hwhole m) (by omega)
    (Nat.le_trans (seen_mono hmn) hhigh)
  have hlong := hover
  rw [hseen, overruns_seen_iff hreads hseeks hline] at hlong
  have hpart := look_part hseeks hline ((chunks.take m).flatten.length - before.length)
  rw [if_pos hlong] at hpart
  rcases hover with ⟨_, _, _, h⟩
  have hreads := hreads.append (line.take ((chunks.take m).flatten.length - before.length))
  rw [← hseen, List.nil_append] at hreads
  rcases hreads.unique (.inr ⟨_, hpart⟩) h.reads (.inr ⟨_, h.look⟩) with ⟨rfl, rfl, rfl⟩
  exact ⟨_, List.take_prefix _ _, hlong,
    drainAll_of_overrun chunks m .start [] _ rfl h hfirst⟩

-- The framer rests while no delivery overruns and the line feed of the line is still to come.
theorem drainAll_arrived (hreads : Reads .start before events position [])
    (hseeks : position.seeksLine = true) (hline : 10 ∉ line)
    (hbegins : chunks.flatten <+: before ++ line ++ 10 :: after)
    (hhigh : chunks.flatten.length ≤ before.length + line.length)
    (hquiet : ∀ n, ¬ Overruns .start (chunks.take n).flatten) :
    ∃ events' last left, Reads .start chunks.flatten events' last left ∧
      empty.drainAll chunks = (events', framerAt last left) := by
  rcases drainAll_of_fits chunks .start [] rfl hquiet with
    ⟨events', last, left, hseen, hstops, hevents, hrests⟩
  rw [List.nil_append] at hseen
  have hall := hquiet chunks.length
  rw [List.take_length] at hall
  have hmore : look last left = .more := by
    rcases Nat.le_total chunks.flatten.length before.length with hle | hle
    · rw [List.append_assoc] at hbegins
      rcases List.prefix_of_prefix_length_le hbegins (List.prefix_append _ _) hle with ⟨gap, rfl⟩
      exact more_of_reads hreads (look_of_findLine_none hseeks rfl) hseen hstops hall
    · have hpart : ∃ size, chunks.flatten = before ++ line.take size :=
        ⟨_, seen_eq hbegins hle hhigh⟩
      rcases hpart with ⟨size, hpart⟩
      rw [hpart] at hseen hall
      have hlook := look_part hseeks hline size
      rw [if_neg fun hlong => hall ((overruns_seen_iff hreads hseeks hline size).mpr hlong)]
        at hlook
      have hreads := hreads.append (line.take size)
      rw [← List.append_nil (before ++ line.take size)] at hreads
      exact more_of_reads hreads hlook hseen hstops hall
  refine ⟨events', last, left, hseen, Prod.ext ?_ (hrests hmore)⟩
  rw [drained, hmore] at hevents
  exact hevents

-- A framer that has read some of the stream and one that has read another part of it go on in the
-- same way once both have the same bytes.
theorem drainAll_meets {seen chunk first : Bytes} {events' : List Event} {last : Position}
    {left rest : Bytes} (hseen : Reads .start seen events' last left)
    (hreads : Reads .start before events position rest) (hsame : seen ++ chunk = before ++ first)
    (later : List Bytes) :
    events' ++ ((framerAt last left).drainAll (chunk :: later)).1 =
        events ++ ((framerAt position rest).drainAll (first :: later)).1 ∧
      ((framerAt last left).drainAll (chunk :: later)).2 =
        ((framerAt position rest).drainAll (first :: later)).2 := by
  rcases drain_framerAt last left chunk with ⟨events₁, last₁, left₁, hreads₁, hstops₁, hdrain₁⟩
  rcases drain_framerAt position rest first with ⟨events₂, last₂, left₂, hreads₂, hstops₂, hdrain₂⟩
  have hboth := (hseen.append chunk).trans hreads₁
  rw [hsame] at hboth
  rcases hboth.unique hstops₁ ((hreads.append first).trans hreads₂) hstops₂ with ⟨hevents, rfl, rfl⟩
  rw [drained_eq] at hdrain₁ hdrain₂
  exact drainAll_cons_same hdrain₁ hdrain₂
    (by rw [← List.append_assoc, hevents, List.append_assoc]) later

-- A delivery that goes beyond a place completes some of what comes behind it.
theorem exists_first {seen behind : Bytes} {chunk : Bytes} {later : List Bytes}
    (h : seen ++ (chunk :: later).flatten = before ++ behind)
    (hbehind : before.length ≤ (seen ++ chunk).length) :
    ∃ first, seen ++ chunk = before ++ first ∧ first ++ later.flatten = behind := by
  rw [List.flatten_cons, ← List.append_assoc] at h
  rcases List.prefix_of_prefix_length_le (h ▸ List.prefix_append before behind)
    (List.prefix_append (seen ++ chunk) later.flatten) hbehind with ⟨first, hfirst⟩
  refine ⟨first, hfirst.symm, ?_⟩
  rw [← hfirst, List.append_assoc] at h
  exact List.append_cancel_left h

-- Bytes that go beyond a line have its line feed.
theorem lineAt_of_beyond {first more : Bytes} (hline : 10 ∉ line)
    (h : first ++ more = line ++ 10 :: after) (hbeyond : line.length < first.length) :
    lineAt first = .ok (some ⟨stripReturn line, line.length + 1⟩) := by
  have hfeed : line ++ [10] <+: line ++ 10 :: after := ⟨after, by simp⟩
  rcases List.prefix_of_prefix_length_le hfeed (h ▸ List.prefix_append first more)
    (by rw [List.length_append, List.length_singleton]; omega) with ⟨rest, rfl⟩
  rw [List.append_assoc, List.singleton_append]
  exact lineAt_of_findLine (findLine_line line rest hline)

-- If no delivery refuses the line, one of them brings its line feed to a framer that rests.
theorem drainAll_notCutWithin (hreads : Reads .start before events position [])
    (hseeks : position.seeksLine = true) (hline : 10 ∉ line)
    (hwhole : chunks.flatten = before ++ line ++ 10 :: after)
    (hfits : ∀ n, (chunks.take n).flatten.length ≤ before.length →
      ¬ Overruns .start (chunks.take n).flatten) (hcut : ¬ CutWithin before line chunks) :
    ∃ first later, first ++ later.flatten = line ++ 10 :: after ∧
      lineAt first = .ok (some ⟨stripReturn line, line.length + 1⟩) ∧
      empty.drainAll chunks = (events ++ ((framerAt position []).drainAll (first :: later)).1,
        ((framerAt position []).drainAll (first :: later)).2) := by
  have hend : before.length + line.length < chunks.flatten.length := by
    rw [hwhole]
    simp only [List.length_append, List.length_cons]
    omega
  rcases exists_crossing chunks _ hend with ⟨arrived, chunk, later, rfl, hbefore, hbehind⟩
  have htake : ∀ n, (arrived ++ chunk :: later).take (min n arrived.length) = arrived.take n := by
    intro n
    rw [List.take_append_of_le_length (Nat.min_le_right _ _), ← List.take_eq_take_min]
  have hquiet : ∀ n, ¬ Overruns .start (arrived.take n).flatten := by
    intro n
    have hhigh : (arrived.take n).flatten.length ≤ before.length + line.length :=
      Nat.le_trans (List.take_prefix n arrived).flatten.length_le hbefore
    have hbegins := seen_begins hwhole (min n arrived.length)
    have hfits := hfits (min n arrived.length)
    rw [htake] at hbegins hfits
    refine not_overruns_seen hreads hseeks hline hbegins hfits ?_ hhigh
    by_contra hlong
    exact hcut ⟨min n arrived.length, htake n ▸ Nat.lt_of_not_le hlong, htake n ▸ hhigh⟩
  have hbegins := seen_begins hwhole (min arrived.length arrived.length)
  rw [htake, List.take_length] at hbegins
  rcases drainAll_arrived hreads hseeks hline hbegins hbefore hquiet with
    ⟨events', last, left, hseen, harrived⟩
  rw [List.flatten_append, List.append_assoc before] at hwhole
  rcases exists_first hwhole (by omega) with ⟨first, hfirst, hrest⟩
  have hlength := congrArg List.length hfirst
  have hfirstLength : (before ++ first).length = before.length + first.length :=
    List.length_append
  refine ⟨first, later, hrest, lineAt_of_beyond hline hrest (by omega), ?_⟩
  rw [drainAll_append arrived _ _ _ _ _ harrived]
  have hmeets := drainAll_meets hseen hreads hfirst later
  exact Prod.ext hmeets.1 hmeets.2

end Cut

/-- A line that is too long, where a line is looked for: a delivery that ends behind more than
    `maxLineLength` bytes of it and before its line feed makes the framer refuse it, behind the
    events before it. If there is no such delivery, the framer takes it like a line that fits. -/
theorem drainAll_overlong {before line after : Bytes} {events : List Event} {position : Position}
    (hreads : Reads .start before events position []) (hseeks : position.seeksLine = true)
    (hline : 10 ∉ line) (chunks : List Bytes)
    (hwhole : chunks.flatten = before ++ line ++ 10 :: after)
    (hfits : ∀ n, (chunks.take n).flatten.length ≤ before.length →
      ¬ Overruns .start (chunks.take n).flatten) :
    (CutWithin before line chunks → ∃ part, part <+: line ∧ maxLineLength < part.length ∧
      empty.drainAll chunks = (events ++ [.error tooLong], ⟨position.read ++ part, .failed⟩)) ∧
    (¬ CutWithin before line chunks → ∃ first later, first ++ later.flatten = line ++ 10 :: after ∧
      lineAt first = .ok (some ⟨stripReturn line, line.length + 1⟩) ∧
      empty.drainAll chunks = (events ++ ((framerAt position []).drainAll (first :: later)).1,
        ((framerAt position []).drainAll (first :: later)).2)) :=
  ⟨drainAll_cutWithin hreads hseeks hline hwhole hfits,
    drainAll_notCutWithin hreads hseeks hline hwhole hfits⟩

-- A line of letters, one more than fit, with its line feed in a delivery of its own.
theorem drainAll_overlong_letters :
    let line : Bytes := List.replicate (maxLineLength + 1) 97
    Reads .start [] [] .start [] ∧ Position.start.seeksLine = true ∧ 10 ∉ line ∧
      ([line, [10]] : List Bytes).flatten = [] ++ line ++ 10 :: [] ∧
      (∀ n, (([line, [10]] : List Bytes).take n).flatten.length ≤ 0 →
        ¬ Overruns .start (([line, [10]] : List Bytes).take n).flatten) ∧
      CutWithin [] line [line, [10]] ∧
      ∃ part, part <+: line ∧ maxLineLength < part.length ∧
        empty.drainAll [line, [10]] = ([.error tooLong], ⟨part, .failed⟩) := by
  intro line
  have hline : 10 ∉ line := fun hmem => by simpa using List.eq_of_mem_replicate hmem
  have hlength : line.length = maxLineLength + 1 := List.length_replicate
  have hfits : ∀ n, (([line, [10]] : List Bytes).take n).flatten.length ≤ 0 →
      ¬ Overruns .start (([line, [10]] : List Bytes).take n).flatten := by
    intro n hn
    rw [List.length_eq_zero_iff.mp (Nat.le_zero.mp hn)]
    exact not_overruns_of_more rfl
  have hcut : CutWithin [] line [line, [10]] :=
    ⟨1, by simp [hlength], by simp⟩
  have hreads := Reads.here .start []
  have hwhole : ([line, [10]] : List Bytes).flatten = [] ++ line ++ 10 :: [] := by simp
  exact ⟨hreads, rfl, hline, hwhole, hfits, hcut,
    (drainAll_overlong hreads rfl hline [line, [10]] hwhole hfits).1 hcut⟩

section Write

/-- The letters of an inline write whose value has `size` letters. -/
def setLetters (size : Nat) : List Char :=
  ['S', 'E', 'T'] ++ ' ' :: (['k'] ++ ' ' :: List.replicate size 'a')

/-- The line that the letters spell. -/
def setLine (size : Nat) : Bytes := Text.bytes (String.ofList (setLetters size))

variable {size : Nat}

/-- The letters of the line are those of the command, the key and its value. -/
theorem mem_setLetters {c : Char} (h : c ∈ setLetters size) :
    c ∈ ['S', 'E', 'T', ' ', 'k', 'a'] := by
  simp only [setLetters, List.mem_append, List.mem_cons, List.mem_replicate] at h
  simp only [List.mem_cons]
  tauto

theorem setLine_letters (size : Nat) :
    (setLine size).map (fun byte => Char.ofNat byte.toNat) = setLetters size :=
  Text.map_bytes_ascii _ fun c hc =>
    (by simp : ∀ c ∈ ['S', 'E', 'T', ' ', 'k', 'a'], c.toNat < 128) c (mem_setLetters hc)

theorem mem_setLine {byte : UInt8} (h : byte ∈ setLine size) :
    Char.ofNat byte.toNat ∈ ['S', 'E', 'T', ' ', 'k', 'a'] := by
  have hletter := List.mem_map_of_mem (f := fun byte => Char.ofNat byte.toNat) h
  rw [setLine_letters] at hletter
  exact mem_setLetters hletter

/-- The line is as long as its value with the six bytes in front of it. -/
theorem length_setLine : (setLine size).length = size + 6 := by
  simpa [setLetters] using congrArg List.length (setLine_letters size)

theorem lineFeed_notMem_setLine : 10 ∉ setLine size :=
  fun h => absurd (mem_setLine h) (by decide)

-- An inline line is read as the words it spells.
theorem look_setLine (hsize : 0 < size) :
    look .start (setLine size ++ [10]) = .found
      (.ok ⟨.set, ["k", String.ofList (List.replicate size 'a')], setLine size ++ [10]⟩) [] := by
  have hcontent : stripReturn (setLine size) = setLine size := by
    rw [stripReturn, if_neg]
    exact fun h => absurd (mem_setLine (List.mem_of_getLast? h)) (by decide)
  have hstart : ∃ rest, setLine size = 83 :: rest := by
    rw [setLine, Text.bytes, String.toList_ofList]
    exact ⟨_, rfl⟩
  rcases hstart with ⟨rest, hstart⟩
  have hletters : ∀ c ∈ List.replicate size 'a', Text.isAsciiBlank c = false := by
    intro c hc
    rw [List.eq_of_mem_replicate hc]
    rfl
  have hsome : List.replicate size 'a' ≠ [] := by
    rw [Ne, List.replicate_eq_nil_iff]
    omega
  have hwords : Text.asciiWords (Text.ofBytes (setLine size)) =
      ["SET", "k", String.ofList (List.replicate size 'a')] := by
    rw [setLine, Text.ofBytes_bytes, Text.asciiWords, String.toList_ofList, setLetters,
      Text.wordsBy_cons (by simp) (by simp [Text.isAsciiBlank]) rfl,
      Text.wordsBy_cons (by simp) (by simp [Text.isAsciiBlank]) rfl,
      Text.wordsBy_word hsome hletters]
    rfl
  have hname : CommandName.ofText? "SET" = some .set :=
    CommandName.ofText?_of_sameWord (beq_self_eq_true _)
  have hmark : (setLine size ++ [10]).head? ≠ some 42 := by
    rw [hstart]
    simp
  have hwritten : ¬ (setLine size).all isBlankByte = true := by
    rw [hstart, List.all_cons]
    simp [isBlankByte, Text.isAsciiBlank]
  have hfind := findLine_line (setLine size) [] lineFeed_notMem_setLine
  simp only [look, lineAt_of_findLine hfind, lookCommand, if_neg hmark, hcontent,
    if_neg hwritten, hwords, eventOf, hname]
  simp

-- In one piece the line is taken, whatever its length.
theorem drainAll_setLine_whole (hsize : 0 < size) :
    (empty.drainAll [setLine size ++ [10]]).1 =
      [.ok ⟨.set, ["k", String.ofList (List.replicate size 'a')], setLine size ++ [10]⟩] := by
  rcases drain_framerAt .start [] (setLine size ++ [10]) with
    ⟨events, last, left, hreads, hstops, hdrain⟩
  have hfound := Reads.event (look_setLine hsize) (.here .start [])
  rcases hreads.unique hstops hfound (.inl rfl) with ⟨rfl, rfl, rfl⟩
  have hrests : (framerAt .start []).drain (setLine size ++ [10]) = ([_], framerAt .start []) :=
    hdrain
  exact congrArg Prod.fst (drainAll_cons_rest hrests [])

-- With its line feed in a piece of its own, a line that is too long is refused.
theorem drainAll_setLine_cut (hlong : maxLineLength < size + 6) :
    (empty.drainAll [setLine size, [10]]).1 = [.error tooLong] := by
  have hover : Overrun .start (setLine size) [] .start (setLine size) :=
    ⟨.here _ _, rfl, (findLine_eq_none_iff _).mpr lineFeed_notMem_setLine,
      length_setLine ▸ hlong⟩
  have hfirst : ∀ m < 1, ¬ Overruns .start
      ([] ++ (([setLine size, [10]] : List Bytes).take m).flatten) := by
    intro m hm
    rw [Nat.lt_one_iff.mp hm]
    exact not_overruns_of_more rfl
  have hrefused := drainAll_of_overrun [setLine size, [10]] 1 .start [] [] rfl
    (by simpa using hover) hfirst
  exact congrArg Prod.fst hrefused

/-- A write whose line is too long is taken if it comes in one piece, with its bytes as they are to
    be forwarded, and the same bytes are refused if their line feed comes in a piece of its own. -/
theorem accepts_overlong_write :
    10 ∉ setLine maxLineLength ∧ maxLineLength < (setLine maxLineLength).length ∧
      (empty.drainAll [setLine maxLineLength ++ [10]]).1 =
        [.ok ⟨.set, ["k", String.ofList (List.replicate maxLineLength 'a')],
          setLine maxLineLength ++ [10]⟩] ∧
      (empty.drainAll [setLine maxLineLength, [10]]).1 = [.error tooLong] :=
  ⟨lineFeed_notMem_setLine, by rw [length_setLine]; omega, drainAll_setLine_whole (by decide),
    drainAll_setLine_cut (by omega)⟩

end Write

end Framer

end KeyValue
