import KeyValue.Proofs.Framing.Refusals

/-!
# Draining comes to an end

A chunk is handled by three loops, one in the other. The innermost one takes steps until a framer
rests or fails. Around it, a framer that has failed is fed again, without bytes and after a reset if
the stream was malformed. The outermost one hands out what is ready and feeds the framer again.

None of the loops has a bound of its own. Here they are relations, which hold of what the loops come
to when they do come to an end, and say how often the framer was fed. They do, whatever bytes come
in (`Between.drains`): every step but the last reads a byte, every feed but the last leaves fewer
bytes in the buffer, and a reset leaves none.

An error does not outlive its bytes. A framer goes on behind it like a fresh one that receives the
bytes that are left, and of a malformed stream none are (`Between.recovers`).

## Main definitions

* `Framer.Advances`: Steps, as long as there may be more to do.
* `Framer.Feeds`: A feed, with all its steps.
* `Framer.Drains`: Feeds, as long as something comes of them, and how many there are.
* `Framer.Between`: A framer as these loops leave it between two chunks.
* `Framer.Recovers`: A framer goes on behind an error like a fresh one.

## Theorems

* `advances_iff`, `feeds_iff`: The inner loops come to the ends that the framer says.
* `Between.round`: What comes of a feed, and that it leaves fewer bytes.
* `Between.drains`: The loops come to an end, after one feed more than there are bytes at most.
* `Between.recovers`: Behind an error a framer is like a fresh one.
-/

namespace KeyValue

namespace Framer

open Wire

variable {framer last last' : Framer} {bytes : Bytes}

/-! ### Steps -/

/-- The steps of a framer, as long as there may be more to do. -/
inductive Advances : Framer → Except Error Unit → Framer → Prop where
  | next {framer next last : Framer} {result : Except Error Unit} (h : framer.step = .next next)
      (later : Advances next result last) : Advances framer result last
  | rest {framer last : Framer} (h : framer.step = .rest last) : Advances framer (.ok ()) last
  | fail {framer last : Framer} {e : Error} (h : framer.step = .fail e last) :
      Advances framer (.error e) last

/-- There is one way to go on. -/
theorem Advances.unique {result result' : Except Error Unit} (h : Advances framer result last)
    (h' : Advances framer result' last') : result = result' ∧ last = last' := by
  induction h with
  | next hstep _ ih =>
      cases h' with
      | next hstep' later => exact ih (Step.next.inj (hstep.symm.trans hstep') ▸ later)
      | rest hstep' => simp [hstep] at hstep'
      | fail hstep' => simp [hstep] at hstep'
  | rest hstep =>
      cases h' with
      | next hstep' => simp [hstep] at hstep'
      | rest hstep' => exact ⟨rfl, Step.rest.inj (hstep.symm.trans hstep')⟩
      | fail hstep' => simp [hstep] at hstep'
  | fail hstep =>
      cases h' with
      | next hstep' => simp [hstep] at hstep'
      | rest hstep' => simp [hstep] at hstep'
      | fail hstep' =>
          rcases Step.fail.inj (hstep.symm.trans hstep') with ⟨rfl, rfl⟩
          exact ⟨rfl, rfl⟩

-- Every step but the last leaves fewer bytes unread.
theorem advances_run (count : Nat) :
    ∀ framer : Framer, framer.unread.length < count →
      Advances framer (run count framer).1 (run count framer).2 := by
  induction count with
  | zero => exact fun _ h => absurd h (Nat.not_lt_zero _)
  | succ count ih =>
      intro framer h
      rw [run]
      cases hstep : framer.step with
      | next next =>
          have hless := step_next_shorter hstep
          exact .next hstep (ih next (by omega))
      | rest last => exact .rest hstep
      | fail e last => exact .fail hstep

/-- The steps of a framer come to an end, in whatever state it is. -/
theorem advances_iff {result : Except Error Unit} :
    Advances framer result last ↔ framer.advance = (result, last) := by
  have hadvances : Advances framer framer.advance.1 framer.advance.2 :=
    advances_run _ framer (Nat.lt_succ_self _)
  constructor
  · intro h
    rcases hadvances.unique h with ⟨hresult, hlast⟩
    rw [← hresult, ← hlast]
  · intro h
    rw [h] at hadvances
    exact hadvances

/-- A feed, with all its steps. -/
inductive Feeds (framer : Framer) (bytes : Bytes) : Except Error Bool → Framer → Prop where
  | failed (h : framer.progress = .failed) :
      Feeds framer bytes (.error (.protocol "framer must be reset after a protocol error")) framer
  | goes {last : Framer} (h : framer.progress ≠ .failed)
      (hadvances : Advances { framer with buffer := framer.buffer ++ bytes } (.ok ()) last) :
      Feeds framer bytes (.ok last.isReady) last
  | fails {last : Framer} {e : Error} (h : framer.progress ≠ .failed)
      (hadvances : Advances { framer with buffer := framer.buffer ++ bytes } (.error e) last) :
      Feeds framer bytes (.error e)
        (if e.isProtocol then { last with progress := .failed } else last)

/-- A feed comes to an end, in whatever state the framer is. -/
theorem feeds_iff {result : Except Error Bool} :
    Feeds framer bytes result last ↔ framer.feed bytes = (result, last) := by
  constructor
  · intro h
    cases h with
    | failed h =>
        simp only [feed, h]
    | goes h hadvances => rw [feed_of_ne_failed h, advances_iff.mp hadvances]; rfl
    | fails h hadvances => rw [feed_of_ne_failed h, advances_iff.mp hadvances]; rfl
  · intro h
    by_cases hfailed : framer.progress = .failed
    · simp only [feed, hfailed, Prod.mk.injEq] at h
      rw [← h.1, ← h.2]
      exact .failed hfailed
    · rw [feed_of_ne_failed hfailed] at h
      rcases hadvance : advance { framer with buffer := framer.buffer ++ bytes } with
        ⟨e | done, after⟩
      · rw [hadvance, settle, Prod.mk.injEq] at h
        rw [← h.1, ← h.2]
        exact .fails hfailed (advances_iff.mpr hadvance)
      · rw [hadvance, settle, Prod.mk.injEq] at h
        rw [← h.1, ← h.2]
        exact .goes hfailed (advances_iff.mpr hadvance)

/-! ### Feeds -/

section Drains

variable {σ : Type}

/-- Feeds, as long as something comes of them: of what is framed the rest of the state is told by
    `handle`, and a malformed stream is forgotten. The number counts the feeds. -/
inductive Drains (handle : σ → Event → σ) : Framer → Bytes → σ → Nat → Framer → σ → Prop where
  | rests {framer last : Framer} {bytes : Bytes} {state : σ}
      (h : Feeds framer bytes (.ok false) last) : Drains handle framer bytes state 1 last state
  | takes {framer full next last : Framer} {bytes : Bytes} {state after : σ} {command : Command}
      {feeds : Nat} (h : Feeds framer bytes (.ok true) full)
      (htake : full.take = (some command, next))
      (later : Drains handle next [] (handle state (.ok command)) feeds last after) :
      Drains handle framer bytes state (feeds + 1) last after
  | misses {framer full next last : Framer} {bytes : Bytes} {state after : σ} {feeds : Nat}
      (h : Feeds framer bytes (.ok true) full) (htake : full.take = (none, next))
      (later : Drains handle next [] state feeds last after) :
      Drains handle framer bytes state (feeds + 1) last after
  | fails {framer failed last : Framer} {bytes : Bytes} {state after : σ} {e : Error} {feeds : Nat}
      (h : Feeds framer bytes (.error e) failed)
      (later : Drains handle (if e.isProtocol then failed.reset else failed) []
        (handle state (.error e)) feeds last after) :
      Drains handle framer bytes state (feeds + 1) last after

variable {handle : σ → Event → σ} {state after after' : σ} {feeds feeds' : Nat}

/-- There is one way to drain a framer. -/
theorem Drains.unique (h : Drains handle framer bytes state feeds last after)
    (h' : Drains handle framer bytes state feeds' last' after') :
    feeds = feeds' ∧ last = last' ∧ after = after' := by
  -- Both begin with the same feed, so they go on in the same way.
  induction h generalizing feeds' with
  | rests hfeed =>
      have hfeed := feeds_iff.mp hfeed
      cases h' with
      | rests hfeed' => exact ⟨rfl, congrArg (·.2) (hfeed.symm.trans (feeds_iff.mp hfeed')), rfl⟩
      | takes hfeed' => simp [feeds_iff.mp hfeed'] at hfeed
      | misses hfeed' => simp [feeds_iff.mp hfeed'] at hfeed
      | fails hfeed' => simp [feeds_iff.mp hfeed'] at hfeed
  | takes hfeed htake _ ih =>
      have hfeed := feeds_iff.mp hfeed
      cases h' with
      | rests hfeed' => simp [feeds_iff.mp hfeed'] at hfeed
      | takes hfeed' htake' later =>
          simp only [feeds_iff.mp hfeed', Prod.mk.injEq, true_and] at hfeed
          simp only [hfeed, htake, Prod.mk.injEq, Option.some.injEq] at htake'
          rcases htake' with ⟨rfl, rfl⟩
          rcases ih later with ⟨rfl, hsame⟩
          exact ⟨rfl, hsame⟩
      | misses hfeed' htake' =>
          simp only [feeds_iff.mp hfeed', Prod.mk.injEq, true_and] at hfeed
          simp [hfeed, htake] at htake'
      | fails hfeed' => simp [feeds_iff.mp hfeed'] at hfeed
  | misses hfeed htake _ ih =>
      have hfeed := feeds_iff.mp hfeed
      cases h' with
      | rests hfeed' => simp [feeds_iff.mp hfeed'] at hfeed
      | takes hfeed' htake' =>
          simp only [feeds_iff.mp hfeed', Prod.mk.injEq, true_and] at hfeed
          simp [hfeed, htake] at htake'
      | misses hfeed' htake' later =>
          simp only [feeds_iff.mp hfeed', Prod.mk.injEq, true_and] at hfeed
          simp only [hfeed, htake, Prod.mk.injEq, true_and] at htake'
          rcases ih (htake' ▸ later) with ⟨rfl, hsame⟩
          exact ⟨rfl, hsame⟩
      | fails hfeed' => simp [feeds_iff.mp hfeed'] at hfeed
  | fails hfeed _ ih =>
      have hfeed := feeds_iff.mp hfeed
      cases h' with
      | rests hfeed' => simp [feeds_iff.mp hfeed'] at hfeed
      | takes hfeed' => simp [feeds_iff.mp hfeed'] at hfeed
      | misses hfeed' => simp [feeds_iff.mp hfeed'] at hfeed
      | fails hfeed' later =>
          simp only [feeds_iff.mp hfeed', Prod.mk.injEq, Except.error.injEq] at hfeed
          rcases hfeed with ⟨rfl, rfl⟩
          rcases ih later with ⟨rfl, hsame⟩
          exact ⟨rfl, hsame⟩

end Drains

/-! ### What comes of a feed -/

/-- What comes of a feed: the framer rests, or has fewer bytes left than there were. -/
inductive Round (framer : Framer) (chunk : Bytes) : Prop where
  | rests {last : Framer} (hfeed : framer.feed chunk = (.ok false, last))
      (habsorb : framer.absorb chunk = ([], last))
      (hbuffered : last.buffered ≤ framer.buffered + chunk.length)
  | takes {command : Command} {rest : Bytes}
      (hfeed : framer.feed chunk = (.ok true, ⟨rest, .complete command⟩))
      (habsorb : framer.absorb chunk =
        (.ok command :: (absorb ⟨rest, .idle⟩ []).1, (absorb ⟨rest, .idle⟩ []).2))
      (hless : rest.length < framer.buffered + chunk.length)
  | skips {e : Error} {rest : Bytes} (hunknown : e.isProtocol = false)
      (hfeed : framer.feed chunk = (.error e, ⟨rest, .idle⟩))
      (habsorb : framer.absorb chunk =
        (.error e :: (absorb ⟨rest, .idle⟩ []).1, (absorb ⟨rest, .idle⟩ []).2))
      (hless : rest.length < framer.buffered + chunk.length)
  | refuses {e : Error} {failed : Framer} (hprotocol : e.isProtocol = true)
      (hfeed : framer.feed chunk = (.error e, failed))
      (habsorb : framer.absorb chunk = ([.error e], empty))
      (hpos : 0 < framer.buffered + chunk.length)

-- Enough feeds are as good as any greater number of them.
theorem drainFor_eq_drain {count : Nat} {position : Position} {bytes chunk : Bytes}
    (h : (bytes ++ chunk).length < count) :
    drainFor count (framerAt position bytes) chunk = (framerAt position bytes).drain chunk := by
  rcases drainFor_framerAt count position bytes chunk h with
    ⟨events, last, left, hreads, hstops, hcount⟩
  rcases drain_framerAt position bytes chunk with ⟨events', last', left', hreads', hstops', hdrain⟩
  rcases hreads.unique hstops hreads' hstops' with ⟨rfl, rfl, rfl⟩
  rw [hcount, hdrain]

-- Nothing is refused as long as there is nothing to read.
theorem look_nil (position : Position) : look position [] = .more := by
  cases position with
  | start => rfl
  | header => rfl
  | value read declared elements length =>
      have : bulkValue length [] = .ok none := by simp [bulkValue]
      simp only [look, this]

-- Bytes are dropped between commands only.
theorem Reads.buffered_le {position last : Position} {bytes left : Bytes}
    (h : Reads position bytes [] last left) :
    (framerAt last left).buffered ≤ (framerAt position bytes).buffered := by
  generalize hevents : ([] : List Event) = events at h
  induction h with
  | here => exact Nat.le_refl _
  | event => simp only [reduceCtorEq] at hevents
  | move hlook _ ih =>
      refine Nat.le_trans (ih hevents) ?_
      rcases look_moved_consumes hlook with ⟨used, hused, rfl, -, hread | ⟨rfl, rfl⟩⟩
      · simp only [buffered, framerAt_buffer, List.length_append, hread]
        omega
      · simp only [buffered, framerAt_buffer, List.length_append, Position.read]
        omega

-- What a feed leaves between two commands is drained on its own.
theorem drainFor_rest {framer : Framer} {chunk rest : Bytes}
    (hless : rest.length < framer.buffered + chunk.length) :
    drainFor (framer.buffered + chunk.length + 1) ⟨rest, .idle⟩ [] = drain ⟨rest, .idle⟩ [] :=
  @drainFor_eq_drain _ .start rest [] (by rw [List.append_nil]; omega)

theorem absorb_of_takes {framer : Framer} {chunk rest : Bytes} {command : Command}
    (hfeed : framer.feed chunk = (.ok true, ⟨rest, .complete command⟩))
    (hless : rest.length < framer.buffered + chunk.length) :
    framer.absorb chunk =
      (.ok command :: (absorb ⟨rest, .idle⟩ []).1, (absorb ⟨rest, .idle⟩ []).2) := by
  rw [absorb, absorb, drain, drainFor, hfeed]
  simp only [take, drainFor_rest hless]
  cases (drain ⟨rest, .idle⟩ []).2.progress <;> rfl

theorem absorb_of_skips {framer : Framer} {chunk rest : Bytes} {e : Error}
    (hunknown : e.isProtocol = false) (hfeed : framer.feed chunk = (.error e, ⟨rest, .idle⟩))
    (hless : rest.length < framer.buffered + chunk.length) :
    framer.absorb chunk =
      (.error e :: (absorb ⟨rest, .idle⟩ []).1, (absorb ⟨rest, .idle⟩ []).2) := by
  rw [absorb, absorb, drain, drainFor, hfeed]
  simp only [hunknown, Bool.false_eq_true, if_false, drainFor_rest hless]
  cases (drain ⟨rest, .idle⟩ []).2.progress <;> rfl

/-- A feed of a framer that rests leaves it at rest, or with fewer bytes than there were. -/
theorem round_framerAt (position : Position) (bytes chunk : Bytes) :
    Round (framerAt position bytes) chunk := by
  have htotal : (framerAt position bytes).buffered + chunk.length =
      (framerAt position (bytes ++ chunk)).buffered := by
    simp only [buffered, framerAt_buffer, List.length_append, Nat.add_assoc]
  rcases feed_framerAt position bytes chunk with ⟨last, left, hreads, hmoved, hfeed⟩
  have hbuffered := hreads.buffered_le
  rw [← htotal] at hbuffered
  cases hlook : look last left with
  | more =>
      simp only [fed, hlook] at hfeed
      refine .rests hfeed ?_ hbuffered
      rw [absorb, drain, drainFor, hfeed]
      cases last <;> rfl
  | moved next rest => exact absurd hlook (hmoved next rest)
  | refused e =>
      simp only [fed, hlook] at hfeed
      have hprotocol := look_isProtocol hlook
      refine .refuses hprotocol hfeed ?_ ?_
      · rw [absorb, drain, drainFor, hfeed]
        simp only [if_pos hprotocol]
        rfl
      · have hleft : left ≠ [] := by
          rintro rfl
          simp only [look_nil, reduceCtorEq] at hlook
        have := List.length_pos_iff.mpr hleft
        simp only [buffered, framerAt_buffer, List.length_append] at hbuffered ⊢
        omega
  | found event rest =>
      have hshort := look_found_shorter hlook
      have hless : rest.length < (framerAt position bytes).buffered + chunk.length := by
        simp only [buffered, framerAt_buffer, List.length_append] at hbuffered ⊢
        omega
      cases event with
      | ok command =>
          simp only [fed, hlook] at hfeed
          exact .takes hfeed (absorb_of_takes hfeed hless) hless
      | error e =>
          simp only [fed, hlook] at hfeed
          rcases look_found_consumes hlook with ⟨_, _, _, _, name, args, hevent⟩
          have hunknown := eventOf_isProtocol hevent.symm
          exact .skips hunknown hfeed (absorb_of_skips hunknown hfeed hless) hless

/-- Draining a framer that rests comes to an end, at what the framer absorbs. Every feed but the
    last leaves fewer bytes in the buffer. -/
theorem drains_framerAt {σ : Type} (handle : σ → Event → σ) (position : Position)
    (bytes chunk : Bytes) (state : σ) :
    ∃ feeds, Drains handle (framerAt position bytes) chunk state feeds
        ((framerAt position bytes).absorb chunk).2
        (((framerAt position bytes).absorb chunk).1.foldl handle state) ∧
      feeds + ((framerAt position bytes).absorb chunk).2.buffered ≤
        (framerAt position bytes).buffered + chunk.length + 1 := by
  induction hlen : (framerAt position bytes).buffered + chunk.length using Nat.strong_induction_on
    generalizing position bytes chunk state with
  | _ n ih =>
      -- What is left behind an event is drained like any other bytes.
      have hlater : ∀ {rest : Bytes} (next : σ), rest.length < n → ∃ feeds,
          Drains handle ⟨rest, .idle⟩ [] next feeds (absorb ⟨rest, .idle⟩ []).2
            ((absorb ⟨rest, .idle⟩ []).1.foldl handle next) ∧
          feeds + (absorb ⟨rest, .idle⟩ []).2.buffered ≤ rest.length + 1 := fun next hless =>
        ih _ hless .start _ [] next rfl
      cases round_framerAt position bytes chunk with
      | rests hfeed habsorb hbuffered =>
          rw [habsorb]
          refine ⟨1, .rests (feeds_iff.mpr hfeed), ?_⟩
          simp only
          omega
      | @takes command rest hfeed habsorb hless =>
          rcases hlater (handle state (.ok command)) (hlen ▸ hless) with ⟨feeds, hdrains, hfeeds⟩
          rw [habsorb]
          refine ⟨feeds + 1, .takes (feeds_iff.mpr hfeed) rfl hdrains, ?_⟩
          simp only
          omega
      | @skips e rest hunknown hfeed habsorb hless =>
          rcases hlater (handle state (.error e)) (hlen ▸ hless) with ⟨feeds, hdrains, hfeeds⟩
          rw [habsorb]
          refine ⟨feeds + 1, .fails (feeds_iff.mpr hfeed) ?_, ?_⟩
          · rwa [if_neg (by simp [hunknown])]
          · simp only
            omega
      | refuses hprotocol hfeed habsorb hpos =>
          rw [habsorb]
          refine ⟨2, .fails (feeds_iff.mpr hfeed) (.rests ?_), ?_⟩
          · rw [if_pos hprotocol]
            exact feeds_iff.mpr rfl
          · simp only [empty, buffered, List.length_nil]
            omega

/-- Behind every error that comes of a chunk, a framer goes on like a fresh one that receives what
    is left. Behind a malformed stream nothing is, and the framer is a fresh one. -/
def Recovers (framer : Framer) (chunk : Bytes) : Prop :=
  ∀ before e later, (framer.absorb chunk).1 = before ++ .error e :: later →
    (∃ rest, rest.length < framer.buffered + chunk.length ∧
      empty.absorb rest = (later, (framer.absorb chunk).2)) ∧
    (e.isProtocol = true → later = [] ∧ (framer.absorb chunk).2 = empty)

-- It does not matter whether bytes were there before or come in.
theorem absorb_fresh (rest : Bytes) : empty.absorb rest = absorb ⟨rest, .idle⟩ [] := by
  have hfeed : empty.feed rest = feed ⟨rest, .idle⟩ [] := by
    simp only [feed, empty, List.nil_append, List.append_nil]
  have hdrain : empty.drain rest = drain ⟨rest, .idle⟩ [] := by
    simp only [drain, empty, buffered, List.length_nil, Nat.zero_add, Nat.add_zero, drainFor]
    rw [← hfeed]
    rfl
  rw [absorb, absorb, hdrain]

theorem recovers_framerAt (position : Position) (bytes chunk : Bytes) :
    Recovers (framerAt position bytes) chunk := by
  intro before
  induction hlen : (framerAt position bytes).buffered + chunk.length using Nat.strong_induction_on
    generalizing position bytes chunk before with
  | _ n ih =>
      intro e later hevents
      -- An error behind the first event comes of what the first event leaves.
      have hlater : ∀ {rest : Bytes} {before : List Event}, rest.length < n →
          (absorb ⟨rest, .idle⟩ []).1 = before ++ .error e :: later →
          (∃ left, left.length < n ∧ empty.absorb left = (later, (absorb ⟨rest, .idle⟩ []).2)) ∧
            (e.isProtocol = true → later = [] ∧ (absorb ⟨rest, .idle⟩ []).2 = empty) := by
        intro rest before hless hbehind
        rcases ih _ hless .start rest [] before rfl e later hbehind with
          ⟨⟨left, hleft, hsame⟩, hprotocol⟩
        exact ⟨⟨left, Nat.lt_trans hleft hless, hsame⟩, hprotocol⟩
      cases round_framerAt position bytes chunk with
      | rests hfeed habsorb hbuffered => simp [habsorb] at hevents
      | @takes command rest hfeed habsorb hless =>
          rw [habsorb] at hevents ⊢
          rcases before with _ | ⟨first, before⟩
          · simp at hevents
          · exact hlater (hlen ▸ hless) (List.cons.inj hevents).2
      | @skips e' rest hunknown hfeed habsorb hless =>
          rw [habsorb] at hevents ⊢
          rcases before with _ | ⟨first, before⟩
          · rcases List.cons.inj hevents with ⟨hfirst, rfl⟩
            rw [Except.error.inj hfirst] at hunknown
            exact ⟨⟨rest, hlen ▸ hless, absorb_fresh rest⟩, by simp [hunknown]⟩
          · exact hlater (hlen ▸ hless) (List.cons.inj hevents).2
      | refuses hprotocol hfeed habsorb hpos =>
          rw [habsorb] at hevents ⊢
          rcases before with _ | ⟨first, before⟩
          · rcases List.cons.inj hevents with ⟨-, rfl⟩
            exact ⟨⟨[], hlen ▸ hpos, rfl⟩, fun _ => ⟨rfl, rfl⟩⟩
          · simp at hevents

/-! ### Between two chunks -/

/-- A framer as the loops leave it between two chunks, whatever is done with the events. -/
inductive Between : Framer → Prop where
  | fresh : Between empty
  | chunk {framer last : Framer} (h : Between framer) {σ : Type} {handle : σ → Event → σ}
      {chunk : Bytes} {state after : σ} {feeds : Nat}
      (hdrains : Drains handle framer chunk state feeds last after) : Between last

/-- Between two chunks a framer rests at a position. -/
theorem Between.position (h : Between framer) :
    ∃ position bytes, framer = framerAt position bytes := by
  induction h with
  | fresh => exact ⟨.start, [], rfl⟩
  | chunk _ hdrains ih =>
      rcases ih with ⟨position, bytes, rfl⟩
      rcases drains_framerAt _ position bytes _ _ with ⟨feeds, habsorbs, -⟩
      rcases absorb_framerAt position bytes _ with ⟨events, next, left, habsorb, -⟩
      rw [(hdrains.unique habsorbs).2.1]
      exact ⟨next, left, congrArg (·.2) habsorb⟩

/-- Whatever a chunk is, draining it comes to an end. The framer was fed once more than there are
    bytes at most, and the events and the framer are those that it absorbs the chunk with. -/
theorem Between.drains (h : Between framer) {σ : Type} (handle : σ → Event → σ) (chunk : Bytes)
    (state : σ) :
    ∃ feeds, Drains handle framer chunk state feeds (framer.absorb chunk).2
        ((framer.absorb chunk).1.foldl handle state) ∧
      feeds + (framer.absorb chunk).2.buffered ≤ framer.buffered + chunk.length + 1 := by
  rcases h.position with ⟨position, bytes, rfl⟩
  exact drains_framerAt handle position bytes chunk state

theorem Between.recovers (h : Between framer) (chunk : Bytes) : Recovers framer chunk := by
  rcases h.position with ⟨position, bytes, rfl⟩
  exact recovers_framerAt position bytes chunk

theorem Between.absorb (h : Between framer) (chunk : Bytes) :
    Between (framer.absorb chunk).2 := by
  rcases h.drains (fun (_ : Unit) _ => ()) chunk () with ⟨feeds, hdrains, -⟩
  exact .chunk h hdrains

end Framer

end KeyValue
