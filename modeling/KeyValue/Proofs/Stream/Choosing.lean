import KeyValue.Proofs.Stream.Growth
import Mathlib.Order.Bounds.Basic

/-!
# The id that a stream chooses

A request for a new entry leaves open which id the entry gets, more or less: the sequence, or the
milliseconds as well, or nothing. Of the ids that the request allows, those are legal that lie above
the least one and above the last entry. The stream takes the least legal one, and refuses the
request exactly if there is none (`nextId_isLeast`).

Three kinds of requests come down to two searches. One is for a single id; the other is within some
milliseconds, which are given or are those of the present (`nextIn_finds`). Since the sequence that
follows the last one of 64 bits does not exist, the second search may end without an id.

## Main definitions

* `Stream.Grown`: A stream that was built by adding entries.
* `Stream.presentMs`: The milliseconds that a stream takes for the present.
* `IdRequest.Allows`: The ids that a request allows.
* `Stream.Legal`: The ids that a new entry may get.
* `StreamId.Finds`: A result is the least id with a property, or there is none.

## Theorems

* `Grown.increasing`: The ids of a stream increase.
* `nextIn_finds`, `nextId_finds`: What the two searches find.
* `nextId_isLeast`: The id of a new entry is the least legal one.
-/

namespace KeyValue

namespace StreamId

theorem le_refl (id : StreamId) : id ≤ id := .inr ⟨rfl, UInt64.le_refl id.seq⟩

theorem le_antisymm {a b : StreamId} (h : a ≤ b) (h' : b ≤ a) : a = b := by
  rcases a with ⟨ms, seq⟩
  rcases b with ⟨ms', seq'⟩
  simp only [le_def, UInt64.lt_iff_toNat_lt, UInt64.le_iff_toNat_le, ← UInt64.toNat_inj] at h h'
  rw [mk.injEq, ← UInt64.toNat_inj, ← UInt64.toNat_inj]
  omega

-- What lies above an id is at least the id with the next sequence.
theorem next_le {top id : StreamId} (h : top < id) (hms : id.ms = top.ms) :
    top.seq ≠ maxPart ∧ (⟨top.ms, top.seq + 1⟩ : StreamId) ≤ id := by
  have hmax : maxPart.toNat = 18446744073709551615 := rfl
  have hseq := id.seq.toNat_lt
  simp only [lt_def, le_def, ne_eq, UInt64.lt_iff_toNat_lt, UInt64.le_iff_toNat_le,
    ← UInt64.toNat_inj, hmax, UInt64.toNat_add] at *
  simp
  omega

/-- The result is the least id with a property, or a refusal if there is no such id. -/
inductive Finds (p : StreamId → Prop) : Except Error StreamId → Prop where
  | least {id : StreamId} (h : IsLeast {id | p id} id) : Finds p (.ok id)
  | none {e : Error} (h : ∀ id, ¬ p id) : Finds p (.error e)

namespace Finds

variable {p q : StreamId → Prop} {result : Except Error StreamId}

theorem congr (h : Finds p result) (hsame : ∀ id, q id ↔ p id) : Finds q result := by
  cases h with
  | least hleast =>
      exact .least ⟨(hsame _).mpr hleast.1, fun other hother => hleast.2 ((hsame other).mp hother)⟩
  | none hnone => exact .none fun id hid => hnone id ((hsame id).mp hid)

theorem ok_iff (h : Finds p result) (id : StreamId) : result = .ok id ↔ IsLeast {id | p id} id := by
  cases h with
  | least hleast =>
      rw [Except.ok.injEq]
      constructor
      · rintro rfl
        exact hleast
      · intro hid
        exact le_antisymm (hleast.2 hid.1) (hid.2 hleast.1)
  | none hnone => simp [IsLeast, hnone]

theorem error_iff (h : Finds p result) : (∃ e, result = .error e) ↔ ∀ id, ¬ p id := by
  cases h with
  | least hleast =>
      constructor
      · simp
      · intro hnone
        exact absurd hleast.1 (hnone _)
  | none hnone => simp [hnone]

end Finds

end StreamId

namespace Stream

/-- A stream that was built by adding entries, with whatever ids it accepts. -/
inductive Grown : Stream → Prop where
  | empty : Grown .empty
  | append {stream next : Stream} (h : Grown stream) {id : StreamId}
      {fields : List (String × String)} (hadded : stream.append id fields = .ok next) : Grown next

/-- The ids of a stream increase. -/
theorem Grown.increasing {stream : Stream} (h : stream.Grown) : Increasing stream.entries := by
  induction h with
  | empty => exact List.Pairwise.nil
  | @append stream next _ id fields hadded ih =>
      rw [Stream.append] at hadded
      cases hcheck : checkAbove stream.lastId? id with
      | error e => simp only [hcheck, Except.map, reduceCtorEq] at hadded
      | ok done =>
          rw [hcheck] at hadded
          rw [← Except.ok.inj hadded]
          exact ih.append (checkAbove_eq_ok.mp hcheck) fields

/-- What lies above the last entry lies above all of them. -/
theorem Grown.above_last_iff {stream : Stream} (h : stream.Grown) (id : StreamId) :
    (∀ top ∈ stream.lastId?, top < id) ↔ ∀ entry ∈ stream.entries, entry.id < id := by
  have hincreasing := h.increasing
  rw [lastId?]
  rcases List.eq_nil_or_concat stream.entries with hnil | ⟨front, last, hsplit⟩
  · simp [hnil]
  · rw [hsplit, List.concat_eq_append] at hincreasing ⊢
    rw [Increasing, List.pairwise_append] at hincreasing
    constructor
    · intro hlast entry hentry
      have habove : last.id < id := hlast last.id (by simp)
      rcases List.mem_append.mp hentry with hfront | hself
      · exact StreamId.lt_trans (hincreasing.2.2 entry hfront last List.mem_cons_self) habove
      · rw [List.mem_singleton.mp hself]
        exact habove
    · intro hall top htop
      rw [List.getLast?_concat, Option.map_some, Option.mem_some_iff] at htop
      rw [← htop]
      exact hall last (by simp)

/-- The milliseconds that a stream takes for the present at the time `now`: those of its last entry
    if the time lies before them. -/
def presentMs (stream : Stream) (now : UInt64) : UInt64 :=
  match stream.lastId? with
  | none => now
  | some top => if now < top.ms then top.ms else now

theorem nextId_auto (stream : Stream) (now : UInt64) :
    stream.nextId .auto now = nextIn stream.lastId? (stream.presentMs now) := by
  unfold nextId presentMs
  cases stream.lastId? <;> rfl

/-- The first id of some milliseconds belongs to them. -/
theorem first_ms (ms : UInt64) : (nextIn.first ms).ms = ms := by
  unfold nextIn.first
  split
  · rename_i hzero
    exact hzero.symm
  · rfl

-- An id that is found in some milliseconds belongs to them.
theorem nextIn_ms {last : Option StreamId} {ms : UInt64} {id : StreamId}
    (h : nextIn last ms = .ok id) : id.ms = ms := by
  cases last with
  | none =>
      rw [← Except.ok.inj h]
      exact first_ms ms
  | some top =>
      simp only [nextIn] at h
      by_cases hsame : top.ms = ms
      · rw [if_pos hsame] at h
        by_cases hlast : top.seq = StreamId.maxPart
        · simp only [if_pos hlast, reduceCtorEq] at h
        · rw [if_neg hlast] at h
          rw [← Except.ok.inj h]
      · rw [if_neg hsame] at h
        by_cases hbehind : ms < top.ms
        · simp only [if_pos hbehind, reduceCtorEq] at h
        · rw [if_neg hbehind] at h
          rw [← Except.ok.inj h]
          exact first_ms ms

end Stream

/-- The ids that a request allows: the one that is asked for, those of the given milliseconds, or
    those of the present, which is never before the last entry. -/
def IdRequest.Allows (request : IdRequest) (stream : Stream) (now : UInt64) (id : StreamId) :
    Prop :=
  match request with
  | .explicit asked => id = asked
  | .autoSequence ms => id.ms = ms
  | .auto => id.ms.toNat = stream.lastId?.elim now.toNat fun top => max now.toNat top.ms.toNat

namespace Stream

/-- The ids that a new entry may get: above the least one, above the last entry, and allowed. -/
structure Legal (stream : Stream) (request : IdRequest) (now : UInt64) (id : StreamId) : Prop where
  positive : StreamId.zero < id
  above : ∀ top ∈ stream.lastId?, top < id
  allowed : request.Allows stream now id

theorem toNat_presentMs (stream : Stream) (now : UInt64) :
    (stream.presentMs now).toNat =
      stream.lastId?.elim now.toNat fun top => max now.toNat top.ms.toNat := by
  unfold presentMs
  cases stream.lastId? with
  | none => rfl
  | some top =>
      simp only [Option.elim_some]
      split
      · rename_i hbehind
        rw [UInt64.lt_iff_toNat_lt] at hbehind
        omega
      · rename_i hbehind
        rw [UInt64.lt_iff_toNat_lt] at hbehind
        omega

-- The first id of some milliseconds is the least of them that lies above the least id of all.
theorem first_le {id : StreamId} (h : StreamId.zero < id) : nextIn.first id.ms ≤ id := by
  have hzero : StreamId.zero.seq.toNat = 0 := rfl
  simp only [StreamId.lt_def, UInt64.lt_iff_toNat_lt, ← UInt64.toNat_inj, hzero] at h
  unfold nextIn.first
  split
  · rename_i hms
    rw [hms] at h
    simp only [StreamId.le_def, UInt64.le_iff_toNat_le, hms]
    right
    simp at h ⊢
    omega
  · simp only [StreamId.le_def, UInt64.le_iff_toNat_le]
    right
    simp

/-- Within some milliseconds the least id is found that lies above the last entry. -/
theorem nextIn_finds (last : Option StreamId) (ms : UInt64) :
    StreamId.Finds (fun id => StreamId.zero < id ∧ (∀ top ∈ last, top < id) ∧ id.ms = ms)
      (nextIn last ms) := by
  cases last with
  | none =>
      have hnext : nextIn none ms = .ok (nextIn.first ms) := rfl
      rw [hnext]
      refine .least ⟨⟨nextIn_pos hnext, by simp, first_ms ms⟩, ?_⟩
      rintro other ⟨hpos, -, rfl⟩
      exact first_le hpos
  | some top =>
      rw [nextIn]
      by_cases hsame : top.ms = ms
      · rw [if_pos hsame]
        by_cases hlast : top.seq = StreamId.maxPart
        · -- The milliseconds are used up.
          rw [if_pos hlast]
          refine .none ?_
          rintro other ⟨-, habove, hms⟩
          exact (StreamId.next_le (habove top rfl) (hms.trans hsame.symm)).1 hlast
        · rw [if_neg hlast]
          have hnext : top < ⟨top.ms, top.seq + 1⟩ := StreamId.lt_next hlast
          rw [← hsame]
          refine .least ⟨⟨StreamId.zero_lt_of_lt hnext, ?_, rfl⟩, ?_⟩
          · rintro _ ⟨⟩
            exact hnext
          · rintro other ⟨-, habove, hms⟩
            exact (StreamId.next_le (habove top rfl) hms).2
      · rw [if_neg hsame]
        by_cases hbehind : ms < top.ms
        · -- All of the milliseconds lie behind the last entry.
          rw [if_pos hbehind]
          refine .none ?_
          rintro other ⟨-, habove, rfl⟩
          have hlater := habove top rfl
          simp only [StreamId.lt_def, UInt64.lt_iff_toNat_lt, ← UInt64.toNat_inj] at *
          omega
        · rw [if_neg hbehind]
          have hnext : nextIn (some top) ms = .ok (nextIn.first ms) := by
            rw [nextIn, if_neg hsame, if_neg hbehind]
          refine .least ⟨⟨nextIn_pos hnext, ?_, first_ms ms⟩, ?_⟩
          · rintro _ ⟨⟩
            exact nextIn_above hnext
          · rintro other ⟨hpos, -, rfl⟩
            exact first_le hpos

-- Within the milliseconds that a request allows, the ids that are searched are the legal ones.
theorem legal_iff {stream : Stream} {request : IdRequest} {now ms : UInt64}
    (hallows : ∀ id, request.Allows stream now id ↔ id.ms = ms) (id : StreamId) :
    stream.Legal request now id ↔
      StreamId.zero < id ∧ (∀ top ∈ stream.lastId?, top < id) ∧ id.ms = ms := by
  rw [← hallows]
  exact ⟨fun h => ⟨h.positive, h.above, h.allowed⟩, fun h => ⟨h.1, h.2.1, h.2.2⟩⟩

/-- A stream finds the least legal id for a request. -/
theorem nextId_finds (stream : Stream) (request : IdRequest) (now : UInt64) :
    StreamId.Finds (stream.Legal request now) (stream.nextId request now) := by
  cases request with
  | explicit asked =>
      unfold nextId
      simp only
      by_cases hzero : asked = StreamId.zero
      · rw [if_pos hzero]
        refine .none fun id hlegal => ?_
        have hpos := hlegal.positive
        rw [hlegal.allowed, hzero] at hpos
        exact StreamId.lt_asymm hpos hpos
      · rw [if_neg hzero]
        cases hcheck : checkAbove stream.lastId? asked with
        | error e =>
            refine .none fun id hlegal => ?_
            have habove := hlegal.above
            rw [hlegal.allowed, ← checkAbove_eq_ok, hcheck] at habove
            cases habove
        | ok done =>
            refine .least ⟨⟨StreamId.zero_lt hzero, checkAbove_eq_ok.mp hcheck, rfl⟩, ?_⟩
            intro other hlegal
            rw [hlegal.allowed]
            exact StreamId.le_refl asked
  | autoSequence ms =>
      exact (nextIn_finds stream.lastId? ms).congr (legal_iff fun id => Iff.rfl)
  | auto =>
      have hallows : ∀ id, IdRequest.auto.Allows stream now id ↔ id.ms = stream.presentMs now := by
        intro id
        rw [IdRequest.Allows, ← toNat_presentMs, UInt64.toNat_inj]
      rw [nextId_auto]
      exact (nextIn_finds stream.lastId? (stream.presentMs now)).congr (legal_iff hallows)

-- An id that is found in the milliseconds of the last entry has the next sequence: it does not
-- start over.
theorem nextIn_seq {top id : StreamId} (h : nextIn (some top) top.ms = .ok id) :
    id.seq.toNat = top.seq.toNat + 1 := by
  have hmax : StreamId.maxPart.toNat = 18446744073709551615 := rfl
  have hseq := top.seq.toNat_lt
  simp only [nextIn, if_pos] at h
  split at h
  · cases h
  · rename_i hlast
    rw [← UInt64.toNat_inj, hmax] at hlast
    rw [← Except.ok.inj h, UInt64.toNat_add]
    simp
    omega

/-- The id of a new entry is the least one that lies above the least id of all and above the last
    entry and that the request allows, and a request is refused exactly if there is no such id. The
    sequence within the milliseconds of the last entry does not start over. The last entry of a
    stream that was built by adding entries stands for all of them. -/
theorem nextId_isLeast (stream : Stream) (request : IdRequest) (now : UInt64) :
    (∀ id, stream.nextId request now = .ok id ↔
      IsLeast {id | stream.Legal request now id} id) ∧
    ((∃ e, stream.nextId request now = .error e) ↔ ∀ id, ¬ stream.Legal request now id) ∧
    (∀ top id, stream.lastId? = some top → stream.nextId request now = .ok id →
      (∀ asked, request ≠ .explicit asked) → id.ms = top.ms →
      id.seq.toNat = top.seq.toNat + 1) ∧
    (stream.Grown → ∀ id, (∀ top ∈ stream.lastId?, top < id) ↔
      ∀ entry ∈ stream.entries, entry.id < id) := by
  have hfinds := stream.nextId_finds request now
  refine ⟨hfinds.ok_iff, hfinds.error_iff, ?_, Grown.above_last_iff⟩
  intro top id htop hnext hopen hms
  have hin : ∃ ms, nextIn (some top) ms = .ok id := by
    cases request with
    | explicit asked => exact absurd rfl (hopen asked)
    | autoSequence ms => exact ⟨ms, htop ▸ hnext⟩
    | auto => exact ⟨stream.presentMs now, by rw [← htop, ← nextId_auto, hnext]⟩
  rcases hin with ⟨ms, hin⟩
  rw [← nextIn_ms hin, hms] at hin
  exact nextIn_seq hin

/-- The clock has gone back behind the last entry, whose milliseconds still have a sequence. -/
theorem nextId_isLeast_behind :
    let stream : Stream := ⟨[⟨⟨5, 6⟩, []⟩, ⟨⟨5, 7⟩, []⟩]⟩
    IsLeast {id | stream.Legal .auto 3 id} ⟨5, 8⟩ ∧
      (8 : UInt64).toNat = (7 : UInt64).toNat + 1 ∧
      ∀ entry ∈ stream.entries, entry.id < ⟨5, 8⟩ := by
  intro stream
  rcases nextId_isLeast stream .auto 3 with ⟨hok, -, hnext, hgrown⟩
  have hid : stream.nextId .auto 3 = .ok ⟨5, 8⟩ := rfl
  have hleast := (hok ⟨5, 8⟩).mp hid
  have hbegun : Grown ⟨[⟨⟨5, 6⟩, []⟩]⟩ := @Grown.append _ _ .empty ⟨5, 6⟩ [] rfl
  have hbuilt : stream.Grown := @Grown.append _ _ hbegun ⟨5, 7⟩ [] rfl
  refine ⟨hleast, hnext ⟨5, 7⟩ ⟨5, 8⟩ rfl hid (by simp) rfl, ?_⟩
  exact (hgrown hbuilt ⟨5, 8⟩).mp hleast.1.above

end Stream

end KeyValue
