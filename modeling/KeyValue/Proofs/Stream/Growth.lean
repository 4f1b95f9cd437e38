import KeyValue.Stream.Basic
import Mathlib.Data.List.Pairwise

/-!
# Streams grow at the end

A stream that was built by adding entries has increasing ids.

The id that a stream gives to a new entry lies above its last one (`nextId_above`), so adding the
entry never fails once the id is there (`append_of_nextId`), and the ids stay increasing
(`Sound.of_nextId`). Only an entry that asks for the present time depends on the clock
(`nextId_of_ne_auto`).

## Main definitions

* `Stream.Increasing`: The ids of entries increase.
* `Stream.Sound`: The stream has entries, with increasing ids.

## Theorems

* `StreamId.not_le`, `StreamId.lt_trans`: Ids are in order.
* `nextId_above`, `nextId_pos`: The id of a new entry lies above the last one, and above the least.
* `append_of_nextId`: An entry with that id is added.
* `Sound.of_nextId`: Adding an entry keeps a stream sound.
* `Increasing.filter_above`: What lies above an entry comes behind it.
* `Increasing.drop_position`: A reader above an id finds exactly what lies above it.
-/

namespace KeyValue

namespace StreamId

theorem lt_def (a b : StreamId) : a < b ↔ a.ms < b.ms ∨ (a.ms = b.ms ∧ a.seq < b.seq) := Iff.rfl

theorem le_def (a b : StreamId) : a ≤ b ↔ a.ms < b.ms ∨ (a.ms = b.ms ∧ a.seq ≤ b.seq) := Iff.rfl

/-- Of two ids, one is at most the other or lies above it. -/
theorem not_le {a b : StreamId} : ¬ a ≤ b ↔ b < a := by
  simp only [lt_def, le_def, UInt64.lt_iff_toNat_lt, UInt64.le_iff_toNat_le, ← UInt64.toNat_inj]
  omega

theorem lt_trans {a b c : StreamId} (h : a < b) (h' : b < c) : a < c := by
  simp only [lt_def, UInt64.lt_iff_toNat_lt, ← UInt64.toNat_inj] at *
  omega

theorem lt_asymm {a b : StreamId} (h : a < b) : ¬ b < a := by
  simp only [lt_def, UInt64.lt_iff_toNat_lt, ← UInt64.toNat_inj] at *
  omega

/-- The least id lies below whatever is not it, so below whatever lies above something. -/
theorem zero_lt {id : StreamId} (h : id ≠ zero) : zero < id := by
  by_contra hnot
  have hms : zero.ms.toNat = 0 := rfl
  have hseq : zero.seq.toNat = 0 := rfl
  apply h
  rcases id with ⟨ms, seq⟩
  simp only [lt_def, UInt64.lt_iff_toNat_lt, ← UInt64.toNat_inj, hms, hseq] at hnot
  rw [zero, mk.injEq, ← UInt64.toNat_inj, ← UInt64.toNat_inj, UInt64.toNat_zero]
  omega

theorem zero_lt_of_lt {a b : StreamId} (h : a < b) : zero < b := by
  refine zero_lt ?_
  rintro rfl
  have hms : zero.ms.toNat = 0 := rfl
  have hseq : zero.seq.toNat = 0 := rfl
  simp only [lt_def, UInt64.lt_iff_toNat_lt, hms, hseq] at h
  omega

-- The sequence after one that is not the last.
theorem lt_next {ms seq : UInt64} (h : seq ≠ maxPart) : (⟨ms, seq⟩ : StreamId) < ⟨ms, seq + 1⟩ := by
  have hmax : maxPart.toNat = 18446744073709551615 := rfl
  have hseq := seq.toNat_lt
  simp only [lt_def, UInt64.lt_iff_toNat_lt, ne_eq, ← UInt64.toNat_inj, hmax] at *
  right
  rw [UInt64.toNat_add]
  simp
  omega

end StreamId

namespace Stream

/-- The ids of the entries increase. -/
def Increasing (entries : List StreamEntry) : Prop :=
  entries.Pairwise fun earlier later => earlier.id < later.id

/-- The stream has entries, with increasing ids. -/
structure Sound (stream : Stream) : Prop where
  filled : stream.entries ≠ []
  increasing : Increasing stream.entries

/-- An id is accepted exactly if it lies above the last one. -/
theorem checkAbove_eq_ok {last : Option StreamId} {id : StreamId} :
    checkAbove last id = .ok () ↔ ∀ top ∈ last, top < id := by
  cases last with
  | none => simp [checkAbove]
  | some top =>
      by_cases h : id ≤ top
      · have hnot : ¬ top < id := fun hlt => StreamId.not_le.mpr hlt h
        simp [checkAbove, h, hnot]
      · simp [checkAbove, h, StreamId.not_le.mp h]

/-- If an id is found in some milliseconds, it lies above the last one. -/
theorem nextIn_above {top id : StreamId} {ms : UInt64} (h : nextIn (some top) ms = .ok id) :
    top < id := by
  simp only [nextIn] at h
  by_cases hms : top.ms = ms
  · rw [if_pos hms] at h
    by_cases hseq : top.seq = StreamId.maxPart
    · simp only [if_pos hseq, reduceCtorEq] at h
    · rw [if_neg hseq, Except.ok.injEq] at h
      rw [← h, ← hms]
      exact StreamId.lt_next hseq
  · rw [if_neg hms] at h
    by_cases hlt : ms < top.ms
    · simp only [if_pos hlt, reduceCtorEq] at h
    · rw [if_neg hlt, Except.ok.injEq] at h
      -- A later millisecond: its first id lies above whatever came before.
      have hid : id.ms = ms := by
        rw [← h, nextIn.first]
        split
        · rename_i hzero
          exact hzero.symm
        · rfl
      rw [StreamId.lt_def, hid]
      left
      simp only [UInt64.lt_iff_toNat_lt, ← UInt64.toNat_inj] at *
      omega

/-- The id of a new entry lies above the last one. -/
theorem nextId_above {stream : Stream} {request : IdRequest} {now : UInt64} {id : StreamId}
    (h : stream.nextId request now = .ok id) : ∀ top ∈ stream.lastId?, top < id := by
  intro top htop
  unfold nextId at h
  rw [Option.mem_def] at htop
  rw [htop] at h
  cases request with
  | auto => exact nextIn_above h
  | autoSequence ms => exact nextIn_above h
  | explicit asked =>
      simp only at h
      by_cases hzero : asked = StreamId.zero
      · simp only [if_pos hzero, reduceCtorEq] at h
      · rw [if_neg hzero] at h
        cases hcheck : checkAbove (some top) asked with
        | error e => simp only [hcheck, Except.map, reduceCtorEq] at h
        | ok done =>
            simp only [hcheck, Except.map, Except.ok.injEq] at h
            rw [← h]
            exact checkAbove_eq_ok.mp hcheck top rfl

/-- The least id of all is never chosen. -/
theorem nextIn_pos {last : Option StreamId} {ms : UInt64} {id : StreamId}
    (h : nextIn last ms = .ok id) : StreamId.zero < id := by
  cases last with
  | some top => exact StreamId.zero_lt_of_lt (nextIn_above h)
  | none =>
      refine StreamId.zero_lt ?_
      rintro rfl
      simp only [nextIn, nextIn.first, Except.ok.injEq] at h
      by_cases hms : ms = 0
      · rw [if_pos hms] at h
        simp [StreamId.zero] at h
      · rw [if_neg hms, StreamId.zero, StreamId.mk.injEq] at h
        exact hms h.1

/-- The id of a new entry is not the least one. -/
theorem nextId_pos {stream : Stream} {request : IdRequest} {now : UInt64} {id : StreamId}
    (h : stream.nextId request now = .ok id) : StreamId.zero < id := by
  unfold nextId at h
  cases request with
  | auto => cases hlast : stream.lastId? <;> rw [hlast] at h <;> exact nextIn_pos h
  | autoSequence ms => exact nextIn_pos h
  | explicit asked =>
      simp only at h
      by_cases hzero : asked = StreamId.zero
      · simp only [if_pos hzero, reduceCtorEq] at h
      · rw [if_neg hzero] at h
        cases hcheck : checkAbove stream.lastId? asked with
        | error e => simp only [hcheck, Except.map, reduceCtorEq] at h
        | ok done =>
            simp only [hcheck, Except.map, Except.ok.injEq] at h
            rw [← h]
            exact StreamId.zero_lt hzero

/-- Adding an entry does not fail once the stream has given it its id. -/
theorem append_of_nextId {stream : Stream} {request : IdRequest} {now : UInt64} {id : StreamId}
    (h : stream.nextId request now = .ok id) (fields : List (String × String)) :
    stream.append id fields = .ok ⟨stream.entries ++ [⟨id, fields⟩]⟩ := by
  have hcheck : checkAbove stream.lastId? id = .ok () := checkAbove_eq_ok.mpr (nextId_above h)
  rw [append, hcheck]
  rfl

/-- Only a request for the present time depends on the clock. -/
theorem nextId_of_ne_auto {request : IdRequest} (h : request ≠ .auto) (stream : Stream)
    (now now' : UInt64) : stream.nextId request now = stream.nextId request now' := by
  cases request with
  | auto => exact absurd rfl h
  | autoSequence ms => rfl
  | explicit id => rfl

/-- An entry above the last one keeps the ids increasing. -/
theorem Increasing.append {stream : Stream} (h : Increasing stream.entries) {id : StreamId}
    (habove : ∀ top ∈ stream.lastId?, top < id) (fields : List (String × String)) :
    Increasing (stream.entries ++ [⟨id, fields⟩]) := by
  unfold Increasing at h ⊢
  rw [List.pairwise_append]
  refine ⟨h, List.pairwise_singleton _ _, ?_⟩
  intro earlier hearlier later hlater
  rw [List.mem_singleton] at hlater
  rw [hlater]
  -- The last entry is at least as far as any other.
  rcases List.eq_nil_or_concat stream.entries with hnil | ⟨front, last, hsplit⟩
  · rw [hnil] at hearlier
    simp only [List.not_mem_nil] at hearlier
  · have hlast : last.id < id := by
      apply habove
      simp [lastId?, hsplit]
    rw [hsplit, List.concat_eq_append, List.pairwise_append] at h
    rw [hsplit, List.concat_eq_append, List.mem_append, List.mem_singleton] at hearlier
    rcases hearlier with hfront | rfl
    · exact StreamId.lt_trans (h.2.2 earlier hfront last List.mem_cons_self) hlast
    · exact hlast

/-- Adding an entry with the id that the stream gives it makes a sound stream of a sound one, and of
    one without entries. -/
theorem Sound.of_nextId {stream : Stream} (h : stream.Sound ∨ stream = .empty)
    {request : IdRequest} {now : UInt64} {id : StreamId}
    (hid : stream.nextId request now = .ok id) (fields : List (String × String)) :
    Sound ⟨stream.entries ++ [⟨id, fields⟩]⟩ := by
  have hincreasing : Increasing stream.entries := by
    rcases h with hsound | rfl
    · exact hsound.increasing
    · exact List.Pairwise.nil
  exact ⟨by simp, hincreasing.append (nextId_above hid) fields⟩

-- What lies above an id lies above every id below it.
theorem filter_above_filter {above top : StreamId} (h : above < top) (entries : List StreamEntry) :
    (entries.filter (above < ·.id)).filter (top < ·.id) = entries.filter (top < ·.id) := by
  rw [List.filter_filter]
  refine List.filter_congr fun entry _ => ?_
  by_cases htop : top < entry.id
  · simp [htop, StreamId.lt_trans h htop]
  · simp [htop]

/-- What lies above an entry is what comes behind it. -/
theorem Increasing.filter_above {taken rest : List StreamEntry} {entry : StreamEntry}
    (h : Increasing (taken ++ entry :: rest)) :
    (taken ++ entry :: rest).filter (entry.id < ·.id) = rest := by
  rw [Increasing, List.pairwise_append, List.pairwise_cons] at h
  rcases h with ⟨_, ⟨hrest, _⟩, htaken⟩
  have hnone : ∀ other ∈ taken, ¬ entry.id < other.id := fun other hother =>
    StreamId.lt_asymm (htaken other hother entry List.mem_cons_self)
  have hself : ¬ entry.id < entry.id := fun hlt => StreamId.lt_asymm hlt hlt
  rw [List.filter_append, List.filter_eq_nil_iff.mpr (by simpa using hnone), List.nil_append,
    List.filter_cons_of_neg (by simpa using hself), List.filter_eq_self.mpr (by simpa using hrest)]

/-- Behind the entries up to an id come exactly those above it. -/
theorem Increasing.drop_position {stream : Stream} (h : Increasing stream.entries)
    (above : StreamId) :
    stream.entries.drop (stream.position (· ≤ above)) =
      stream.entries.filter (above < ·.id) := by
  -- Up to `above` the ids are at most `above`; from the first one on that lies above it, all do.
  unfold position
  generalize stream.entries = entries at h
  induction entries with
  | nil => rfl
  | cons entry rest ih =>
      unfold Increasing at h
      rw [List.pairwise_cons] at h
      by_cases hle : entry.id ≤ above
      · have hnot : ¬ above < entry.id := fun hlt => StreamId.not_le.mpr hlt hle
        rw [List.takeWhile_cons_of_pos (by simpa using hle), List.length_cons, List.drop_succ_cons,
          ih h.2, List.filter_cons_of_neg (by simpa using hnot)]
      · have hlt := StreamId.not_le.mp hle
        have hall : ∀ later ∈ entry :: rest, above < later.id := by
          intro later hlater
          rcases List.mem_cons.mp hlater with rfl | hrest
          · exact hlt
          · exact StreamId.lt_trans hlt (h.1 later hrest)
        rw [List.takeWhile_cons_of_neg (by simpa using hle), List.length_nil, List.drop_zero,
          List.filter_eq_self.mpr (by simpa using hall)]

end Stream

end KeyValue
