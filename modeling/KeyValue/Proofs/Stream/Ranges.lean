import KeyValue.Proofs.Stream.Choosing
import KeyValue.Proofs.Stream.Ids
import Mathlib.Data.List.TakeWhile

/-!
# Ranges of a stream

The ids of a stream increase, so the entries below some id are the first ones, and a range is a
slice. Where a slice begins and ends can be found by halving the stream, again and again
(`Stream.search`). That is right for a set of ids that holds with each id all ids below it
(`StreamId.Lower`): the stream falls apart into the entries that belong to the set and, behind them,
those that do not (`Increasing.takeWhile_eq_filter`, `Increasing.drop_takeWhile_eq_filter`). Both
bounds of a range are such sets, and so a slice between them is the same as a filter
(`Increasing.range_eq_filter`).

The bounds themselves are texts. `StreamId.Spells` is their grammar.

## Main definitions

* `StreamId.Lower`: A set of ids that holds with each id all ids below it.
* `Stream.search`: The binary search for the end of such a set.
* `StreamId.Spells`: What the text of a bound stands for.

## Theorems

* `search_eq_position`: The binary search finds the first entry outside of the set.
* `position_mono`: Places are in the order of the conditions that they are searched for by.
* `position_le_position`, `position_le_size`: The slice from a lower bound to an upper one lies
  within the stream.
* `Increasing.range_eq_filter`, `Increasing.after_eq_filter`: Slices are filters.
* `rangeStart_eq_ok_iff`, `rangeEnd_eq_ok_iff`: The bounds that are accepted.
-/

namespace KeyValue

namespace StreamId

/-- The set of ids holds with each id all ids below it. -/
def Lower (below : StreamId → Bool) : Prop := ∀ ⦃a b⦄, a < b → below b = true → below a = true

theorem not_lt {a b : StreamId} : ¬ a < b ↔ b ≤ a := by rw [← not_le, Classical.not_not]

theorem le_trans {a b c : StreamId} (h : a ≤ b) (h' : b ≤ c) : a ≤ c := by
  simp only [le_def, UInt64.lt_iff_toNat_lt, UInt64.le_iff_toNat_le, ← UInt64.toNat_inj] at *
  omega

theorem le_of_lt {a b : StreamId} (h : a < b) : a ≤ b := not_lt.mp (lt_asymm h)

/-- With each id below some id, all ids below that one are below it, too. -/
theorem lower_lt (id : StreamId) : Lower (· < id) := fun a b hlt h => by
  simp only [decide_eq_true_eq] at h ⊢
  exact lt_trans hlt h

theorem lower_le (id : StreamId) : Lower (· ≤ id) := fun a b hlt h => by
  simp only [decide_eq_true_eq] at h ⊢
  exact le_trans (le_of_lt hlt) h

-- The ids of a millisecond lie between the one without a sequence and the one with the last.
theorem least_le_iff {id : StreamId} {ms : UInt64} : (⟨ms, 0⟩ : StreamId) ≤ id ↔ ms ≤ id.ms := by
  simp only [le_def, UInt64.lt_iff_toNat_lt, UInt64.le_iff_toNat_le, ← UInt64.toNat_inj,
    UInt64.toNat_zero]
  omega

/-- An id lies below the greatest one of some milliseconds if its own are no later. -/
theorem le_greatest_iff {id : StreamId} {ms : UInt64} :
    id ≤ (⟨ms, maxPart⟩ : StreamId) ↔ id.ms ≤ ms := by
  have hmax : maxPart.toNat = 18446744073709551615 := rfl
  have hseq := id.seq.toNat_lt
  simp only [le_def, UInt64.lt_iff_toNat_lt, UInt64.le_iff_toNat_le, ← UInt64.toNat_inj, hmax]
  omega

theorem zero_le (id : StreamId) : zero ≤ id := least_le_iff.mpr (by simp [UInt64.le_iff_toNat_le])

theorem le_max (id : StreamId) : id ≤ max := by
  refine le_greatest_iff.mpr ?_
  have hms := id.ms.toNat_lt
  have hmax : maxPart.toNat = 18446744073709551615 := rfl
  rw [UInt64.le_iff_toNat_le, hmax]
  omega

/-- What the text of a bound stands for: a word stands for an extreme id, a number for the id with
    these milliseconds and the given sequence, and two numbers with a hyphen between them for the
    id that they name. -/
inductive Spells (word : String) (extreme : StreamId) (missing : UInt64) : String → StreamId → Prop
  | word : Spells word extreme missing word extreme
  | bare {text : String} {ms : UInt64} (hms : Decimal.uint64? text = some ms) :
    Spells word extreme missing text ⟨ms, missing⟩
  | full {before after : String} {ms seq : UInt64} (hms : Decimal.uint64? before = some ms)
    (hseq : Decimal.uint64? after = some seq) :
    Spells word extreme missing (before ++ "-" ++ after) ⟨ms, seq⟩

-- What is read as a number is no hyphen, has none, and is not empty.
theorem hyphen_notMem_of_uint64? {text : String} {n : UInt64} (h : Decimal.uint64? text = some n) :
    '-' ∉ text.toList := by
  intro hmem
  rw [Decimal.uint64?, Option.map_eq_some_iff] at h
  rcases h with ⟨count, hcount, -⟩
  simpa using Decimal.isDigit_of_bounded? hcount hmem

theorem splitHyphen_eq_none {text : String} (h : '-' ∉ text.toList) : splitHyphen text = none := by
  have hnone : text.toList.dropWhile (· != '-') = [] := by
    rw [List.dropWhile_eq_nil_iff]
    intro c hc
    rw [bne_iff_ne]
    rintro rfl
    exact h hc
  unfold splitHyphen
  rw [List.span_eq_takeWhile_dropWhile, hnone]

/-- A text is put together again from what stands before its first hyphen and behind it. -/
theorem eq_append_of_splitHyphen {text before after : String}
    (h : splitHyphen text = some (before, after)) : text = before ++ "-" ++ after := by
  unfold splitHyphen at h
  rw [List.span_eq_takeWhile_dropWhile] at h
  have hsplit := List.takeWhile_append_dropWhile (p := (· != '-')) (l := text.toList)
  have hhead := List.head?_dropWhile_not (· != '-') text.toList
  cases hrest : text.toList.dropWhile (· != '-') with
  | nil => simp [hrest] at h
  | cons c rest =>
      rw [hrest] at h hsplit hhead
      obtain ⟨rfl, rfl⟩ := Prod.mk.inj (Option.some.inj h)
      obtain rfl : c = '-' := by simpa using hhead
      rw [← String.toList_inj]
      simp [hsplit]

section Bounds

variable {word text : String} {extreme id : StreamId} {missing : UInt64}

/-- A half of an id is accepted if it is a number of 64 bits. -/
theorem part_eq_ok_iff {n : UInt64} : part text = .ok n ↔ Decimal.uint64? text = some n := by
  unfold part
  cases Decimal.uint64? text <;> simp

/-- A bound that is not a word of its own is one number, or two with a hyphen between them. -/
theorem ofTextWith_eq_ok_iff :
    ofTextWith missing text = .ok id ↔
      (∃ ms, Decimal.uint64? text = some ms ∧ id = ⟨ms, missing⟩) ∨
        ∃ before after ms seq, text = before ++ "-" ++ after ∧ Decimal.uint64? before = some ms ∧
          Decimal.uint64? after = some seq ∧ id = ⟨ms, seq⟩ := by
  constructor
  · intro h
    unfold ofTextWith at h
    cases hsplit : splitHyphen text with
    | none =>
        rw [hsplit] at h
        cases hms : part text with
        | error e => simp [hms, bind, Except.bind] at h
        | ok ms =>
            simp only [hms, bind, Except.bind, pure, Except.pure, Except.ok.injEq] at h
            exact Or.inl ⟨ms, part_eq_ok_iff.mp hms, h.symm⟩
    | some parts =>
        rcases parts with ⟨before, after⟩
        rw [hsplit] at h
        simp only [ofParts] at h
        cases hms : part before with
        | error e => simp [hms, bind, Except.bind] at h
        | ok ms =>
            cases hseq : part after with
            | error e => simp [hms, hseq, bind, Except.bind] at h
            | ok seq =>
                simp only [hms, hseq, bind, Except.bind, pure, Except.pure, Except.ok.injEq] at h
                exact Or.inr ⟨before, after, ms, seq, eq_append_of_splitHyphen hsplit,
                  part_eq_ok_iff.mp hms, part_eq_ok_iff.mp hseq, h.symm⟩
  · rintro (⟨ms, hms, rfl⟩ | ⟨before, after, ms, seq, rfl, hms, hseq, rfl⟩)
    · rw [ofTextWith, splitHyphen_eq_none (hyphen_notMem_of_uint64? hms)]
      simp only [part_eq_ok_iff.mpr hms, bind, Except.bind, pure, Except.pure]
    · rw [ofTextWith, splitHyphen_append after (hyphen_notMem_of_uint64? hms)]
      simp only [ofParts, part_eq_ok_iff.mpr hms, part_eq_ok_iff.mpr hseq, bind, Except.bind, pure,
        Except.pure]

-- The word of a bound is read in no other way, so it can be looked for first.
theorem spells_iff (hword : ofTextWith missing word = .error invalid) :
    Spells word extreme missing text id ↔
      (if text = word then .ok extreme else ofTextWith missing text) = .ok id := by
  constructor
  · intro h
    by_cases hsame : text = word
    · rw [if_pos hsame]
      cases h with
      | word => rfl
      | bare hms =>
          rw [← hsame, ofTextWith_eq_ok_iff.mpr (Or.inl ⟨_, hms, rfl⟩)] at hword
          cases hword
      | full hms hseq =>
          rw [← hsame, ofTextWith_eq_ok_iff.mpr (Or.inr ⟨_, _, _, _, rfl, hms, hseq, rfl⟩)] at hword
          cases hword
    · rw [if_neg hsame]
      cases h with
      | word => exact absurd rfl hsame
      | bare hms => exact ofTextWith_eq_ok_iff.mpr (Or.inl ⟨_, hms, rfl⟩)
      | full hms hseq => exact ofTextWith_eq_ok_iff.mpr (Or.inr ⟨_, _, _, _, rfl, hms, hseq, rfl⟩)
  · intro h
    split at h
    · rename_i hsame
      rw [hsame, ← Except.ok.inj h]
      exact .word
    · rcases ofTextWith_eq_ok_iff.mp h with ⟨ms, hms, rfl⟩ | ⟨_, _, ms, seq, rfl, hms, hseq, rfl⟩
      · exact .bare hms
      · exact .full hms hseq

/-- The lower bounds of a range that are accepted. -/
theorem rangeStart_eq_ok_iff : rangeStart text = .ok id ↔ Spells "-" zero 0 text id :=
  (spells_iff rfl).symm

/-- The upper bounds of a range that are accepted. -/
theorem rangeEnd_eq_ok_iff : rangeEnd text = .ok id ↔ Spells "+" max maxPart text id :=
  (spells_iff rfl).symm

end Bounds

end StreamId

namespace Stream

open StreamId

/-- The binary search among the `size` entries from `base` on: look at the one in the middle, and go
    on behind it or in front of it. -/
def searchFrom (below : StreamId → Bool) (entries : List StreamEntry) (base size : Nat) : Nat :=
  if size = 0 then base
  else
    match entries[base + size / 2]? with
    | none => base
    | some entry =>
      if below entry.id then
        searchFrom below entries (base + size / 2 + 1) (size - size / 2 - 1)
      else searchFrom below entries base (size / 2)
termination_by size
decreasing_by all_goals omega

/-- The binary search for the first entry whose id is not in the set. -/
def search (stream : Stream) (below : StreamId → Bool) : Nat :=
  searchFrom below stream.entries 0 stream.size

section Slices

variable {entries : List StreamEntry} {below : StreamId → Bool}

-- Behind an entry outside of the set there are only others outside of it.
theorem Increasing.not_below {entry later : StreamEntry} {rest : List StreamEntry}
    (h : Increasing (entry :: rest)) (hbelow : Lower below) (hentry : below entry.id = false)
    (hlater : later ∈ entry :: rest) : below later.id = false := by
  rcases List.mem_cons.mp hlater with rfl | hrest
  · exact hentry
  · by_contra hin
    rw [Bool.not_eq_false] at hin
    have hlt : entry.id < later.id := (List.pairwise_cons.mp h).1 later hrest
    rw [hbelow hlt hin] at hentry
    cases hentry

/-- The entries in front of the first one outside of the set are those of the set. -/
theorem Increasing.takeWhile_eq_filter (h : Increasing entries) (hbelow : Lower below) :
    entries.takeWhile (below ·.id) = entries.filter (below ·.id) := by
  induction entries with
  | nil => rfl
  | cons entry rest ih =>
      cases hentry : below entry.id with
      | true =>
          rw [List.takeWhile_cons_of_pos (by exact hentry),
            List.filter_cons_of_pos (by exact hentry), ih (List.pairwise_cons.mp h).2]
      | false =>
          have hnone : ∀ later ∈ entry :: rest, ¬ below later.id = true := fun later hlater => by
            rw [h.not_below hbelow hentry hlater]
            exact Bool.false_ne_true
          rw [List.takeWhile_cons_of_neg (by simp [hentry]), List.filter_eq_nil_iff.mpr hnone]

/-- Behind the entries of the set come those outside of it. -/
theorem Increasing.drop_takeWhile_eq_filter (h : Increasing entries) (hbelow : Lower below) :
    entries.drop (entries.takeWhile (below ·.id)).length =
      entries.filter fun entry => !below entry.id := by
  induction entries with
  | nil => rfl
  | cons entry rest ih =>
      cases hentry : below entry.id with
      | true =>
          rw [List.takeWhile_cons_of_pos (by exact hentry), List.length_cons, List.drop_succ_cons,
            ih (List.pairwise_cons.mp h).2, List.filter_cons_of_neg (by simp [hentry])]
      | false =>
          have hall : ∀ later ∈ entry :: rest, (!below later.id) = true := fun later hlater => by
            rw [h.not_below hbelow hentry hlater]
            rfl
          rw [List.takeWhile_cons_of_neg (by simp [hentry]), List.length_nil, List.drop_zero,
            List.filter_eq_self.mpr hall]

-- An entry is in the set exactly if it stands in front of the first one outside of it.
theorem Increasing.below_iff (h : Increasing entries) (hbelow : Lower below) {index : Nat}
    {entry : StreamEntry} (hentry : entries[index]? = some entry) :
    below entry.id = true ↔ index < (entries.takeWhile (below ·.id)).length := by
  induction entries generalizing index with
  | nil => simp at hentry
  | cons first rest ih =>
      cases hfirst : below first.id with
      | false =>
          rw [List.takeWhile_cons_of_neg (by simp [hfirst]),
            h.not_below hbelow hfirst (List.mem_of_getElem? hentry)]
          simp
      | true =>
          rw [List.takeWhile_cons_of_pos (by exact hfirst), List.length_cons]
          cases index with
          | zero =>
              obtain rfl : first = entry := by simpa using hentry
              simp [hfirst]
          | succ index =>
              rw [List.getElem?_cons_succ] at hentry
              rw [ih (List.pairwise_cons.mp h).2 hentry, Nat.succ_lt_succ_iff]

-- The first entry outside of the set stays among those that are searched.
theorem searchFrom_eq (h : Increasing entries) (hbelow : Lower below) (base size : Nat)
    (hbase : base ≤ (entries.takeWhile (below ·.id)).length)
    (hsize : (entries.takeWhile (below ·.id)).length ≤ base + size)
    (hentries : base + size ≤ entries.length) :
    searchFrom below entries base size = (entries.takeWhile (below ·.id)).length := by
  fun_induction searchFrom below entries base size with
  | case1 base => omega
  | case2 base size hpos hnone =>
      rw [List.getElem?_eq_none_iff] at hnone
      omega
  | case3 base size hpos entry hentry hin ih =>
      have hfront := (h.below_iff hbelow hentry).mp hin
      exact ih (by omega) (by omega) (by omega)
  | case4 base size hpos entry hentry hout ih =>
      have hbehind := mt (h.below_iff hbelow hentry).mpr hout
      exact ih (by omega) (by omega) (by omega)

end Slices

variable {stream : Stream} {low high : StreamId}

/-- The binary search finds the position of the first entry that is not in the set. -/
theorem search_eq_position (h : Increasing stream.entries) {below : StreamId → Bool}
    (hbelow : Lower below) : stream.search below = stream.position below := by
  have hlength : (stream.entries.takeWhile (below ·.id)).length ≤ stream.entries.length :=
    (List.takeWhile_prefix _).length_le
  exact searchFrom_eq h hbelow 0 stream.size (Nat.zero_le _) (by rw [Nat.zero_add]; exact hlength)
    (Nat.le_of_eq (Nat.zero_add _))

/-- More entries are in front of a place if it is searched for by a weaker condition. -/
theorem position_mono {weak strong : StreamId → Bool} (stream : Stream)
    (h : ∀ id, strong id = true → weak id = true) :
    stream.position strong ≤ stream.position weak := by
  unfold position
  induction stream.entries with
  | nil => exact Nat.le_refl _
  | cons entry rest ih =>
      simp only [List.takeWhile_cons]
      by_cases hstrong : strong entry.id = true
      · simp only [hstrong, h entry.id hstrong, if_true, List.length_cons]
        omega
      · simp [hstrong]

/-- Every place is in the stream, or right behind it. -/
theorem position_le_size (stream : Stream) (below : StreamId → Bool) :
    stream.position below ≤ stream.size :=
  (List.takeWhile_prefix _).length_le

/-- From a lower bound to an upper one there is a slice of the stream. -/
theorem position_le_position (stream : Stream) (hle : low ≤ high) :
    stream.position (· < low) ≤ stream.position (· ≤ high) := by
  refine position_mono stream fun id hlt => ?_
  simp only [decide_eq_true_eq] at hlt ⊢
  exact le_trans (le_of_lt hlt) hle

/-- A range holds exactly the entries between its bounds, up to the number that is wanted. -/
theorem Increasing.range_eq_filter (h : Increasing stream.entries) (low high : StreamId)
    (count : Option Nat) :
    stream.range low high count =
      takeCount count (stream.entries.filter fun entry => low ≤ entry.id ∧ entry.id ≤ high) := by
  unfold range
  by_cases hlt : high < low
  · have hnone : ∀ entry ∈ stream.entries,
        ¬ decide (low ≤ entry.id ∧ entry.id ≤ high) = true := fun entry _ hin => by
      rw [decide_eq_true_eq] at hin
      exact not_lt.mpr (le_trans hin.1 hin.2) hlt
    rw [if_pos hlt, List.filter_eq_nil_iff.mpr hnone]
    cases count <;> simp [takeCount]
  have hle := not_lt.mp hlt
  have hincreasing : Increasing (stream.entries.filter (·.id ≤ high)) := h.filter _
  -- Cut the stream behind the upper bound first; the entries below the lower one are still there.
  have hupper : stream.entries.take (stream.position (· ≤ high)) =
      stream.entries.filter (·.id ≤ high) := by
    rw [position, ← h.takeWhile_eq_filter (lower_le high)]
    exact (List.prefix_iff_eq_take.mp (List.takeWhile_prefix _)).symm
  have hlower : stream.position (· < low) =
      ((stream.entries.filter (·.id ≤ high)).takeWhile (·.id < low)).length := by
    rw [position, h.takeWhile_eq_filter (lower_lt low),
      hincreasing.takeWhile_eq_filter (lower_lt low), List.filter_filter]
    congr 1
    refine List.filter_congr fun entry _ => ?_
    by_cases hin : entry.id < low
    · simp [hin, le_trans (le_of_lt hin) hle]
    · simp [hin]
  simp only [if_neg hlt, ← List.drop_take]
  rw [hupper, hlower, hincreasing.drop_takeWhile_eq_filter (lower_lt low), List.filter_filter]
  congr 1
  refine List.filter_congr fun entry _ => ?_
  simp only [← not_lt (b := low), Bool.decide_and, decide_not]

/-- What is read above an id are exactly the entries with a greater id, up to the number that is
    wanted. -/
theorem Increasing.after_eq_filter (h : Increasing stream.entries) (above : StreamId)
    (count : Option Nat) :
    stream.after above count = takeCount count (stream.entries.filter (above < ·.id)) := by
  rw [after, h.drop_position]

/-- Only one entry has the id of an entry. -/
theorem Increasing.filter_between (h : Increasing stream.entries) {entry : StreamEntry}
    (hentry : entry ∈ stream.entries) :
    (stream.entries.filter fun other => entry.id ≤ other.id ∧ other.id ≤ entry.id) = [entry] := by
  rcases List.append_of_mem hentry with ⟨front, rest, hsplit⟩
  rw [hsplit] at h ⊢
  have hparts := List.pairwise_append.mp h
  have hrest := (List.pairwise_cons.mp hparts.2.1).1
  have hfront : ∀ other ∈ front, other.id < entry.id := fun other hother =>
    hparts.2.2 other hother entry List.mem_cons_self
  have hself : entry.id ≤ entry.id ∧ entry.id ≤ entry.id := ⟨le_refl _, le_refl _⟩
  rw [List.filter_append, List.filter_cons_of_pos (by simpa using hself),
    List.filter_eq_nil_iff.mpr, List.filter_eq_nil_iff.mpr, List.nil_append]
  · intro other hother hin
    exact not_lt.mpr (of_decide_eq_true hin).2 (hrest other hother)
  · intro other hother hin
    exact not_lt.mpr (of_decide_eq_true hin).1 (hfront other hother)

end Stream

end KeyValue
