import KeyValue.Glob

/-!
# What a pattern matches

`Glob.Matches` says what the parts of a pattern stand for, with no search: a star for any run of
characters, also none. The search finds out exactly that, and it ends, after at most one pass over
the pattern for each place of the text.

The search keeps one star to go back to and forgets those before it. Nothing is lost
(`Search.Kept.later`): the pattern between two stars takes a fixed number of characters, and the
search has seen it matched as early as it can be. Had an earlier star to take more, the part of
the text behind the last one would only begin later, and what begins later the last star reaches
as well.

## Main definitions

* `Glob.Matches`: What a pattern stands for.
* `Glob.Takes`: Parts of a pattern that are no stars take a character each.
* `Glob.Star.Reaches`: What going back to a star can still find.
* `Glob.Search.Kept`: The search has come from its star without passing another.
* `Glob.Search.Promising`: There is still a match to be found.
* `Glob.Search.Stops`: The search stops after some turns with an answer.

## Theorems

* `Search.promising_of_step`, `Search.answer_of_step`: A turn neither loses nor makes up a match.
* `Search.stops_run`: The search stops.
* `search_decides`: It answers whether the text matches.
-/

namespace KeyValue

namespace Glob

/-- What a pattern stands for. -/
inductive Matches : List Char → List Char → Prop where
  /-- The empty pattern stands for the empty text. -/
  | nil : Matches [] []
  /-- A star stands for any run of characters. -/
  | run {pattern text : List Char} (before : List Char) (rest : Matches pattern text) :
      Matches ('*' :: pattern) (before ++ text)
  /-- A question mark stands for any one character. -/
  | one {pattern text : List Char} (c : Char) (rest : Matches pattern text) :
      Matches ('?' :: pattern) (c :: text)
  /-- A backslash and a character stand for that character. -/
  | escaped {pattern text : List Char} (c : Char) (rest : Matches pattern text) :
      Matches ('\\' :: c :: pattern) (c :: text)
  /-- Any other character stands for itself. -/
  | itself {pattern text : List Char} (c : Char) (hplain : c ≠ '*' ∧ c ≠ '?' ∧ c ≠ '\\')
      (rest : Matches pattern text) : Matches (c :: pattern) (c :: text)

variable {pattern text rest : List Char} {token : Token} {c : Char}

/-- A star takes some of the text in front, and the rest of the pattern the end that is left. -/
theorem matches_star_iff :
    Matches ('*' :: pattern) text ↔ ∃ later, later <:+ text ∧ Matches pattern later := by
  constructor
  · intro h
    cases h with
    | run before rest => exact ⟨_, ⟨before, rfl⟩, rest⟩
    | itself c hplain rest => exact absurd rfl hplain.1
  · rintro ⟨later, ⟨before, rfl⟩, h⟩
    exact .run before h

/-- Only stars stand for nothing. -/
theorem matches_nil_iff : Matches pattern [] ↔ pattern.all (· == '*') = true := by
  induction pattern with
  | nil => simp [Matches.nil]
  | cons c pattern ih =>
    rw [List.all_cons, Bool.and_eq_true, beq_iff_eq, ← ih]
    constructor
    · intro h
      generalize hempty : ([] : List Char) = text at h
      cases h with
      | run before rest =>
        rcases List.append_eq_nil_iff.mp hempty.symm with ⟨rfl, rfl⟩
        exact ⟨rfl, rest⟩
      | one | escaped | itself => cases hempty
    · rintro ⟨rfl, h⟩
      exact .run [] h

-- All that a pattern can begin with.
theorem of_front_eq_some (hfirst : front pattern = some (token, rest)) :
    (token = .run ∧ pattern = '*' :: rest) ∨ (token = .one ∧ pattern = '?' :: rest) ∨
      (∃ d, token = .exactly d ∧ pattern = '\\' :: d :: rest) ∨
      (∃ d, token = .exactly d ∧ pattern = d :: rest ∧ d ≠ '*' ∧ d ≠ '?' ∧ d ≠ '\\') := by
  unfold front at hfirst
  split at hfirst <;> cases hfirst
  case h_2 => exact .inl ⟨rfl, rfl⟩
  case h_3 => exact .inr (.inl ⟨rfl, rfl⟩)
  case h_5 d => exact .inr (.inr (.inl ⟨d, rfl, rfl⟩))
  case h_6 d hnotRun hnotOne hnotLast hnotEscape =>
    refine .inr (.inr (.inr ⟨d, rfl, rfl, hnotRun, hnotOne, ?_⟩))
    rintro rfl
    cases rest with
    | nil => exact hnotLast rfl rfl
    | cons c rest => exact hnotEscape c rest rfl rfl

/-- The part of a pattern that takes any run is a star, and nothing else is. -/
theorem eq_star_of_front (hfirst : front pattern = some (.run, rest)) : pattern = '*' :: rest := by
  rcases of_front_eq_some hfirst with ⟨-, hwhole⟩ | ⟨hother, -⟩ | ⟨d, hother, -⟩ |
    ⟨d, hother, -⟩
  · exact hwhole
  all_goals cases hother

/-- A pattern has no first part if it is used up, or ends in a backslash. -/
theorem of_front_eq_none (hfirst : front pattern = none) : pattern = [] ∨ pattern = ['\\'] := by
  unfold front at hfirst
  split at hfirst <;> simp_all

-- A part that is no star takes one character.
theorem matches_iff_of_front (hfirst : front pattern = some (token, rest))
    (hsingle : token ≠ .run) :
    Matches pattern text ↔
      ∃ c later, text = c :: later ∧ token.accepts c = true ∧ Matches rest later := by
  constructor
  · intro h
    rcases of_front_eq_some hfirst with ⟨rfl, -⟩ | ⟨rfl, rfl⟩ | ⟨d, rfl, rfl⟩ |
      ⟨d, rfl, rfl, hplain⟩
    · exact absurd rfl hsingle
    · cases h with
      | one c later => exact ⟨c, _, rfl, rfl, later⟩
      | itself _ hplain => exact absurd rfl hplain.2.1
    · cases h with
      | escaped _ later => exact ⟨d, _, rfl, by simp [Token.accepts], later⟩
      | itself _ hplain => exact absurd rfl hplain.2.2
    · cases h with
      | itself _ _ later => exact ⟨d, _, rfl, by simp [Token.accepts], later⟩
      | run => exact absurd rfl hplain.1
      | one => exact absurd rfl hplain.2.1
      | escaped => exact absurd rfl hplain.2.2
  · rintro ⟨c, later, rfl, htakes, h⟩
    rcases of_front_eq_some hfirst with ⟨rfl, -⟩ | ⟨rfl, rfl⟩ | ⟨d, rfl, rfl⟩ |
      ⟨d, rfl, rfl, hplain⟩
    · exact absurd rfl hsingle
    · exact .one c h
    · rcases beq_iff_eq.mp htakes with rfl
      exact .escaped d h
    · rcases beq_iff_eq.mp htakes with rfl
      exact .itself d hplain h

/-- A pattern without a first part takes no character. -/
theorem not_matches_cons (hfirst : front pattern = none) : ¬ Matches pattern (c :: text) := by
  rcases of_front_eq_none hfirst with rfl | rfl
  · nofun
  · intro h
    cases h with
    | itself _ hplain => exact hplain.2.2 rfl

-- Where the front of the pattern does not take the next character, there is no match.
theorem not_matches_of_refused (hrefused : ∀ token rest, front pattern = some (token, rest) →
    token ≠ .run ∧ token.accepts c = false) : ¬ Matches pattern (c :: text) := by
  intro hmatched
  cases hfirst : front pattern with
  | none => exact not_matches_cons hfirst hmatched
  | some found =>
    rcases found with ⟨token, rest⟩
    rcases hrefused token rest hfirst with ⟨hsingle, hrefuses⟩
    rcases (matches_iff_of_front hfirst hsingle).mp hmatched with ⟨d, later, hwhole, htakes, -⟩
    rcases List.cons.inj hwhole with ⟨rfl, -⟩
    rw [hrefuses] at htakes
    cases htakes

/-- A star does not take a character by itself. -/
theorem Token.ne_run_of_accepts (htakes : token.accepts c = true) : token ≠ .run := by
  rintro rfl
  cases htakes

/-- Parts of a pattern that are no stars take a character each, from one place to another. -/
inductive Takes : List Char → List Char → List Char → List Char → Prop where
  | here (pattern text : List Char) : Takes pattern text pattern text
  | on {pattern text next rest left : List Char} {token : Token} {c : Char}
      (before : Takes pattern text next (c :: left)) (hfirst : front next = some (token, rest))
      (htakes : token.accepts c = true) : Takes pattern text rest left

variable {next left : List Char}

/-- What is left of a text is an end of it. -/
theorem Takes.suffix (h : Takes pattern text next left) : left <:+ text := by
  induction h with
  | here => exact List.suffix_rfl
  | on _ _ _ ih => exact (List.suffix_cons _ _).trans ih

/-- Any other text that the pattern matches loses the same number of characters to these parts. -/
theorem Takes.elsewhere (h : Takes pattern text next left) {other : List Char}
    (hmatched : Matches pattern other) :
    ∃ later, later <:+ other ∧ Matches next later ∧
      later.length + text.length = other.length + left.length := by
  induction h with
  | here => exact ⟨other, List.suffix_rfl, hmatched, rfl⟩
  | on _ hfirst htakes ih =>
    rcases ih with ⟨later, hsuffix, hmatched, hlengths⟩
    have hsingle := Token.ne_run_of_accepts htakes
    rcases (matches_iff_of_front hfirst hsingle).mp hmatched with ⟨d, later, rfl, -, hmatched⟩
    refine ⟨later, (List.suffix_cons _ _).trans hsuffix, hmatched, ?_⟩
    simp only [List.length_cons] at hlengths
    omega

/-- The star finds a match once it stands for one character more. -/
def Star.Reaches (star : Star) : Prop :=
  ∃ c later, star.text = c :: later ∧ Matches ('*' :: star.pattern) later

namespace Search

variable {search after : Search}

/-- The search has come from its star without passing another one. -/
def Kept (search : Search) : Prop :=
  ∀ star ∈ search.star, Takes star.pattern star.text search.pattern search.text

/-- There is a match to be found: from here on, or by going back to the star. -/
def Promising (search : Search) : Prop :=
  Matches search.pattern search.text ∨ ∃ star ∈ search.star, star.Reaches

/-- At the start no star was passed. -/
theorem kept_start (pattern text : List Char) : (start pattern text).Kept :=
  fun _ h => nomatch h

/-- At the start there is a match to be found exactly if the text matches. -/
theorem promising_start : (start pattern text).Promising ↔ Matches pattern text := by
  simp [Promising, start]

/-- A search that has just passed a star has taken nothing behind it. -/
theorem kept_afterStar (pattern text : List Char) : (afterStar pattern text).Kept := by
  intro star h
  cases h
  exact .here _ _

/-- To pass a star keeps all its matches in sight: those that leave it nothing are ahead, and the
    others are behind it, for when the search goes back. -/
theorem promising_afterStar :
    (afterStar pattern text).Promising ↔ Matches ('*' :: pattern) text := by
  have hreaches : (∃ star ∈ (afterStar pattern text).star, star.Reaches) ↔
      ∃ c later, text = c :: later ∧ Matches ('*' :: pattern) later := by
    simp [afterStar, Star.Reaches]
  rw [Promising, hreaches, matches_star_iff]
  constructor
  · rintro (hmatched | ⟨c, later, rfl, hmatched⟩)
    · exact ⟨text, List.suffix_rfl, hmatched⟩
    · rcases matches_star_iff.mp hmatched with ⟨rest, hsuffix, hmatched⟩
      exact ⟨rest, hsuffix.trans (List.suffix_cons c later), hmatched⟩
  · rintro ⟨later, hsuffix, hmatched⟩
    rcases text with - | ⟨c, text⟩
    · rcases List.suffix_nil.mp hsuffix with rfl
      exact .inl hmatched
    · rcases List.suffix_cons_iff.mp hsuffix with rfl | hsuffix
      · exact .inl hmatched
      · exact .inr ⟨c, text, rfl, matches_star_iff.mpr ⟨later, hsuffix, hmatched⟩⟩

/-- What a star reaches, the pattern at the search reaches too: from the star on it takes as many
    characters there as it took up to here, so it is left with an end of the text left here. -/
theorem Kept.later (hkept : search.Kept) {star : Star} (hpassed : search.star = some star)
    (hreaches : star.Reaches) :
    ∃ later, later <:+ search.text ∧ later.length < search.text.length ∧
      Matches search.pattern later := by
  rcases hreaches with ⟨c, behind, hleaves, hmatched⟩
  rcases matches_star_iff.mp hmatched with ⟨other, hsuffix, hmatched⟩
  have htaken := hkept star hpassed
  rcases htaken.elsewhere hmatched with ⟨later, hinOther, hmatched, hlengths⟩
  have hshorter : other.length < star.text.length := by
    rw [hleaves, List.length_cons]
    exact Nat.lt_succ_of_le hsuffix.length_le
  have hinText : later <:+ star.text :=
    hleaves ▸ hinOther.trans (hsuffix.trans (List.suffix_cons c behind))
  exact ⟨later, List.suffix_of_suffix_length_le hinText htaken.suffix (by omega), by omega,
    hmatched⟩

/-- The search stays behind its star, be it the old one or one that it has just passed. -/
theorem step_kept (hkept : search.Kept) (h : search.step = .go after) : after.Kept := by
  rcases search.step_cases with ⟨-, hturn⟩ | ⟨c, text, htext, ⟨rest, -, hturn⟩ |
    ⟨token, rest, hshorter, hfirst, htakes, hturn⟩ | ⟨-, hturn⟩⟩ <;> rw [hturn] at h
  · cases h
  · cases h
    exact kept_afterStar _ _
  · cases h
    intro star hpassed
    have htaken := hkept star hpassed
    rw [htext] at htaken
    exact htaken.on hfirst htakes
  · cases hpassed : search.star with
    | none => simp [back, hpassed] at h
    | some star =>
      simp only [back, hpassed, Move.go.injEq] at h
      exact h ▸ kept_afterStar _ _

-- Without a match from here on, what is left to be found is what the star reaches.
theorem promising_of_back {c : Char} {text : List Char} (htext : search.text = c :: text)
    (hstuck : ¬ Matches search.pattern (c :: text)) (h : search.back = .go after) :
    after.Promising ↔ search.Promising := by
  cases hpassed : search.star with
  | none => simp [back, hpassed] at h
  | some star =>
    simp only [back, hpassed, Move.go.injEq] at h
    have hlonger := (search.behind star hpassed).2
    rw [htext, List.length_cons] at hlonger
    rw [← h, promising_afterStar, Promising, htext, or_iff_right hstuck]
    constructor
    · intro hmatched
      have hpos : 0 < star.text.length := by omega
      rcases List.exists_cons_of_length_pos hpos with ⟨d, left, hleaves⟩
      rw [hleaves, List.tail_cons] at hmatched
      exact ⟨star, hpassed, d, left, hleaves, hmatched⟩
    · rintro ⟨other, hsame, d, left, hleaves, hmatched⟩
      rcases Option.some.inj (hpassed.symm.trans hsame) with rfl
      rw [hleaves, List.tail_cons]
      exact hmatched

/-- A turn of the search neither loses a match nor makes one up. -/
theorem promising_of_step (hkept : search.Kept) (h : search.step = .go after) :
    after.Promising ↔ search.Promising := by
  rcases search.step_cases with ⟨-, hturn⟩ | ⟨c, text, htext, ⟨rest, hfirst, hturn⟩ |
    ⟨token, rest, hshorter, hfirst, htakes, hturn⟩ | ⟨hrefused, hturn⟩⟩ <;> rw [hturn] at h
  · cases h
  · -- Whatever the star before this one reaches, this one reaches.
    cases h
    have hfirst := eq_star_of_front hfirst
    rw [promising_afterStar, ← hfirst]
    refine ⟨.inl, ?_⟩
    rintro (hmatched | ⟨star, hpassed, hreaches⟩)
    · exact hmatched
    · rcases hkept.later hpassed hreaches with ⟨later, hsuffix, -, hmatched⟩
      rw [hfirst, matches_star_iff] at hmatched ⊢
      rcases hmatched with ⟨rest, hinLater, hmatched⟩
      exact ⟨rest, hinLater.trans hsuffix, hmatched⟩
  · cases h
    have hsame : Matches search.pattern search.text ↔ Matches rest text := by
      rw [matches_iff_of_front hfirst (Token.ne_run_of_accepts htakes), htext]
      constructor
      · rintro ⟨d, later, hwhole, -, hmatched⟩
        rcases List.cons.inj hwhole with ⟨-, rfl⟩
        exact hmatched
      · intro hmatched
        exact ⟨c, text, rfl, htakes, hmatched⟩
    rw [Promising, Promising, hsame]
    exact Iff.rfl
  · exact promising_of_back htext (not_matches_of_refused hrefused) h

/-- When the search stops, its answer is whether there was a match to be found. -/
theorem answer_of_step (hkept : search.Kept) {answer : Bool} (h : search.step = .stop answer) :
    answer = true ↔ search.Promising := by
  rcases search.step_cases with ⟨htext, hturn⟩ | ⟨c, text, htext, ⟨rest, hfirst, hturn⟩ |
    ⟨token, rest, hshorter, hfirst, htakes, hturn⟩ | ⟨hrefused, hturn⟩⟩ <;> rw [hturn] at h
  · cases h
    rw [← matches_nil_iff, Promising, htext]
    refine ⟨.inl, ?_⟩
    rintro (hmatched | ⟨star, hpassed, hreaches⟩)
    · exact hmatched
    · -- There is no text left that could be taken later.
      rcases hkept.later hpassed hreaches with ⟨later, -, hshorter, -⟩
      simp [htext] at hshorter
  · cases h
  · cases h
  · cases hpassed : search.star with
    | some star => simp [back, hpassed] at h
    | none =>
      simp only [back, hpassed, Move.stop.injEq] at h
      have hnone : ¬ Matches search.pattern (c :: text) := not_matches_of_refused hrefused
      simp [← h, Promising, hpassed, htext, hnone]

/-- The search stops after this number of turns with this answer. -/
inductive Stops : Search → Nat → Bool → Prop where
  | now {search : Search} {answer : Bool} (h : search.step = .stop answer) : Stops search 1 answer
  | later {search after : Search} {turns : Nat} {answer : Bool} (h : search.step = .go after)
      (rest : Stops after turns answer) : Stops search (turns + 1) answer

/-- The search stops before it has taken more turns than there is to search. -/
theorem stops_run (search : Search) :
    ∃ turns, turns ≤ search.weight + 1 ∧ Stops search turns search.run := by
  fun_induction run search with
  | case1 search answer h => exact ⟨1, by omega, .now h⟩
  | case2 search after h ih =>
    rcases ih with ⟨turns, hfew, hstops⟩
    have hless := weight_lt_of_step h
    exact ⟨turns + 1, by omega, .later h hstops⟩

/-- Over all its turns, the search answers whether there was a match to be found when it began. -/
theorem Stops.answer_iff {turns : Nat} {answer : Bool} (h : Stops search turns answer)
    (hkept : search.Kept) : answer = true ↔ search.Promising := by
  induction h with
  | now h => exact answer_of_step hkept h
  | later h _ ih => exact (ih (step_kept hkept h)).trans (promising_of_step hkept h)

end Search

/-- The search stops, after at most one pass over the pattern for each place of the text, and it
    answers whether the text matches the pattern. -/
theorem search_decides (pattern text : String) :
    (∃ turns, turns ≤ (text.toList.length + 1) * (pattern.toList.length + 1) ∧
      (Search.start pattern.toList text.toList).Stops turns (isMatch pattern text)) ∧
    (isMatch pattern text = true ↔ Matches pattern.toList text.toList) := by
  rcases (Search.start pattern.toList text.toList).stops_run with ⟨turns, hfew, hstops⟩
  have hbound : (Search.start pattern.toList text.toList).weight + 1 =
      (text.toList.length + 1) * (pattern.toList.length + 1) := by
    simp only [Search.weight, Search.anchor, Search.start, Option.getD_none, Nat.succ_mul]
    omega
  exact ⟨⟨turns, hbound ▸ hfew, hstops⟩,
    (hstops.answer_iff (Search.kept_start _ _)).trans Search.promising_start⟩

end Glob

end KeyValue
