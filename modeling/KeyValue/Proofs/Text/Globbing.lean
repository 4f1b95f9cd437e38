import KeyValue.Glob
import KeyValue.Proofs.Bounds.Checked

/-!
# Matching by place

The search for a match, with a place in the pattern and one in the text instead of what is left of
them. A star that was passed is remembered by the two places to go back to.

The places run into no fault: the text is only read in front of its end, a backslash looks at the
character behind it only if there is one, and a star that can still be gone back to has a character
left to take. Nor does the search go on forever, since every turn leaves less to search.

## Main definitions

* `Glob.Places`: Where the search is.
* `Glob.Places.turn`, `Glob.Places.run`: One turn, and turns to the end.
* `Glob.Places.isMatch`: Whether a text matches a pattern.

## Theorems

* `Places.turn_eq`: A turn by place is a turn of the search.
* `Places.run_eq`: The search ends within the turns that there is something to search for.
* `Places.isMatch_eq`: The search by place finds what the search finds.
-/

namespace KeyValue

namespace Glob

/-- Where the search is. -/
structure Places where
  /-- The place in the pattern. -/
  pattern : Nat := 0
  /-- The place in the text. -/
  text : Nat := 0
  /-- Behind the last star passed: the place in the pattern, and the place in the text that the star
      takes characters up to. -/
  star : Option (Nat × Nat) := none
  deriving DecidableEq, Repr

namespace Places

/-- What a turn comes to. -/
inductive Turn where
  | stop (answer : Bool)
  | go (places : Places)

/-- Go back to the last star, which then takes one character more. -/
def back (places : Places) : Turn :=
  match places.star with
  | some (pattern, text) => .go ⟨pattern, text + 1, some (pattern, text + 1)⟩
  | none => .stop false

/-- Go on behind the character of the text if it is the one expected. -/
def expect (places : Places) (text : List Char) (expected : Char) (taken : Nat) :
    Checked Turn := do
  let found ← Checked.item text places.text
  return if expected = found then
    .go { places with pattern := places.pattern + taken, text := places.text + 1 }
  else places.back

/-- At a backslash, the character behind it is expected if there is one. -/
def escape (pattern text : List Char) (places : Places) : Checked Turn :=
  if places.pattern + 1 < pattern.length then do
    let escaped ← Checked.item pattern (places.pattern + 1)
    places.expect text escaped 2
  else .ok places.back

/-- One turn of the search. -/
def turn (pattern text : List Char) (places : Places) : Checked Turn :=
  if places.text < text.length then
    match pattern[places.pattern]? with
    | none => .ok places.back
    | some '*' =>
      .ok (.go ⟨places.pattern + 1, places.text, some (places.pattern + 1, places.text)⟩)
    | some '?' =>
      .ok (.go { places with pattern := places.pattern + 1, text := places.text + 1 })
    | some '\\' => places.escape pattern text
    | some itself => places.expect text itself 1
  else do
    let rest ← Checked.behind pattern places.pattern
    return .stop (rest.all (· == '*'))

/-- Take turns to the end, which has to come within `turns` of them. -/
def run (pattern text : List Char) : Nat → Places → Checked Bool
  | 0, _ => .error .endless
  | turns + 1, places => do
    match ← places.turn pattern text with
    | .stop answer => return answer
    | .go places => run pattern text turns places

/-- Whether the text matches the pattern. For each place of the text there is one pass over the
    pattern at most. -/
def isMatch (pattern text : String) : Checked Bool :=
  let pattern := pattern.toList
  let text := text.toList
  run pattern text (text.length * (pattern.length + 1) + pattern.length + 1) {}

/-- The places stand for where the search is. -/
structure Marks (pattern text : List Char) (places : Places) (search : Search) : Prop where
  pattern_le : places.pattern ≤ pattern.length
  text_le : places.text ≤ text.length
  pattern_eq : search.pattern = pattern.drop places.pattern
  text_eq : search.text = text.drop places.text
  star_eq : search.star = places.star.map fun (starPattern, starText) =>
    ⟨pattern.drop starPattern, text.drop starText⟩
  star_le : ∀ starPattern starText, places.star = some (starPattern, starText) →
    starPattern ≤ pattern.length ∧ starText ≤ places.text

/-- A turn by place does what a turn of the search does. -/
inductive Turn.Marks (pattern text : List Char) : Turn → Search.Move → Prop where
  | stop (answer : Bool) : Turn.Marks pattern text (.stop answer) (.stop answer)
  | go {places : Places} {search : Search} (h : places.Marks pattern text search) :
      Turn.Marks pattern text (.go places) (.go search)

variable {pattern text : List Char} {places : Places} {search : Search}

theorem back_eq (h : places.Marks pattern text search) (hless : places.text < text.length) :
    Turn.Marks pattern text places.back search.back := by
  unfold back Search.back
  rw [h.star_eq]
  cases hstar : places.star with
  | none => exact .stop false
  | some star =>
      have hle := h.star_le star.1 star.2 hstar
      exact .go
        { pattern_le := hle.1
          text_le := by simp only; omega
          pattern_eq := rfl
          text_eq := List.tail_drop
          star_eq := by simp only [Search.afterStar, List.tail_drop, Option.map_some]
          star_le := by
            intro starPattern starText hsame
            rcases Prod.mk.inj (Option.some.inj hsame) with ⟨rfl, rfl⟩
            exact ⟨hle.1, Nat.le_refl _⟩ }

/-- What is left behind the first character. -/
theorem drop_succ_of_drop {items rest : List Char} {c : Char} {place : Nat}
    (h : items.drop place = c :: rest) : items.drop (place + 1) = rest := by
  rw [← List.tail_drop, h, List.tail_cons]

theorem getElem?_of_drop {items rest : List Char} {c : Char} {place : Nat}
    (h : items.drop place = c :: rest) : items[place]? = some c := by
  rw [← List.head?_drop, h, List.head?_cons]

-- A search that no part of the pattern tells where to go goes back.
theorem step_of_none {c : Char} {later : List Char} (htext : search.text = c :: later)
    (h : front search.pattern = none) : search.step = search.back := by
  rcases search.step_cases with ⟨hend, -⟩ | ⟨_, _, -, ⟨rest, hrun, -⟩ |
    ⟨token, rest, -, htoken, -⟩ | ⟨-, hback⟩⟩
  · simp [htext] at hend
  · simp [h] at hrun
  · simp [h] at htoken
  · exact hback

theorem step_of_run {c : Char} {later rest : List Char} (htext : search.text = c :: later)
    (h : front search.pattern = some (.run, rest)) :
    search.step = .go (Search.afterStar rest search.text) := by
  rcases search.step_cases with ⟨hend, -⟩ | ⟨_, _, -, ⟨rest', hrun, hstep⟩ |
    ⟨token, rest', -, htoken, htakes, -⟩ | ⟨hrefused, -⟩⟩
  · simp [htext] at hend
  · rw [h] at hrun
    rcases Prod.mk.inj (Option.some.inj hrun) with ⟨-, rfl⟩
    exact hstep
  · rw [h] at htoken
    rcases Prod.mk.inj (Option.some.inj htoken) with ⟨rfl, -⟩
    simp [Token.accepts] at htakes
  · exact absurd rfl (hrefused _ _ h).1

-- A character that the pattern expects is taken, and at any other one the search goes back.
theorem step_of_token {c : Char} {later rest : List Char} {token : Token}
    (htext : search.text = c :: later) (h : front search.pattern = some (token, rest))
    (hrun : token ≠ .run) :
    (token.accepts c = true ∧ ∃ shorter, search.step = .go (search.past rest later shorter)) ∨
      (token.accepts c = false ∧ search.step = search.back) := by
  rcases search.step_cases with ⟨hend, -⟩ | ⟨c', later', htext', hturn⟩
  · simp [htext] at hend
  rw [htext] at htext'
  rcases List.cons.inj htext' with ⟨rfl, rfl⟩
  rcases hturn with ⟨rest', hstar, -⟩ | ⟨token', rest', hshorter, htoken, htakes, hstep⟩ |
    ⟨hrefused, hback⟩
  · rw [h] at hstar
    exact absurd (Prod.mk.inj (Option.some.inj hstar)).1 hrun
  · rw [h] at htoken
    rcases Prod.mk.inj (Option.some.inj htoken) with ⟨rfl, rfl⟩
    exact Or.inl ⟨htakes, hshorter, hstep⟩
  · exact Or.inr ⟨(hrefused _ _ h).2, hback⟩

/-- Behind a character that was taken, the star passed last is the same. -/
theorem Marks.past (h : places.Marks pattern text search) {taken : Nat} {rest later : List Char}
    (hless : places.text < text.length) (hrest : pattern.drop (places.pattern + taken) = rest)
    (hlater : text.drop (places.text + 1) = later)
    (hle : places.pattern + taken ≤ pattern.length) (shorter) :
    Marks pattern text
      { places with pattern := places.pattern + taken, text := places.text + 1 }
      (search.past rest later shorter) where
  pattern_le := hle
  text_le := hless
  pattern_eq := hrest.symm
  text_eq := hlater.symm
  star_eq := h.star_eq
  star_le := fun _ _ hstar =>
    ⟨(h.star_le _ _ hstar).1, Nat.le_succ_of_le (h.star_le _ _ hstar).2⟩

/-- The search remembers the star it passes by the places behind it. -/
theorem Marks.afterStar (h : places.Marks pattern text search) {rest : List Char}
    (hle : places.pattern + 1 ≤ pattern.length)
    (hrest : pattern.drop (places.pattern + 1) = rest) :
    Marks pattern text
      ⟨places.pattern + 1, places.text, some (places.pattern + 1, places.text)⟩
      (Search.afterStar rest search.text) where
  pattern_le := hle
  text_le := h.text_le
  pattern_eq := hrest.symm
  text_eq := h.text_eq
  star_eq := by
    simp only [Search.afterStar, Option.map_some, hrest, h.text_eq]
  star_le := by
    intro starPattern starText hsame
    rcases Prod.mk.inj (Option.some.inj hsame) with ⟨rfl, rfl⟩
    exact ⟨hle, Nat.le_refl _⟩

theorem front_of_plain {c : Char} {rest : List Char} (hstar : c ≠ '*') (hone : c ≠ '?')
    (hescape : c ≠ '\\') : front (c :: rest) = some (.exactly c, rest) := by
  unfold front
  split <;> simp_all

-- A character is expected by place as it is by a part of the pattern.
theorem expect_eq (h : places.Marks pattern text search) {c expected : Char}
    {later rest : List Char} (htext : text.drop places.text = c :: later) {taken : Nat}
    (hfront : front search.pattern = some (.exactly expected, rest))
    (hrest : pattern.drop (places.pattern + taken) = rest)
    (hle : places.pattern + taken ≤ pattern.length) :
    ∃ turn, places.expect text expected taken = .ok turn ∧
      Turn.Marks pattern text turn search.step := by
  have hless : places.text < text.length := by
    have := congrArg List.length htext
    rw [List.length_drop, List.length_cons] at this
    omega
  unfold expect
  rw [Checked.item_eq_ok (getElem?_of_drop htext), Checked.ok_bind]
  refine ⟨_, rfl, ?_⟩
  rcases step_of_token (h.text_eq.trans htext) hfront (by simp) with
    ⟨htakes, shorter, hstep⟩ | ⟨hrefuses, hstep⟩
  · have hsame : expected = c := by simpa [Token.accepts] using htakes
    rw [if_pos hsame, hstep]
    exact .go (h.past hless hrest (drop_succ_of_drop htext) hle shorter)
  · have hother : expected ≠ c := by simpa [Token.accepts] using hrefuses
    rw [if_neg hother, hstep]
    exact back_eq h hless

-- A backslash takes the character behind it as it is, and where nothing follows it matches nothing.
theorem escape_eq (h : places.Marks pattern text search) {c : Char} {later rest : List Char}
    (htext : text.drop places.text = c :: later)
    (hpattern : pattern.drop places.pattern = '\\' :: rest) (hless : places.text < text.length) :
    ∃ turn, places.escape pattern text = .ok turn ∧
      Turn.Marks pattern text turn search.step := by
  have hrest := drop_succ_of_drop hpattern
  have hfront : front search.pattern = front ('\\' :: rest) := by rw [h.pattern_eq, hpattern]
  unfold escape
  by_cases hmore : places.pattern + 1 < pattern.length
  · rw [if_pos hmore]
    rcases rest with _ | ⟨escaped, rest⟩
    · have := List.drop_eq_nil_iff.mp hrest
      omega
    rw [Checked.item_eq_ok (getElem?_of_drop hrest), Checked.ok_bind]
    exact expect_eq h htext hfront (drop_succ_of_drop hrest) hmore
  · have hnothing : rest = [] := by
      rw [← hrest]
      exact List.drop_eq_nil_of_le (by omega)
    rw [hnothing] at hfront
    rw [if_neg hmore, step_of_none (h.text_eq.trans htext) hfront]
    exact ⟨_, rfl, back_eq h hless⟩

-- Where the text is used up, only stars may be left of the pattern.
theorem turn_eq_of_end (h : places.Marks pattern text search) (hend : text.length ≤ places.text) :
    ∃ turn, places.turn pattern text = .ok turn ∧ Turn.Marks pattern text turn search.step := by
  have hempty : search.text = [] := by
    rw [h.text_eq]
    exact List.drop_eq_nil_of_le hend
  rw [turn, if_neg (by omega), Checked.behind_eq_ok h.pattern_le, Checked.ok_bind, ← h.pattern_eq]
  refine ⟨_, rfl, ?_⟩
  rcases search.step_cases with ⟨-, hstep⟩ | ⟨_, _, htext, -⟩
  · rw [hstep]
    exact .stop _
  · rw [hempty] at htext
    exact nomatch htext

/-- A turn by place is a turn of the search, and runs into no fault. -/
theorem turn_eq (h : places.Marks pattern text search) :
    ∃ turn, places.turn pattern text = .ok turn ∧ Turn.Marks pattern text turn search.step := by
  by_cases hless : places.text < text.length
  case neg => exact turn_eq_of_end h (by omega)
  rcases htext : text.drop places.text with _ | ⟨c, later⟩
  · have := List.drop_eq_nil_iff.mp htext
    omega
  have htext' := h.text_eq.trans htext
  rw [turn, if_pos hless]
  rcases hpattern : pattern.drop places.pattern with _ | ⟨first, rest⟩
  · have hend : pattern[places.pattern]? = none := by
      rw [← List.head?_drop, hpattern, List.head?_nil]
    have hfront : front search.pattern = front [] := by rw [h.pattern_eq, hpattern]
    rw [hend, step_of_none htext' hfront]
    exact ⟨_, rfl, back_eq h hless⟩
  have hle : places.pattern + 1 ≤ pattern.length := by
    have := congrArg List.length hpattern
    rw [List.length_drop, List.length_cons] at this
    omega
  have hrest := drop_succ_of_drop hpattern
  have hfront : front search.pattern = front (first :: rest) := by rw [h.pattern_eq, hpattern]
  rw [getElem?_of_drop hpattern]
  split
  case h_1 hnone => exact nomatch hnone
  case h_2 hstar =>
    obtain rfl := Option.some.inj hstar
    rw [step_of_run htext' hfront]
    exact ⟨_, rfl, .go (h.afterStar hle hrest)⟩
  case h_3 hone =>
    obtain rfl := Option.some.inj hone
    refine ⟨_, rfl, ?_⟩
    rcases step_of_token htext' hfront (by simp) with ⟨-, shorter, hstep⟩ | ⟨hrefuses, -⟩
    · rw [hstep]
      exact .go (h.past hless hrest (drop_succ_of_drop htext) hle shorter)
    · simp [Token.accepts] at hrefuses
  case h_4 hescape =>
    obtain rfl := Option.some.inj hescape
    exact escape_eq h htext hpattern hless
  case h_5 hstar hone hescape hitself =>
    obtain rfl := Option.some.inj hitself
    exact expect_eq h htext (hfront.trans (front_of_plain hstar hone hescape)) hrest hle

/-- The search by place ends within the turns that there is something to search for. -/
theorem run_eq {turns : Nat} (h : places.Marks pattern text search)
    (hturns : search.weight < turns) : run pattern text turns places = .ok search.run := by
  induction turns generalizing places search with
  | zero => omega
  | succ turns ih =>
      rcases turn_eq h with ⟨turn, hturn, hmarks⟩
      rw [run, hturn, Checked.ok_bind, Search.run]
      cases hstep : search.step with
      | stop answer =>
          rw [hstep] at hmarks
          cases hmarks
          rfl
      | go next =>
          have hless := Search.weight_lt_of_step hstep
          rw [hstep] at hmarks
          cases hmarks with
          | go hnext => exact ih hnext (by omega)

/-- The search by place finds what the search finds. -/
theorem isMatch_eq (pattern text : String) :
    isMatch pattern text = .ok (Glob.isMatch pattern text) := by
  refine run_eq ?_ (Nat.lt_succ_self _)
  exact
    { pattern_le := Nat.zero_le _
      text_le := Nat.zero_le _
      pattern_eq := rfl
      text_eq := rfl
      star_eq := rfl
      star_le := nofun }

end Places

end Glob

end KeyValue
