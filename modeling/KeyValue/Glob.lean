/-!
# Key patterns

A pattern selects keys: a star stands for any run of characters, a question mark for any one
character, and a backslash takes the character after it literally. A backslash at the very end
takes nothing and matches nothing.

The search goes along the pattern and the text together. A star is first taken to stand for
nothing; where the search cannot go on, it goes back to the last star passed and lets it stand for
one character more. Only the last star is kept: what an earlier one could still take, the last one
can take as well.

## Main definitions

* `Glob.front`: The first part of a pattern, and what follows it.
* `Glob.Search`: Where the search is, and the star it goes back to.
* `Glob.Search.step`: One turn of the search.
* `Glob.isMatch`: Whether a text matches.

## Theorems

* `Glob.Search.weight_lt_of_step`: A turn leaves less to search, so the search ends.
-/

namespace KeyValue

namespace Glob

/-- One part of a pattern. -/
inductive Token where
  /-- Any run of characters. -/
  | run
  /-- Any one character. -/
  | one
  /-- This character. -/
  | exactly (c : Char)
  deriving DecidableEq, Repr

/-- The first part of a pattern, and what follows it; nothing where no character can match. -/
def front : List Char → Option (Token × List Char)
  | [] => none
  | '*' :: rest => some (.run, rest)
  | '?' :: rest => some (.one, rest)
  | ['\\'] => none
  | '\\' :: c :: rest => some (.exactly c, rest)
  | c :: rest => some (.exactly c, rest)

theorem length_front {pattern rest : List Char} {token : Token}
    (h : front pattern = some (token, rest)) : rest.length < pattern.length := by
  unfold front at h
  split at h <;> grind

/-- Whether the token takes the character. -/
def Token.accepts : Token → Char → Bool
  | .run, _ => false
  | .one, _ => true
  | .exactly d, c => d == c

/-- A star that was passed: the pattern behind it, and the text it leaves to that pattern. -/
structure Star where
  pattern : List Char
  text : List Char
  deriving DecidableEq, Repr

/-- Where the search is. -/
structure Search where
  /-- The pattern still to be matched. -/
  pattern : List Char
  /-- The text still to be matched. -/
  text : List Char
  /-- The last star passed. -/
  star : Option Star
  /-- The search is never before the star it goes back to. -/
  behind : ∀ s ∈ star, pattern.length ≤ s.pattern.length ∧ text.length ≤ s.text.length

namespace Search

/-- The search at its beginning: no star was passed. -/
def start (pattern text : List Char) : Search :=
  ⟨pattern, text, none, fun _ h => nomatch h⟩

/-- The search just behind a star that leaves this text. -/
def afterStar (pattern text : List Char) : Search :=
  ⟨pattern, text, some ⟨pattern, text⟩, fun _ h => by cases h; exact ⟨Nat.le_refl _, Nat.le_refl _⟩⟩

/-- The search behind a token that took a character. -/
def past (search : Search) (pattern text : List Char)
    (hshorter : pattern.length ≤ search.pattern.length ∧ text.length ≤ search.text.length) :
    Search :=
  ⟨pattern, text, search.star, fun s h =>
    ⟨Nat.le_trans hshorter.1 (search.behind s h).1, Nat.le_trans hshorter.2 (search.behind s h).2⟩⟩

/-- What a turn of the search comes to. -/
inductive Move where
  /-- The search ends with this answer. -/
  | stop (answer : Bool)
  /-- The search goes on from here. -/
  | go (search : Search)

/-- Going back to the last star, which then stands for one character more. -/
def back (search : Search) : Move :=
  match search.star with
  | some star => .go (afterStar star.pattern star.text.tail)
  | none => .stop false

/-- One turn of the search. Where the text is used up, only stars may be left of the pattern. -/
def step (search : Search) : Move :=
  match htext : search.text with
  | [] => .stop (search.pattern.all (· == '*'))
  | c :: text =>
    match hfirst : front search.pattern with
    | none => search.back
    | some (.run, rest) => .go (afterStar rest search.text)
    | some (token, rest) =>
      if token.accepts c then
        .go (search.past rest text ⟨Nat.le_of_lt (length_front hfirst), by simp [htext]⟩)
      else search.back

/-- All that a turn can be: the end of the text, a star, a token that takes a character, or going
    back. -/
theorem step_cases (search : Search) :
    (search.text = [] ∧ search.step = .stop (search.pattern.all (· == '*'))) ∨
    (∃ c text, search.text = c :: text ∧
      ((∃ rest, front search.pattern = some (.run, rest) ∧
          search.step = .go (afterStar rest search.text)) ∨
        (∃ token rest hshorter, front search.pattern = some (token, rest) ∧
          token.accepts c = true ∧ search.step = .go (search.past rest text hshorter)) ∨
        ((∀ token rest, front search.pattern = some (token, rest) →
            token ≠ .run ∧ token.accepts c = false) ∧ search.step = search.back))) := by
  fun_cases step search
  case case1 htext => exact .inl ⟨htext, rfl⟩
  case case2 c text htext hfirst =>
    refine .inr ⟨c, text, htext, .inr (.inr ⟨fun token rest h => ?_, rfl⟩)⟩
    rw [hfirst] at h
    cases h
  case case3 c text htext rest hfirst =>
    exact .inr ⟨c, text, htext, .inl ⟨rest, hfirst, rfl⟩⟩
  case case4 c text htext token rest hother hfirst htakes =>
    exact .inr ⟨c, text, htext, .inr (.inl ⟨token, rest, _, hfirst, htakes, rfl⟩)⟩
  case case5 c text htext token rest hother hfirst htakes =>
    refine .inr ⟨c, text, htext, .inr (.inr ⟨fun token' rest' h => ?_, rfl⟩)⟩
    rw [hfirst] at h
    cases h
    exact ⟨hother, by simpa using htakes⟩

/-- The star to go back to, or where the search is. -/
def anchor (search : Search) : Star :=
  search.star.getD ⟨search.pattern, search.text⟩

theorem le_anchor (search : Search) :
    search.pattern.length ≤ search.anchor.pattern.length ∧
      search.text.length ≤ search.anchor.text.length := by
  cases h : search.star with
  | none => simp [anchor, h]
  | some star => simpa [anchor, h] using search.behind star h

/-- How much there is to search: each character the star may still take costs one pass over the
    pattern behind it. -/
def weight (search : Search) : Nat :=
  search.anchor.text.length * (search.anchor.pattern.length + 1) + search.pattern.length

theorem weight_afterStar (pattern text : List Char) :
    (afterStar pattern text).weight = text.length * (pattern.length + 1) + pattern.length := rfl

theorem weight_lt_of_step {search next : Search} (h : search.step = .go next) :
    next.weight < search.weight := by
  rcases search.le_anchor with ⟨hpattern, hanchor⟩
  rcases search.step_cases with ⟨-, hstops⟩ | ⟨c, text, htext, hturn⟩
  · rw [hstops] at h
    cases h
  have hlength : search.text.length = text.length + 1 := by simp [htext]
  rcases hturn with ⟨rest, hfirst, hgoes⟩ | ⟨token, rest, hshorter, hfirst, -, hgoes⟩ |
    ⟨-, hgoes⟩ <;> rw [hgoes] at h
  · -- The star passed now stands behind the one passed before it.
    cases h
    have hfewer := length_front hfirst
    have hproduct := Nat.mul_le_mul hanchor (Nat.add_le_add_right
      (Nat.le_trans (Nat.le_of_lt hfewer) hpattern) 1)
    rw [weight_afterStar, weight]
    omega
  · cases h
    have hfewer := length_front hfirst
    cases hpassed : search.star with
    | some star =>
      simp only [weight, anchor, past, hpassed, Option.getD_some]
      omega
    | none =>
      have hproduct : text.length * (rest.length + 1) ≤
          search.text.length * (search.pattern.length + 1) :=
        Nat.mul_le_mul (by omega) (by omega)
      simp only [weight, anchor, past, hpassed, Option.getD_none]
      omega
  · -- The star takes a character of those it has left.
    cases hpassed : search.star with
    | none => simp [back, hpassed] at h
    | some star =>
      simp only [back, hpassed, Move.go.injEq] at h
      subst h
      have hstar : search.anchor = star := by simp [anchor, hpassed]
      rw [hstar] at hanchor
      have hpos : 0 < star.text.length := by omega
      rcases List.exists_cons_of_length_pos hpos with ⟨d, left, hleaves⟩
      rw [weight_afterStar, weight, hstar, hleaves, List.tail_cons, List.length_cons, Nat.succ_mul]
      omega

/-- The answer of the search from here. -/
def run (search : Search) : Bool :=
  match _h : search.step with
  | .stop answer => answer
  | .go next => next.run
termination_by search.weight
decreasing_by exact weight_lt_of_step ‹_›

end Search

/-- Whether the text matches the pattern. -/
def isMatch (pattern text : String) : Bool :=
  (Search.start pattern.toList text.toList).run

end Glob

end KeyValue
