import KeyValue.Keyspace

/-!
# What a keyspace holds for good

The clock matters to a keyspace in one way only: a key may expire. What a key holds without a
deadline is there at every time.

The contents of a keyspace are what its keys hold without a deadline. Reading may remove keys that
have one, and leaves the contents alone (`Prunes`). While every other key is known to be expired
(`Settled`), what a key holds at any later time is what the contents say (`live?_of_settled`).

## Main definitions

* `Contents`: What each key holds.
* `Keyspace.contents`: What each key holds without a deadline.
* `Keyspace.Settled`: Only expired keys have a deadline.
* `Keyspace.Prunes`: Keys with a deadline may be gone.

## Theorems

* `item?_filter`, `item?_erase`, `item?_insert`, `item?_touch`, `item?_keys`: Keys one by one.
* `live?_of_settled`: What a key holds does not depend on the time.
* `touch_prunes`, `keys_prunes`: Reading removes keys with a deadline.
-/

namespace KeyValue

/-- What each key holds. -/
def Contents : Type := String → Option Value

-- An item without a deadline does not expire.
theorem Item.isExpired_of_never {item : Item} (h : item.deadline = .never) (now : UInt64) :
    item.isExpired now = false := by
  rw [isExpired, h]
  rfl

/-- An expired item stays expired. -/
theorem Item.isExpired_of_le {item : Item} {since now : UInt64} (hle : since ≤ now)
    (h : item.isExpired since = true) : item.isExpired now = true := by
  simp only [isExpired, Deadline.hasPassed, Bool.and_eq_true, bne_iff_ne, decide_eq_true_eq] at h ⊢
  exact ⟨h.1, UInt64.le_trans h.2 hle⟩

namespace Keyspace

-- Among keys that occur once, what a key is found to hold is not hidden by other keys.
theorem lookup_filter {entries : List (String × Item)} (hnodup : (entries.map (·.1)).Nodup)
    (keep : String × Item → Bool) (key : String) :
    (entries.filter keep).lookup key =
      (entries.lookup key).filter fun item => keep (key, item) := by
  induction entries with
  | nil => rfl
  | cons entry rest ih =>
      rcases entry with ⟨first, item⟩
      rw [List.map_cons, List.nodup_cons] at hnodup
      by_cases hkey : key = first
      · subst hkey
        -- The key comes once, so if it is dropped here it is not found further on.
        have hnone : rest.lookup key = none := by
          rw [List.lookup_eq_none_iff]
          intro other hother
          have hne : key ≠ other.1 := fun heq =>
            hnodup.1 (List.mem_map.mpr ⟨other, hother, heq.symm⟩)
          simpa using hne
        by_cases hkeep : keep (key, item) = true
        · rw [List.filter_cons_of_pos hkeep, List.lookup_cons_self, List.lookup_cons_self,
            Option.filter_some, if_pos hkeep]
        · rw [List.filter_cons_of_neg hkeep, ih hnodup.2, hnone, List.lookup_cons_self,
            Option.filter_some, if_neg hkeep]
          rfl
      · have hne : (key == first) = false := by simpa using hkey
        by_cases hkeep : keep (first, item) = true
        · rw [List.filter_cons_of_pos hkeep, List.lookup_cons, List.lookup_cons, hne]
          exact ih hnodup.2
        · rw [List.filter_cons_of_neg hkeep, List.lookup_cons, hne]
          exact ih hnodup.2

/-- What a key holds is kept if the condition is true of it. -/
theorem item?_filter (keyspace : Keyspace) (keep : String × Item → Bool) (key : String) :
    (keyspace.filter keep).item? key =
      (keyspace.item? key).filter fun item => keep (key, item) :=
  lookup_filter keyspace.nodup keep key

/-- Erasing a key leaves the others. -/
theorem item?_erase (keyspace : Keyspace) (key other : String) :
    (keyspace.erase key).item? other = if other = key then none else keyspace.item? other := by
  rw [erase, item?_filter]
  by_cases hkey : other = key
  · simp [hkey]
  · have hne : (other != key) = true := by simpa using hkey
    simp only [hne, if_neg hkey]
    cases keyspace.item? other <;> rfl

/-- A key holds what was inserted last. -/
theorem item?_insert (keyspace : Keyspace) (key other : String) (item : Item) :
    (keyspace.insert key item).item? other =
      if other = key then some item else keyspace.item? other := by
  have herase := keyspace.item?_erase key other
  by_cases hkey : other = key
  · rw [if_pos hkey, hkey]
    exact List.lookup_cons_self
  · rw [if_neg hkey] at herase ⊢
    rw [← herase]
    have hne : (other == key) = false := by simpa using hkey
    simp only [insert, item?, List.lookup_cons, hne]

/-- Touching a key leaves what is live of it. -/
theorem item?_touch (keyspace : Keyspace) (now : UInt64) (key other : String) :
    (keyspace.touch now key).item? other =
      if other = key then keyspace.live? now other else keyspace.item? other := by
  unfold touch live?
  cases hitem : keyspace.item? key with
  | none =>
      by_cases hkey : other = key
      · simp [hkey, hitem]
      · simp [hkey]
  | some item =>
      by_cases hexpired : item.isExpired now = true
      · simp only [if_pos hexpired, item?_erase]
        by_cases hkey : other = key
        · simp [hkey, hitem, hexpired, Option.filter_some]
        · simp [hkey]
      · simp only [if_neg hexpired]
        by_cases hkey : other = key
        · simp [hkey, hitem, hexpired, Option.filter_some]
        · simp [hkey]

/-- Listing the keys leaves what is live. -/
theorem item?_keys (keyspace : Keyspace) (now : UInt64) (key : String) :
    (keyspace.keys now).2.item? key = keyspace.live? now key :=
  keyspace.item?_filter _ key

/-- What each key holds without a deadline. -/
def contents (keyspace : Keyspace) : Contents := fun key =>
  ((keyspace.item? key).filter fun item => item.deadline = .never).map (·.value)

-- A key that is there without a deadline is in the contents.
theorem contents_eq_some {keyspace : Keyspace} {key : String} {value : Value} :
    keyspace.contents key = some value ↔ keyspace.item? key = some ⟨value, .never⟩ := by
  unfold contents
  cases hitem : keyspace.item? key with
  | none => simp
  | some item =>
      rcases item with ⟨held, deadline⟩
      by_cases hnever : deadline = .never
      · simp [hnever, Option.filter_some]
      · simp [hnever, Option.filter_some]

/-- Every key that has a deadline is expired at the time `since`. -/
def Settled (since : UInt64) (keyspace : Keyspace) : Prop :=
  ∀ key item, keyspace.item? key = some item →
    item.deadline = .never ∨ item.isExpired since = true

-- A keyspace whose live keys have no deadline is settled.
theorem settled_of_live? {since : UInt64} {keyspace : Keyspace}
    (h : ∀ key item, keyspace.live? since key = some item → item.deadline = .never) :
    keyspace.Settled since := by
  intro key item hitem
  by_cases hexpired : item.isExpired since = true
  · exact Or.inr hexpired
  · left
    apply h key item
    rw [live?, hitem, Option.filter_some, if_pos]
    simpa using hexpired

/-- What a settled keyspace holds does not depend on the time. -/
theorem live?_of_settled {since now : UInt64} {keyspace : Keyspace} (h : keyspace.Settled since)
    (hle : since ≤ now) (key : String) :
    keyspace.live? now key = (keyspace.contents key).map fun value => ⟨value, .never⟩ := by
  unfold live? contents
  cases hitem : keyspace.item? key with
  | none => rfl
  | some item =>
      rcases item with ⟨value, deadline⟩
      by_cases hnever : deadline = .never
      · subst hnever
        have hlive : Item.isExpired ⟨value, .never⟩ now = false := Item.isExpired_of_never rfl now
        simp [hlive, Option.filter_some]
      · -- A key with a deadline was expired then, so it is expired now.
        rcases h key _ hitem with hsettled | hexpired
        · exact absurd hsettled hnever
        · have hgone := Item.isExpired_of_le hle hexpired
          simp [hgone, hnever, Option.filter_some]

/-- Keys that have a deadline may be gone; nothing else differs. -/
def Prunes (before after : Keyspace) : Prop :=
  ∀ key, after.item? key = before.item? key ∨
    after.item? key = none ∧ before.contents key = none

/-- Nothing has to be gone. -/
theorem Prunes.refl (keyspace : Keyspace) : keyspace.Prunes keyspace := fun _ => Or.inl rfl

/-- Pruning removes only what has a deadline, and that is not part of the contents. -/
theorem Prunes.contents_eq {before after : Keyspace} (h : before.Prunes after) :
    after.contents = before.contents := by
  funext key
  rcases h key with hsame | ⟨hgone, hnone⟩
  · rw [contents, contents, hsame]
  · rw [hnone, contents, hgone]
    rfl

theorem Prunes.trans {before middle after : Keyspace} (h : before.Prunes middle)
    (h' : middle.Prunes after) : before.Prunes after := by
  intro key
  rcases h' key with hsame | ⟨hgone, hnone⟩
  · rw [hsame]
    exact h key
  · rw [h.contents_eq] at hnone
    exact Or.inr ⟨hgone, hnone⟩

/-- What is there after pruning was there before. -/
theorem Prunes.item? {before after : Keyspace} (h : before.Prunes after) {key : String}
    {item : Item} (hitem : after.item? key = some item) : before.item? key = some item := by
  rcases h key with hsame | ⟨hgone, _⟩
  · rw [← hsame, hitem]
  · rw [hgone] at hitem
    simp only [reduceCtorEq] at hitem

/-- A settled keyspace stays settled when keys are gone. -/
theorem Prunes.settled {since : UInt64} {before after : Keyspace} (h : before.Prunes after)
    (hsettled : before.Settled since) : after.Settled since :=
  fun key item hitem => hsettled key item (h.item? hitem)

-- What is not live now has a deadline.
theorem live?_eq_or (keyspace : Keyspace) (now : UInt64) (key : String) :
    keyspace.live? now key = keyspace.item? key ∨
      keyspace.live? now key = none ∧ keyspace.contents key = none := by
  unfold live? contents
  cases keyspace.item? key with
  | none => exact Or.inl rfl
  | some item =>
      by_cases hexpired : item.isExpired now = true
      · right
        have hdeadline : item.deadline ≠ .never := by
          intro hnever
          rw [Item.isExpired_of_never hnever] at hexpired
          simp only [Bool.false_eq_true] at hexpired
        simp [hexpired, hdeadline, Option.filter_some]
      · left
        simp [hexpired, Option.filter_some]

/-- Touching a key prunes it at most. -/
theorem touch_prunes (keyspace : Keyspace) (now : UInt64) (key : String) :
    keyspace.Prunes (keyspace.touch now key) := by
  intro other
  rw [item?_touch]
  by_cases hkey : other = key
  · rw [if_pos hkey]
    exact keyspace.live?_eq_or now other
  · rw [if_neg hkey]
    exact Or.inl rfl

/-- Listing the keys prunes all that are expired. -/
theorem keys_prunes (keyspace : Keyspace) (now : UInt64) :
    keyspace.Prunes (keyspace.keys now).2 := by
  intro key
  rw [item?_keys]
  exact keyspace.live?_eq_or now key

end Keyspace

end KeyValue
