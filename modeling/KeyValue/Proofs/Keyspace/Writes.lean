import KeyValue.Proofs.Keyspace.Contents
import KeyValue.Proofs.Stream.Growth

/-!
# Writing to a keyspace

Writes that set no deadline can be told on contents alone, without a clock.

`Effect` compares the outcome of an operation on a keyspace with one on contents: both succeed and
lead to the same contents, or both fail and the contents stay. For an entry that is added this needs
sound streams: a refused id removes a stream without entries, which would otherwise be lost where
it was before. No stream without entries is ever left behind, and no stream is given a deadline, so
soundness is preserved.

## Main definitions

* `Contents.hold`, `Contents.increment`, `Contents.addEntry`: Writes on contents.
* `Keyspace.Sound`: All streams are sound and have no deadline.
* `Keyspace.Effect`: An operation does what an operation on contents does.
* `Keyspace.Changes`: What a request can do to a keyspace.
* `Keyspace.Invariant`: Properties of keyspaces that changes preserve.

## Theorems

* `set_effect`, `increment_effect`, `addEntry_effect`: Writes are writes on contents.
* `increment_error`, `addEntry_error`: A write that is refused touches its key.
* `Sound.set`, `Sound.increment`, `Sound.addEntry`: Writes keep streams sound.
* `sound_invariant`: That streams are sound is such a property.
* `Settled.increment`, `Settled.addEntry`: Writes set no deadline.
-/

namespace KeyValue

namespace Contents

/-- Let a key hold a value. -/
def hold (contents : Contents) (key : String) (value : Value) : Contents :=
  fun other => if other = key then some value else contents other

/-- Add one to the integer of a key; none if that fails. -/
def increment (contents : Contents) (key : String) : Option Contents :=
  match contents key with
  | some (.integer number) =>
    if number = Int64.maxValue then none else some (contents.hold key (.integer (number + 1)))
  | _ => none

/-- Add an entry to the stream of a key, which asks for an id that does not depend on the time; none
    if that fails. -/
def addEntry (contents : Contents) (key : String) (request : IdRequest)
    (fields : List (String × String)) : Option Contents :=
  match (contents key).getD (.stream .empty) with
  | .stream stream =>
    match stream.nextId request 0 with
    | .ok id => some (contents.hold key (.stream ⟨stream.entries ++ [⟨id, fields⟩]⟩))
    | .error _ => none
  | _ => none

end Contents

namespace Keyspace

/-- All streams are sound and have no deadline. -/
def Sound (keyspace : Keyspace) : Prop :=
  ∀ key item stream, keyspace.item? key = some item → item.value = .stream stream →
    stream.Sound ∧ item.deadline = .never

/-- Streams that are still there after pruning are the ones that were there. -/
theorem Prunes.sound {before after : Keyspace} (h : before.Prunes after) (hsound : before.Sound) :
    after.Sound :=
  fun key item stream hitem => hsound key item stream (h.item? hitem)

/-- A keyspace without keys has no streams. -/
theorem empty_sound : empty.Sound := by
  intro key item stream hitem
  simp only [empty, item?, List.lookup_nil, reduceCtorEq] at hitem

-- What holds of every item that is held still does when a key is erased.
theorem erase_of_forall {p : Item → Prop} {keyspace : Keyspace}
    (h : ∀ key item, keyspace.item? key = some item → p item) (key : String) :
    ∀ other item, (keyspace.erase key).item? other = some item → p item := by
  intro other item hitem
  rw [item?_erase] at hitem
  by_cases hkey : other = key
  · simp only [if_pos hkey, reduceCtorEq] at hitem
  · rw [if_neg hkey] at hitem
    exact h other item hitem

-- It does when an item is inserted of which it holds as well.
theorem insert_of_forall {p : Item → Prop} {keyspace : Keyspace}
    (h : ∀ key item, keyspace.item? key = some item → p item) {item : Item} (hitem : p item)
    (key : String) :
    ∀ other found, (keyspace.insert key item).item? other = some found → p found := by
  intro other found hfound
  rw [item?_insert] at hfound
  by_cases hkey : other = key
  · rw [if_pos hkey, Option.some.injEq] at hfound
    rw [← hfound]
    exact hitem
  · rw [if_neg hkey] at hfound
    exact h other found hfound

/-- A value that is a stream is a sound one, without a deadline. -/
def SoundItem (item : Item) : Prop :=
  ∀ stream, item.value = .stream stream → stream.Sound ∧ item.deadline = .never

/-- To erase a key adds no stream. -/
theorem Sound.erase {keyspace : Keyspace} (h : keyspace.Sound) (key : String) :
    (keyspace.erase key).Sound := by
  intro other item stream hitem
  have hall : ∀ key item, keyspace.item? key = some item → SoundItem item :=
    fun key item hitem stream => h key item stream hitem
  exact erase_of_forall hall key other item hitem stream

/-- An item may be inserted if it is no stream, or a sound one. -/
theorem Sound.insert {keyspace : Keyspace} (h : keyspace.Sound) {key : String} {item : Item}
    (hitem : SoundItem item) : (keyspace.insert key item).Sound := by
  intro other found stream hfound
  have hall : ∀ key item, keyspace.item? key = some item → SoundItem item :=
    fun key item hitem stream => h key item stream hitem
  exact insert_of_forall hall hitem key other found hfound stream

-- A text that a client writes does not become a stream.
theorem ofText_ne_stream (text : String) (stream : Stream) :
    Value.ofText text ≠ .stream stream := by
  unfold Value.ofText
  split
  · split
    · simp
    · simp
  · simp

/-- Setting a key to a text makes no stream. -/
theorem Sound.set {keyspace : Keyspace} (h : keyspace.Sound) (key text : String)
    (deadline : Deadline) : (keyspace.set key (.ofText text) deadline).Sound :=
  h.insert fun stream hvalue => absurd hvalue (ofText_ne_stream text stream)

/-- Erasing a key leaves no new deadline. -/
theorem Settled.erase {since : UInt64} {keyspace : Keyspace} (h : keyspace.Settled since)
    (key : String) : (keyspace.erase key).Settled since :=
  erase_of_forall h key

/-- What is inserted without a deadline leaves a keyspace settled. -/
theorem Settled.insert {since : UInt64} {keyspace : Keyspace} (h : keyspace.Settled since)
    {key : String} {item : Item} (hnever : item.deadline = .never) :
    (keyspace.insert key item).Settled since :=
  insert_of_forall h (Or.inl hnever) key

/-- Inserting a value without a deadline lets the key hold it. -/
theorem contents_insert (keyspace : Keyspace) (key : String) (value : Value) :
    (keyspace.insert key ⟨value, .never⟩).contents = keyspace.contents.hold key value := by
  funext other
  unfold contents Contents.hold
  rw [item?_insert]
  by_cases hkey : other = key
  · simp [hkey, Option.filter_some]
  · simp [hkey]

-- Erasing a key that the contents do not have leaves them alone.
theorem contents_erase {keyspace : Keyspace} {key : String} (h : keyspace.contents key = none) :
    (keyspace.erase key).contents = keyspace.contents := by
  funext other
  by_cases hkey : other = key
  · rw [hkey, h, contents, item?_erase, if_pos rfl]
    rfl
  · rw [contents, contents, item?_erase, if_neg hkey]

/-- An operation on a keyspace has the effect of one on contents: it succeeds with the same
    contents, or it fails and leaves the contents alone. -/
inductive Effect {α : Type} (before : Contents) :
    Option Contents → Except Error α × Keyspace → Prop where
  | done (result : α) (after : Keyspace) :
      Effect before (some after.contents) (.ok result, after)
  | failed (e : Error) (after : Keyspace) (h : after.contents = before) :
      Effect before none (.error e, after)

/-- Mapping a result does not change the effect. -/
theorem Effect.map {α β : Type} {before : Contents} {after : Option Contents}
    {outcome : Except Error α × Keyspace} (h : Effect before after outcome) (f : α → β) :
    Effect before after (outcome.1.map f, outcome.2) := by
  cases h with
  | done result keyspace => exact .done (f result) keyspace
  | failed e keyspace hsame => exact .failed e keyspace hsame

/-- An operation that succeeds has the effect of one on contents. -/
theorem Effect.of_ok {α : Type} {before : Contents} {after : Option Contents}
    {outcome : Except Error α × Keyspace} (h : Effect before after outcome) {result : α}
    (hok : outcome.1 = .ok result) : after = some outcome.2.contents := by
  cases h with
  | done result keyspace => rfl
  | failed e keyspace hsame => simp only [reduceCtorEq] at hok

/-- An operation that fails leaves the contents as they were. -/
theorem Effect.of_error {α : Type} {before : Contents} {after : Option Contents}
    {outcome : Except Error α × Keyspace} (h : Effect before after outcome) {e : Error}
    (herror : outcome.1 = .error e) : outcome.2.contents = before := by
  cases h with
  | done result keyspace => simp only [reduceCtorEq] at herror
  | failed e keyspace hsame => exact hsame

/-- Where the operation on contents succeeds, its result is what the keyspace then has. -/
theorem Effect.contents_eq {α : Type} {before after : Contents}
    {outcome : Except Error α × Keyspace} (h : Effect before (some after) outcome) :
    outcome.2.contents = after := by
  cases h
  rfl

/-- An increment has the effect on contents that its name says. Expired keys do not matter, since
    they are not part of the contents. -/
theorem increment_effect {since now : UInt64} {keyspace : Keyspace}
    (hsettled : keyspace.Settled since) (hle : since ≤ now) (key : String) :
    Effect keyspace.contents (keyspace.contents.increment key) (keyspace.increment now key) := by
  have htouch := (keyspace.touch_prunes now key).contents_eq
  have hlive := live?_of_settled hsettled hle key
  unfold increment Contents.increment
  cases hheld : keyspace.contents key with
  | none =>
      rw [hlive, hheld]
      exact .failed _ _ htouch
  | some value =>
      rw [hlive, hheld]
      cases value with
      | text text => exact .failed _ _ htouch
      | stream stream => exact .failed _ _ htouch
      | integer number =>
          simp only [Option.map_some]
          -- The largest integer is refused on either side.
          by_cases hmax : number = Int64.maxValue
          · rw [if_pos hmax, if_pos hmax]
            exact .failed _ _ htouch
          · rw [if_neg hmax, if_neg hmax, ← htouch, ← contents_insert]
            exact .done _ _

-- Inserting a key twice is inserting it once.
theorem insert_insert (keyspace : Keyspace) (key : String) (item item' : Item) :
    (keyspace.insert key item).insert key item' = keyspace.insert key item' := by
  simp only [insert, erase, filter, mk.injEq, List.cons.injEq, true_and]
  rw [List.filter_cons_of_neg (by simp), List.filter_filter]
  simp only [Bool.and_self]

theorem erase_insert (keyspace : Keyspace) (key : String) (item : Item) :
    (keyspace.insert key item).erase key = keyspace.erase key := by
  simp only [insert, erase, filter, mk.injEq]
  rw [List.filter_cons_of_neg (by simp), List.filter_filter]
  simp only [Bool.and_self]

/-- Adding an entry, told without the stream that is put in place and taken back. -/
theorem addEntry_eq (keyspace : Keyspace) (now : UInt64) (key : String) (request : IdRequest)
    (fields : List (String × String)) :
    keyspace.addEntry now key request fields =
      match (keyspace.live? now key).getD ⟨.stream .empty, .never⟩ with
      | ⟨.stream stream, deadline⟩ =>
        match stream.nextId request now with
        | .error e =>
          (.error e,
            if stream.isEmpty then (keyspace.touch now key).erase key else keyspace.touch now key)
        | .ok id =>
          (.ok id, (keyspace.touch now key).insert key
            ⟨.stream ⟨stream.entries ++ [⟨id, fields⟩]⟩, deadline⟩)
      | _ => (.error .wrongType, keyspace.touch now key) := by
  unfold addEntry
  rcases hlive : keyspace.live? now key with _ | ⟨value, deadline⟩
  · -- A new stream is put in place first, and overwritten or erased at once.
    simp only [Option.getD_none]
    cases hid : Stream.empty.nextId request now with
    | error e => simp [Stream.isEmpty, Stream.empty, erase_insert]
    | ok id => simp only [Stream.append_of_nextId hid, insert_insert]
  · simp only [Option.getD_some]
    cases value with
    | text text => rfl
    | integer number => rfl
    | stream stream =>
        cases hid : stream.nextId request now with
        | error e => simp only [hid]
        | ok id => simp only [hid, Stream.append_of_nextId hid]

/-- A stream that a key holds is sound and has no deadline. -/
theorem Sound.live? {keyspace : Keyspace} (h : keyspace.Sound) {now : UInt64} {key : String}
    {stream : Stream} {deadline : Deadline}
    (hlive : keyspace.live? now key = some ⟨.stream stream, deadline⟩) :
    stream.Sound ∧ deadline = .never := by
  rw [Keyspace.live?, Option.filter_eq_some_iff] at hlive
  exact h key _ stream hlive.1 rfl

-- The stream that an entry is added to is sound, or new; it has no deadline.
theorem Sound.live?_getD {keyspace : Keyspace} (h : keyspace.Sound) {now : UInt64} {key : String}
    {stream : Stream} {deadline : Deadline}
    (hlive : (keyspace.live? now key).getD ⟨.stream .empty, .never⟩ = ⟨.stream stream, deadline⟩) :
    (stream.Sound ∨ stream = .empty) ∧ deadline = .never := by
  cases hheld : keyspace.live? now key with
  | none =>
      rw [hheld, Option.getD_none, Item.mk.injEq, Value.stream.injEq] at hlive
      exact ⟨Or.inr hlive.1.symm, hlive.2.symm⟩
  | some item =>
      rw [hheld, Option.getD_some] at hlive
      rcases h.live? (hlive ▸ hheld) with ⟨hsound, hnever⟩
      exact ⟨Or.inl hsound, hnever⟩

/-- Incrementing that is refused touches the key. -/
theorem increment_error {keyspace : Keyspace} {now : UInt64} {key : String} {e : Error}
    (h : (keyspace.increment now key).1 = .error e) :
    (keyspace.increment now key).2 = keyspace.touch now key := by
  simp only [increment] at h ⊢
  rcases hlive : keyspace.live? now key with _ | ⟨text | number | stream, deadline⟩
  · rfl
  · rfl
  · rw [hlive] at h
    simp only at h ⊢
    by_cases hmax : number = Int64.maxValue
    · rw [if_pos hmax]
    · simp only [if_neg hmax, reduceCtorEq] at h
  · rfl

/-- An entry that is refused leaves what is left when the key is touched. -/
theorem addEntry_error {keyspace : Keyspace} (hsound : keyspace.Sound) {now : UInt64}
    {key : String} {request : IdRequest} {fields : List (String × String)} {e : Error}
    (h : (keyspace.addEntry now key request fields).1 = .error e) (other : String) :
    (keyspace.addEntry now key request fields).2.item? other =
      (keyspace.touch now key).item? other := by
  rw [addEntry_eq] at h ⊢
  rcases hlive : keyspace.live? now key with _ | ⟨text | number | stream, deadline⟩
  · rw [hlive] at h
    simp only [Option.getD_none] at h ⊢
    cases hid : Stream.empty.nextId request now with
    | ok id => simp only [hid, reduceCtorEq] at h
    | error refusal =>
        -- The new stream is removed, where nothing was.
        simp only [Stream.isEmpty, Stream.empty, List.isEmpty_nil, if_true, item?_erase]
        split
        · rename_i hother
          rw [hother, item?_touch, if_pos rfl, hlive]
        · rfl
  · rfl
  · rfl
  · rw [hlive] at h
    simp only [Option.getD_some] at h ⊢
    cases hid : stream.nextId request now with
    | ok id => simp only [hid, reduceCtorEq] at h
    | error refusal =>
        -- A stream that is held has entries, so a refusal does not remove it.
        have hfilled : stream.isEmpty = false := by
          have := (hsound.live? hlive).1.filled
          simpa [Stream.isEmpty] using this
        simp only [hfilled, Bool.false_eq_true, if_false]

/-- For an id that does not depend on the time, adding an entry is a write on contents. -/
theorem addEntry_effect {since now : UInt64} {keyspace : Keyspace}
    (hsettled : keyspace.Settled since) (hsound : keyspace.Sound) (hle : since ≤ now)
    (key : String) {request : IdRequest} (hrequest : request ≠ .auto)
    (fields : List (String × String)) :
    Effect keyspace.contents (keyspace.contents.addEntry key request fields)
      (keyspace.addEntry now key request fields) := by
  have htouch := (keyspace.touch_prunes now key).contents_eq
  have hlive := live?_of_settled hsettled hle key
  rw [addEntry_eq]
  unfold Contents.addEntry
  cases hheld : keyspace.contents key with
  | none =>
      rw [hlive, hheld]
      simp only [Option.map_none, Option.getD_none, Stream.nextId_of_ne_auto hrequest _ now 0]
      cases Stream.empty.nextId request 0 with
      | error e =>
          -- The stream was put in place for this entry only.
          refine .failed _ _ ?_
          have hnone : (keyspace.touch now key).contents key = none := by rw [htouch, hheld]
          rw [if_pos (by rfl), contents_erase hnone, htouch]
      | ok id =>
          simp only
          rw [← htouch, ← contents_insert]
          exact .done _ _
  | some value =>
      rw [hlive, hheld]
      cases value with
      | text text => exact .failed _ _ htouch
      | integer number => exact .failed _ _ htouch
      | stream stream =>
          -- A stream that is held has entries, so a refusal does not remove it.
          have hfilled : stream.isEmpty = false := by
            rw [hheld] at hlive
            have := (hsound.live? hlive).1.filled
            simpa [Stream.isEmpty] using this
          simp only [Option.map_some, Option.getD_some,
            Stream.nextId_of_ne_auto hrequest _ now 0]
          cases stream.nextId request 0 with
          | error e =>
              refine .failed _ _ ?_
              rw [hfilled, if_neg (by simp), htouch]
          | ok id =>
              simp only
              rw [← htouch, ← contents_insert]
              exact .done _ _

/-- Setting a key without a deadline lets it hold the value. -/
theorem set_effect (keyspace : Keyspace) (key text : String) :
    (keyspace.set key (.ofText text) .never).contents =
      keyspace.contents.hold key (.ofText text) :=
  contents_insert keyspace key (.ofText text)

/-- An increment gives no key a deadline. -/
theorem Settled.increment {since now : UInt64} {keyspace : Keyspace}
    (h : keyspace.Settled since) (hle : since ≤ now) (key : String) :
    (keyspace.increment now key).2.Settled since := by
  have htouch := (keyspace.touch_prunes now key).settled h
  have hlive := live?_of_settled h hle key
  unfold Keyspace.increment
  rw [hlive]
  cases keyspace.contents key with
  | none => exact htouch
  | some value =>
      cases value with
      | text text => exact htouch
      | stream stream => exact htouch
      | integer number =>
          simp only [Option.map_some]
          split
          · exact htouch
          · exact htouch.insert rfl

/-- A new entry gives no key a deadline. -/
theorem Settled.addEntry {since now : UInt64} {keyspace : Keyspace}
    (h : keyspace.Settled since) (hle : since ≤ now) (key : String) (request : IdRequest)
    (fields : List (String × String)) :
    (keyspace.addEntry now key request fields).2.Settled since := by
  have htouch := (keyspace.touch_prunes now key).settled h
  rw [addEntry_eq, live?_of_settled h hle key]
  cases keyspace.contents key with
  | none =>
      simp only [Option.map_none, Option.getD_none]
      split
      · exact htouch.erase key
      · exact htouch.insert rfl
  | some value =>
      cases value with
      | text text => exact htouch
      | integer number => exact htouch
      | stream stream =>
          simp only [Option.map_some, Option.getD_some]
          split
          · simp only
            split
            · exact htouch.erase key
            · exact htouch
          · exact htouch.insert rfl

/-- An increment does not touch streams. -/
theorem Sound.increment {keyspace : Keyspace} (h : keyspace.Sound) (now : UInt64)
    (key : String) : (keyspace.increment now key).2.Sound := by
  have htouch := (keyspace.touch_prunes now key).sound h
  unfold Keyspace.increment
  split
  · exact htouch
  · split
    · split
      · exact htouch
      · exact htouch.insert fun stream hvalue => by simp at hvalue
    · exact htouch
    · exact htouch

/-- An entry goes behind those that are there, with a higher id, so the stream is still sound. -/
theorem Sound.addEntry {keyspace : Keyspace} (h : keyspace.Sound) (now : UInt64) (key : String)
    (request : IdRequest) (fields : List (String × String)) :
    (keyspace.addEntry now key request fields).2.Sound := by
  have htouch := (keyspace.touch_prunes now key).sound h
  rw [addEntry_eq]
  rcases hlive : (keyspace.live? now key).getD ⟨.stream .empty, .never⟩ with ⟨value, deadline⟩
  cases value with
  | text text => exact htouch
  | integer number => exact htouch
  | stream stream =>
      simp only
      cases hid : stream.nextId request now with
      | error e =>
          simp only
          split
          · exact htouch.erase key
          · exact htouch
      | ok id =>
          refine htouch.insert fun grown hgrown => ?_
          rw [← Value.stream.inj hgrown]
          rcases h.live?_getD hlive with ⟨hstream, hnever⟩
          exact ⟨Stream.Sound.of_nextId hstream hid fields, hnever⟩

/-- What a request can do to a keyspace at the time `now`. -/
inductive Changes (now : UInt64) (before : Keyspace) : Keyspace → Prop
  | prunes {after : Keyspace} (h : before.Prunes after) : Changes now before after
  | set (key text : String) (deadline : Deadline) :
    Changes now before (before.set key (.ofText text) deadline)
  | increment (key : String) : Changes now before (before.increment now key).2
  | addEntry (key : String) (request : IdRequest) (fields : List (String × String)) :
    Changes now before (before.addEntry now key request fields).2

/-- A property of keyspaces that holds without keys, and that changes preserve. -/
structure Invariant (p : Keyspace → Prop) : Prop where
  empty : p .empty
  prunes {before after : Keyspace} (h : p before) (hprunes : before.Prunes after) : p after
  set {before : Keyspace} (h : p before) (key text : String) (deadline : Deadline) :
    p (before.set key (.ofText text) deadline)
  increment {before : Keyspace} (h : p before) (now : UInt64) (key : String) :
    p (before.increment now key).2
  addEntry {before : Keyspace} (h : p before) (now : UInt64) (key : String) (request : IdRequest)
    (fields : List (String × String)) : p (before.addEntry now key request fields).2

/-- Whatever a request does to a keyspace keeps an invariant. -/
theorem Invariant.changes {p : Keyspace → Prop} (hp : Invariant p) {now : UInt64}
    {before after : Keyspace} (h : p before) (hchanges : before.Changes now after) : p after := by
  cases hchanges with
  | prunes hprunes => exact hp.prunes h hprunes
  | set key text deadline => exact hp.set h key text deadline
  | increment key => exact hp.increment h now key
  | addEntry key request fields => exact hp.addEntry h now key request fields

/-- That all streams are sound is preserved. -/
theorem sound_invariant : Invariant Sound :=
  ⟨empty_sound, fun h hprunes => hprunes.sound h, .set, .increment, .addEntry⟩

end Keyspace

end KeyValue
