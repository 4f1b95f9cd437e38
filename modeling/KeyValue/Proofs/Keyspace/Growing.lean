import KeyValue.Proofs.Keyspace.Streams

/-!
# What writes do to the entries of a key

Adding an entry that is accepted puts it behind the entries of its key (`addEntry_accepted`). One
that is refused leaves all entries as they are, although it may have created a stream and removed it
again (`addEntry_refused`). Incrementing leaves them as they are too, and setting a key replaces
what the key holds by something without entries.

So the streams of a keyspace stay in order (`InOrder`): they have entries, whose ids increase and
lie above the least one.

## Main definitions

* `Keyspace.InOrder`: The streams have entries with increasing ids above the least one.

## Theorems

* `addEntry_accepted`, `addEntry_refused`, `increment_entriesOf`, `set_entriesOf`: What a write does
  to the entries of each key.
* `InOrder.addEntry`, `InOrder.increment`, `InOrder.set`: Writes keep streams in order.
-/

namespace KeyValue

namespace Keyspace

variable {keyspace : Keyspace}

-- What a key holds that can be opened as a stream is all that it has entries of.
theorem entriesOf_live?_getD (hsound : keyspace.Sound) {now : UInt64} {key : String}
    {value : Value} {deadline : Deadline}
    (hlive : (keyspace.live? now key).getD ⟨.stream .empty, .never⟩ = ⟨value, deadline⟩) :
    keyspace.entriesOf key = value.entries := by
  have htouch := (keyspace.touch_prunes now key).entriesOf_eq hsound key
  unfold entriesOf at htouch
  rw [item?_touch, if_pos rfl] at htouch
  rw [entriesOf, ← htouch]
  cases hheld : keyspace.live? now key with
  | none =>
      rw [hheld, Option.getD_none, Item.mk.injEq] at hlive
      rw [← hlive.1]
      rfl
  | some item =>
      rw [hheld, Option.getD_some] at hlive
      rw [hlive]
      rfl

/-- An entry that is accepted comes behind those of its key, with the id that it was given. -/
theorem addEntry_accepted (hsound : keyspace.Sound) {now : UInt64} {key : String}
    {request : IdRequest} {fields : List (String × String)} {id : StreamId}
    (h : (keyspace.addEntry now key request fields).1 = .ok id) :
    (keyspace.addEntry now key request fields).2.entriesOf key =
      keyspace.entriesOf key ++ [⟨id, fields⟩] ∧ StreamId.zero < id := by
  rw [addEntry_eq] at h ⊢
  rcases hlive : (keyspace.live? now key).getD ⟨.stream .empty, .never⟩ with ⟨value, deadline⟩
  rw [hlive] at h
  cases value with
  | text text => simp only [reduceCtorEq] at h
  | integer number => simp only [reduceCtorEq] at h
  | stream stream =>
      simp only at h ⊢
      cases hid : stream.nextId request now with
      | error e => simp only [hid, reduceCtorEq] at h
      | ok given =>
          simp only [hid, Except.ok.injEq] at h
          subst h
          rw [entriesOf_insert, if_pos rfl, entriesOf_live?_getD hsound hlive]
          exact ⟨rfl, Stream.nextId_pos hid⟩

/-- An entry that is refused leaves the entries of every key as they are. -/
theorem addEntry_refused (hsound : keyspace.Sound) {now : UInt64} {key : String}
    {request : IdRequest} {fields : List (String × String)} {e : Error}
    (h : (keyspace.addEntry now key request fields).1 = .error e) (other : String) :
    (keyspace.addEntry now key request fields).2.entriesOf other = keyspace.entriesOf other := by
  rw [← (keyspace.touch_prunes now key).entriesOf_eq hsound other, entriesOf,
    addEntry_error hsound h other, entriesOf]

/-- Incrementing leaves the entries of every key as they are: an integer has none. -/
theorem increment_entriesOf (hsound : keyspace.Sound) (now : UInt64) (key other : String) :
    (keyspace.increment now key).2.entriesOf other = keyspace.entriesOf other := by
  have htouch := (keyspace.touch_prunes now key).entriesOf_eq hsound
  unfold increment
  cases hlive : keyspace.live? now key with
  | none => exact htouch other
  | some item =>
      rcases item with ⟨value, deadline⟩
      cases value with
      | text text => exact htouch other
      | stream stream => exact htouch other
      | integer number =>
          simp only
          by_cases hmax : number = Int64.maxValue
          · rw [if_pos hmax]
            exact htouch other
          · rw [if_neg hmax, entriesOf_insert]
            by_cases hother : other = key
            · have hnone : keyspace.entriesOf key = (Value.integer number).entries :=
                entriesOf_live?_getD hsound (by rw [hlive, Option.getD_some])
              rw [if_pos hother, hother, hnone]
              rfl
            · rw [if_neg hother]
              exact htouch other

/-- Setting a key leaves the entries of other keys as they are. -/
theorem set_entriesOf (keyspace : Keyspace) (key text : String) (deadline : Deadline)
    {other : String} (hother : other ≠ key) :
    (keyspace.set key (.ofText text) deadline).entriesOf other = keyspace.entriesOf other := by
  rw [set, entriesOf_insert, if_neg hother]

/-- The streams have entries, whose ids increase and lie above the least one. -/
structure InOrder (keyspace : Keyspace) : Prop where
  sound : keyspace.Sound
  positive : ∀ key, ∀ entry ∈ keyspace.entriesOf key, StreamId.zero < entry.id

theorem empty_inOrder : empty.InOrder :=
  ⟨empty_sound, fun key entry hentry => by simp [entriesOf, empty, item?] at hentry⟩

namespace InOrder

/-- What is in order are the streams that are held. -/
theorem stream (h : keyspace.InOrder) {key : String} {item : Item} {stream : Stream}
    (hitem : keyspace.item? key = some item) (hvalue : item.value = .stream stream) :
    stream.entries ≠ [] ∧ Stream.Increasing stream.entries ∧
      ∀ entry ∈ stream.entries, StreamId.zero < entry.id := by
  have hsound := (h.sound key item stream hitem hvalue).1
  have hentries : keyspace.entriesOf key = stream.entries := by
    rw [entriesOf, hitem, Option.elim_some, hvalue]
    rfl
  exact ⟨hsound.filled, hsound.increasing, hentries ▸ h.positive key⟩

theorem increasing (h : keyspace.InOrder) (key : String) :
    Stream.Increasing (keyspace.entriesOf key) := by
  unfold entriesOf
  rcases hitem : keyspace.item? key with _ | ⟨value, deadline⟩
  · exact .nil
  · cases value with
    | stream stream => exact (h.stream hitem rfl).2.1
    | _ => exact .nil

/-- Whatever keeps streams sound and gives no new entries keeps them in order. -/
theorem of_fades {after : Keyspace} (h : keyspace.InOrder) (hsound : after.Sound)
    (hfades : keyspace.Fades after) : after.InOrder := by
  refine ⟨hsound, fun key entry hentry => ?_⟩
  rcases hfades key with hsame | hgone
  · exact h.positive key entry (hsame ▸ hentry)
  · rw [hgone] at hentry
    simp at hentry

theorem prunes {after : Keyspace} (h : keyspace.InOrder) (hprunes : keyspace.Prunes after) :
    after.InOrder :=
  h.of_fades (hprunes.sound h.sound) (hprunes.fades h.sound)

theorem set (h : keyspace.InOrder) (key text : String) (deadline : Deadline) :
    (keyspace.set key (.ofText text) deadline).InOrder :=
  h.of_fades (h.sound.set key text deadline) (keyspace.set_fades key text deadline)

theorem increment (h : keyspace.InOrder) (now : UInt64) (key : String) :
    (keyspace.increment now key).2.InOrder :=
  h.of_fades (h.sound.increment now key) (increment_fades h.sound now key)

theorem addEntry (h : keyspace.InOrder) (now : UInt64) (key : String) (request : IdRequest)
    (fields : List (String × String)) : (keyspace.addEntry now key request fields).2.InOrder := by
  refine ⟨h.sound.addEntry now key request fields, fun other entry hentry => ?_⟩
  cases hadded : (keyspace.addEntry now key request fields).1 with
  | error e => exact h.positive other entry (addEntry_refused h.sound hadded other ▸ hentry)
  | ok id =>
      by_cases hother : other = key
      · rcases addEntry_accepted h.sound hadded with ⟨hentries, hpos⟩
        rw [hother, hentries, List.mem_append, List.mem_singleton] at hentry
        rcases hentry with hold | rfl
        · exact h.positive key entry hold
        · exact hpos
      · rw [(addEntry_fades h.sound now key request fields).1 other hother] at hentry
        exact h.positive other entry hentry

end InOrder

end Keyspace

end KeyValue
