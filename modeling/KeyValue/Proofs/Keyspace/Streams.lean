import KeyValue.Execution.Streams
import KeyValue.Proofs.Keyspace.Writes

/-!
# Streams in a keyspace

A stream does not expire, so the entries of a key can be told without a clock.

Reading leaves the entries of every key alone (`Prunes.entriesOf_eq`). A write may take the entries
of a key away, but only adding an entry gives a key new ones (`Fades`). A read finds entries above
its cursor exactly if there are some, unless it asks for none of them (`Cursor.read_spec`).

## Main definitions

* `Keyspace.entriesOf`: The entries of a key.
* `Keyspace.Fades`: No key has new entries.
* `Cursor.HasNews`: There are entries above a cursor.

## Theorems

* `Prunes.entriesOf_eq`: Reading leaves the entries alone.
* `set_fades`, `increment_fades`, `addEntry_fades`: Writes give no new entries to other keys.
* `Cursor.read_spec`: What a read finds.
-/

namespace KeyValue

/-- The entries of a value; there are none in anything but a stream. -/
def Value.entries : Value → List StreamEntry
  | .stream held => held.entries
  | _ => []

namespace Keyspace

/-- The entries of a key. -/
def entriesOf (keyspace : Keyspace) (key : String) : List StreamEntry :=
  (keyspace.item? key).elim [] (·.value.entries)

/-- No key has new entries: it has the same ones, or none. -/
def Fades (before after : Keyspace) : Prop :=
  ∀ key, after.entriesOf key = before.entriesOf key ∨ after.entriesOf key = []

theorem Fades.refl (keyspace : Keyspace) : keyspace.Fades keyspace := fun _ => Or.inl rfl

theorem Fades.trans {before middle after : Keyspace} (h : before.Fades middle)
    (h' : middle.Fades after) : before.Fades after := by
  intro key
  rcases h' key with hsame | hgone
  · rw [hsame]
    exact h key
  · exact Or.inr hgone

/-- A key without a deadline is not pruned, so a stream is not. -/
theorem Prunes.entriesOf_eq {before after : Keyspace} (h : before.Prunes after)
    (hsound : before.Sound) (key : String) : after.entriesOf key = before.entriesOf key := by
  unfold entriesOf
  rcases h key with hsame | ⟨hgone, hnone⟩
  · rw [hsame]
  · rw [hgone]
    rcases hitem : before.item? key with _ | ⟨value, deadline⟩
    · rfl
    · cases value with
      | text text => rfl
      | integer number => rfl
      | stream stream =>
          -- A stream without a deadline is in the contents, and these are not pruned.
          have hnever : deadline = .never := (hsound key _ stream hitem rfl).2
          rw [hnever] at hitem
          rw [contents_eq_some.mpr hitem] at hnone
          simp only [reduceCtorEq] at hnone

/-- A stream has no deadline, so pruning leaves its entries. -/
theorem Prunes.fades {before after : Keyspace} (h : before.Prunes after)
    (hsound : before.Sound) : before.Fades after :=
  fun key => Or.inl (h.entriesOf_eq hsound key)

/-- A key has the entries of what was inserted last. -/
theorem entriesOf_insert (keyspace : Keyspace) (key other : String) (item : Item) :
    (keyspace.insert key item).entriesOf other =
      if other = key then item.value.entries else keyspace.entriesOf other := by
  unfold entriesOf
  rw [item?_insert]
  by_cases hkey : other = key
  · rw [if_pos hkey, if_pos hkey]
    rfl
  · rw [if_neg hkey, if_neg hkey]

-- Inserting something else than a stream gives no new entries.
theorem insert_fades (keyspace : Keyspace) (key : String) {item : Item}
    (h : ∀ stream, item.value ≠ .stream stream) : keyspace.Fades (keyspace.insert key item) := by
  intro other
  rw [entriesOf_insert]
  by_cases hkey : other = key
  · rw [if_pos hkey]
    rcases item with ⟨value, deadline⟩
    cases value with
    | stream stream => exact absurd rfl (h stream)
    | _ => exact Or.inr rfl
  · rw [if_neg hkey]
    exact Or.inl rfl

/-- A key that is set has no entries any more. -/
theorem set_fades (keyspace : Keyspace) (key text : String) (deadline : Deadline) :
    keyspace.Fades (keyspace.set key (.ofText text) deadline) :=
  keyspace.insert_fades key (ofText_ne_stream text)

/-- An increment adds no entries to any stream. -/
theorem increment_fades {keyspace : Keyspace} (hsound : keyspace.Sound) (now : UInt64)
    (key : String) : keyspace.Fades (keyspace.increment now key).2 := by
  have htouch := (keyspace.touch_prunes now key).fades hsound
  unfold increment
  split
  · exact htouch
  · split
    · split
      · exact htouch
      · exact htouch.trans (insert_fades _ key (by simp))
    · exact htouch
    · exact htouch

/-- Adding an entry that is refused gives no new entries, and adding one that is not gives none to
    other keys. -/
theorem addEntry_fades {keyspace : Keyspace} (hsound : keyspace.Sound) (now : UInt64)
    (key : String) (request : IdRequest) (fields : List (String × String)) :
    (∀ other, other ≠ key →
        (keyspace.addEntry now key request fields).2.entriesOf other =
          keyspace.entriesOf other) ∧
      ∀ e, (keyspace.addEntry now key request fields).1 = .error e →
        keyspace.Fades (keyspace.addEntry now key request fields).2 := by
  have htouch := (keyspace.touch_prunes now key).entriesOf_eq hsound
  refine ⟨fun other hother => ?_, fun e herror other => ?_⟩
  · rw [← htouch other, addEntry_eq]
    rcases (keyspace.live? now key).getD ⟨.stream .empty, .never⟩ with ⟨value, deadline⟩
    cases value with
    | text text => rfl
    | integer number => rfl
    | stream stream =>
        simp only
        cases stream.nextId request now with
        | error e =>
            simp only
            -- The stream that was put in place for the entry may be erased again.
            split
            · unfold entriesOf
              rw [item?_erase, if_neg hother]
            · rfl
        | ok id => rw [entriesOf_insert, if_neg hother]
  · left
    rw [← htouch other, entriesOf, addEntry_error hsound herror other, entriesOf]

-- The same of the command, which may fail before that.
theorem addEntryCommand_fades {keyspace : Keyspace} (hsound : keyspace.Sound)
    (now : UInt64) (key id : String) (fields : List String) :
    (∀ other, other ≠ key →
        (StreamCommand.addEntry keyspace now key id fields).2.entriesOf other =
          keyspace.entriesOf other) ∧
      ∀ e, (StreamCommand.addEntry keyspace now key id fields).1 = .error e →
        keyspace.Fades (StreamCommand.addEntry keyspace now key id fields).2 := by
  unfold StreamCommand.addEntry
  cases IdRequest.ofText id with
  | error e => exact ⟨fun _ _ => rfl, fun _ _ => .refl keyspace⟩
  | ok request =>
      cases StreamCommand.pairs? fields with
      | none => exact ⟨fun _ _ => rfl, fun _ _ => .refl keyspace⟩
      | some fields => exact addEntry_fades hsound now key request fields

/-- What a read of a stream finds. -/
theorem after_eq {keyspace : Keyspace} (hsound : keyspace.Sound) {now : UInt64} {key : String}
    {above : StreamId} {count : Option Nat} {entries : List StreamEntry}
    (h : (keyspace.after now key above count).1 = .ok entries) :
    entries = Stream.takeCount count ((keyspace.entriesOf key).filter (above < ·.id)) := by
  have htouch := (keyspace.touch_prunes now key).entriesOf_eq hsound key
  unfold entriesOf at htouch
  rw [item?_touch, if_pos rfl] at htouch
  unfold entriesOf
  rw [← htouch]
  simp only [after, readStream] at h
  rcases hlive : keyspace.live? now key with _ | ⟨value, deadline⟩
  · rw [hlive] at h
    rw [← Except.ok.inj h]
    cases count <;> simp [Stream.after, Stream.empty, Stream.takeCount]
  · rw [hlive] at h
    cases value with
    | text text => simp only [Option.map_some, reduceCtorEq] at h
    | integer number => simp only [Option.map_some, reduceCtorEq] at h
    | stream stream =>
        -- The ids increase, so what lies behind the cursor is what lies above it.
        have hincreasing := (hsound.live? hlive).1.increasing
        rw [← Except.ok.inj h, Stream.after, hincreasing.drop_position]
        rfl

end Keyspace

namespace Cursor

/-- A cursor is on the key that it was asked for. -/
theorem resolve_key {keyspace after : Keyspace} {now : UInt64} {key id : String} {cursor : Cursor}
    (h : resolve keyspace now key id = (.ok cursor, after)) : cursor.key = key := by
  unfold resolve at h
  split at h
  · rcases hlast : keyspace.lastId now key with ⟨e | last, touched⟩
    · simp [hlast, Except.map] at h
    · simp only [hlast, Except.map, Prod.mk.injEq, Except.ok.injEq] at h
      rw [← h.1]
  · cases hstart : StreamId.rangeStart id with
    | error e => simp [hstart, Except.map] at h
    | ok start =>
        simp only [hstart, Except.map, Prod.mk.injEq, Except.ok.injEq] at h
        rw [← h.1]

/-- There are entries above the cursor. -/
def HasNews (cursor : Cursor) (keyspace : Keyspace) : Prop :=
  ∃ entry ∈ keyspace.entriesOf cursor.key, cursor.above < entry.id

/-- News of a stream are seen in its entries. -/
theorem HasNews.of_eq {cursor : Cursor} {before after : Keyspace}
    (hsame : after.entriesOf cursor.key = before.entriesOf cursor.key)
    (h : cursor.HasNews after) : cursor.HasNews before := by
  unfold HasNews at h
  rw [hsame] at h
  exact h

/-- A stream that only loses entries has no news that it did not have before. -/
theorem HasNews.of_fades {cursor : Cursor} {before after : Keyspace} (hfades : before.Fades after)
    (h : cursor.HasNews after) : cursor.HasNews before := by
  rcases hfades cursor.key with hsame | hgone
  · exact h.of_eq hsame
  · rcases h with ⟨entry, hentry, _⟩
    rw [hgone] at hentry
    simp at hentry

/-- A read prunes the keyspace. All that it finds lies above the cursor, and if there is something
    and it wants something, it finds something. -/
theorem read_spec {keyspace after : Keyspace} (hsound : keyspace.Sound) {now : UInt64}
    {count : Option Nat} {cursor : Cursor} {entries : List StreamEntry}
    (h : cursor.read keyspace now count = (.ok entries, after)) :
    keyspace.Prunes after ∧ (∀ entry ∈ entries, cursor.above < entry.id) ∧
      (count ≠ some 0 → cursor.HasNews keyspace → entries ≠ []) := by
  have hprunes : keyspace.Prunes (cursor.read keyspace now count).2 :=
    keyspace.touch_prunes now cursor.key
  have hentries := Keyspace.after_eq hsound (congrArg Prod.fst h)
  rw [h] at hprunes
  refine ⟨hprunes, fun entry hentry => ?_, fun hcount hnews => ?_⟩
  · have hmem : entry ∈ (keyspace.entriesOf cursor.key).filter (cursor.above < ·.id) := by
      rw [hentries] at hentry
      cases count with
      | none => exact hentry
      | some limit => exact List.mem_of_mem_take hentry
    simpa using (List.mem_filter.mp hmem).2
  · rcases hnews with ⟨entry, hentry, habove⟩
    have hmem : entry ∈ (keyspace.entriesOf cursor.key).filter (cursor.above < ·.id) :=
      List.mem_filter.mpr ⟨hentry, by simpa using habove⟩
    have hne := List.ne_nil_of_mem hmem
    rw [hentries]
    cases count with
    | none => exact hne
    | some limit =>
        intro hnil
        -- Nothing was taken because none was wanted, or because there was nothing.
        rcases List.take_eq_nil_iff.mp hnil with hzero | hempty
        · exact hcount (congrArg some hzero)
        · exact hne hempty

end Cursor

end KeyValue
