import KeyValue.Proofs.Engine.Lookups

/-!
# Loading a snapshot, and reading through it

A snapshot can be copied into the keyspace, or it can lie in a file that is looked into. Copying
sets one key after the other, so of the entries of a key the last one stays (`load_item?`), among
those that are not expired when they are copied. Looking finds the first one that is not expired
when it looks. So the answers are the same if a key has one entry, and need not be if it has more.

## Main definitions

* `Snapshot.lastOf`: The entry of a key that stays when a snapshot is copied.

## Theorems

* `load_item?`: What a keyspace holds into which a snapshot is copied.
* `loads_as_found_iff`: When both ways answer the same.
* `load_keeps_last`: A key with two entries is answered in two ways.
-/

namespace KeyValue

namespace Snapshot

/-- The last entry of a key that is not expired at the time `now`. -/
def lastOf (entries : List Entry) (now : UInt64) (key : String) : Option Entry :=
  (entries.filter fun entry => entry.key == key && !entry.isExpired now).getLast?

/-- What a key holds when the entry is copied into the keyspace. -/
def Entry.item (entry : Entry) : Item := ⟨.ofText entry.value, entry.deadline⟩

variable {entries : List Entry} {since now : UInt64} {key : String} {entry : Entry}

theorem of_lastOf (h : lastOf entries now key = some entry) :
    entry ∈ entries ∧ entry.key = key ∧ entry.isExpired now = false := by
  have hmem := List.mem_filter.mp (List.mem_of_getLast? h)
  simpa using hmem

theorem of_firstOf (h : firstOf entries now key = some entry) :
    entry ∈ entries ∧ entry.key = key ∧ entry.isExpired now = false := by
  have hfound := List.find?_some h
  exact ⟨List.mem_of_find?_eq_some h, by simpa using hfound⟩

-- There is a last entry if there is any.
theorem lastOf_isSome (hmem : entry ∈ entries) (hkey : entry.key = key)
    (hlive : entry.isExpired now = false) : (lastOf entries now key).isSome = true :=
  List.getLast?_isSome.mpr
    (List.ne_nil_of_mem (List.mem_filter.mpr ⟨hmem, by simp [hkey, hlive]⟩))

theorem firstOf_isSome (hmem : entry ∈ entries) (hkey : entry.key = key)
    (hlive : entry.isExpired now = false) : (firstOf entries now key).isSome = true :=
  List.find?_isSome.mpr ⟨entry, hmem, by simp [hkey, hlive]⟩

theorem Entry.isExpired_of_le (hle : since ≤ now) (h : entry.isExpired now = false) :
    entry.isExpired since = false := by
  rw [← Bool.not_eq_true] at h ⊢
  exact fun hexpired => h (@Item.isExpired_of_le entry.item _ _ hle hexpired)

/-- If no two entries of a key differ, the last one at some time is the first one later on, unless
    it has expired by then. -/
theorem filter_lastOf_eq (hle : since ≤ now) (hsame : ∀ entry ∈ entries, ∀ entry' ∈ entries,
    entry.key = key → entry'.key = key → entry.isExpired since = false →
      entry'.isExpired since = false → entry = entry') :
    ((lastOf entries since key).filter fun entry => !entry.isExpired now) =
      firstOf entries now key := by
  cases hfirst : firstOf entries now key with
  | some entry =>
      obtain ⟨hmem, hkey, hlive⟩ := of_firstOf hfirst
      have hsince := Entry.isExpired_of_le hle hlive
      obtain ⟨other, hlast⟩ := Option.isSome_iff_exists.mp (lastOf_isSome hmem hkey hsince)
      obtain ⟨hmem', hkey', hsince'⟩ := of_lastOf hlast
      obtain rfl := hsame entry hmem other hmem' hkey hkey' hsince hsince'
      rw [hlast, Option.filter_some, hlive]
      rfl
  | none =>
      -- A last entry that is still live would be found.
      rw [Option.filter_eq_none_iff]
      intro entry hlast hlive
      obtain ⟨hmem, hkey, -⟩ := of_lastOf hlast
      have hfound := firstOf_isSome hmem hkey ((Bool.not_eq_true' _).mp hlive)
      rw [hfirst] at hfound
      exact nomatch hfound

end Snapshot

namespace Engine

/-- Of the entries of a key that are copied, the last one stays. -/
theorem foldl_item? (entries : List Snapshot.Entry) (keyspace : Keyspace) (key : String) :
    (entries.foldl (fun keyspace entry =>
        keyspace.set entry.key (.ofText entry.value) entry.deadline) keyspace).item? key =
      ((entries.filter (·.key == key)).getLast?.map (·.item)).or (keyspace.item? key) := by
  induction entries generalizing keyspace with
  | nil => rfl
  | cons entry rest ih =>
      rw [List.foldl_cons, ih, Keyspace.set, Keyspace.item?_insert]
      by_cases hkey : entry.key = key
      · rw [List.filter_cons_of_pos (by simp [hkey]), List.getLast?_cons, if_pos hkey.symm]
        cases (rest.filter (·.key == key)).getLast? <;> rfl
      · rw [List.filter_cons_of_neg (by simp [hkey]), if_neg (Ne.symm hkey)]

variable {engine : Engine} {entries : List Snapshot.Entry} {since : UInt64}

/-- What a key holds after a snapshot is copied. -/
theorem load_item? (key : String) :
    (engine.load since entries).2.keyspace.item? key =
      ((Snapshot.lastOf entries since key).map (·.item)).or (engine.keyspace.item? key) := by
  simp only [load, foldl_item?, List.filter_filter, Snapshot.lastOf]

/-- Where only a snapshot was copied, the last entry is found, until it expires. -/
theorem load_found? (hempty : engine.keyspace = .empty) (now : UInt64) (key : String) :
    (engine.load since entries).2.found? [] now key =
      ((Snapshot.lastOf entries since key).filter fun entry => !entry.isExpired now).map
        (.ofText ·.value) := by
  have hnone : Keyspace.empty.item? key = none := rfl
  rw [found?, Keyspace.live?, load_item?, hempty, hnone, Option.or_none]
  cases hlast : Snapshot.lastOf entries since key with
  | none => rfl
  | some entry =>
      have hexpired : entry.item.isExpired now = entry.isExpired now := rfl
      rw [Option.map_some, Option.filter_some, Option.filter_some, hexpired]
      split <;> rfl

section Answers

variable {session : Session} {now : UInt64} {key : String} {told : Option Snapshot.Entry}
  (hentries : engine.file.entries = .ok entries) (hclosed : session.transaction = .closed)
  (hfound : engine.found? entries now key = told.map (.ofText ·.value)) (raw : Bytes)
include hentries hclosed hfound

theorem lookUp_get_of_entry :
    engine.lookUp session now raw .get key =
      .answered (.reply (told.elim .null fun entry => .bulkText entry.value)) := by
  rw [lookUp_get now hentries hclosed, hfound]
  cases told with
  | none => rfl
  | some entry =>
      simp only [Option.map_some, Option.elim_some, KeyCommand.valueReply_ofText]
      rfl

theorem lookUp_type_of_entry :
    engine.lookUp session now raw .type key =
      .answered (.reply (.simple (told.elim "none" fun _ => "string"))) := by
  rw [lookUp_type now hentries hclosed, hfound]
  cases told with
  | none => rfl
  | some entry => simp only [Option.map_some, Option.elim_some, Value.ofText_typeName]

end Answers

/-- An engine into which a snapshot was copied answers what the last entry of a key says, of those
    that were not expired at that time; it answers nothing once this one has expired. An engine that
    has the snapshot as its file answers what the first entry says that is not expired now. These
    are the same answers exactly if both have an entry to answer from and the texts are the same, or
    neither has one; in particular if no two entries of the key differ. -/
theorem loads_as_found_iff {engine other : Engine} {session session' : Session} {content : Bytes}
    {entries : List Snapshot.Entry} (hentries : Snapshot.entries content = .ok entries)
    {since now : UInt64} (hle : since ≤ now) (hempty : engine.keyspace = .empty)
    (hmissing : engine.file = .missing) (hempty' : other.keyspace = .empty)
    (hfile : other.file = .regular content) (hclosed : session.transaction = .closed)
    (hclosed' : session'.transaction = .closed) (raw : Bytes) (key : String) :
    let loaded := fun name =>
      (engine.load since entries).2.lookUp session now raw name key
    let found := fun name => other.lookUp session' now raw name key
    let last := (Snapshot.lastOf entries since key).filter fun entry => !entry.isExpired now
    let first := Snapshot.firstOf entries now key
    (loaded .get = .answered (.reply (last.elim .null fun entry => .bulkText entry.value)) ∧
      loaded .type = .answered (.reply (.simple (last.elim "none" fun _ => "string")))) ∧
    (found .get = .answered (.reply (first.elim .null fun entry => .bulkText entry.value)) ∧
      found .type = .answered (.reply (.simple (first.elim "none" fun _ => "string")))) ∧
    (loaded .get = found .get ↔ last.map (·.value) = first.map (·.value)) ∧
    (loaded .type = found .type ↔ last.isSome = first.isSome) ∧
    ((∀ entry ∈ entries, ∀ entry' ∈ entries, entry.key = key → entry'.key = key →
      entry.isExpired since = false → entry'.isExpired since = false → entry = entry') →
        loaded .get = found .get ∧ loaded .type = found .type) := by
  intro loaded found last first
  have hnothing : (engine.load since entries).2.file.entries = .ok [] := by
    rw [show (engine.load since entries).2.file = .missing from hmissing]
    rfl
  have hthrough : other.file.entries = .ok entries := by
    rw [hfile]
    exact hentries
  have hlast : (engine.load since entries).2.found? [] now key = last.map (.ofText ·.value) :=
    load_found? hempty now key
  have hfirst : other.found? entries now key = first.map (.ofText ·.value) := by
    rw [found?, hempty']
    rfl
  have hget : loaded .get = _ := lookUp_get_of_entry hnothing hclosed hlast raw
  have htype : loaded .type = _ := lookUp_type_of_entry hnothing hclosed hlast raw
  have hget' : found .get = _ := lookUp_get_of_entry hthrough hclosed' hfirst raw
  have htype' : found .type = _ := lookUp_type_of_entry hthrough hclosed' hfirst raw
  have hgets : loaded .get = found .get ↔ last.map (·.value) = first.map (·.value) := by
    rw [hget, hget']
    have hbytes : ∀ {text text'}, Text.bytes text = Text.bytes text' ↔ text = text' :=
      ⟨Text.bytes_injective, congrArg _⟩
    cases last <;> cases first <;> simp [Reply.bulkText, hbytes]
  have htypes : loaded .type = found .type ↔ last.isSome = first.isSome := by
    rw [htype, htype']
    cases last <;> cases first <;> simp
  refine ⟨⟨hget, htype⟩, ⟨hget', htype'⟩, hgets, htypes, fun hsame => ?_⟩
  have hentry : last = first := Snapshot.filter_lastOf_eq hle hsame
  rw [hgets, htypes, hentry]
  exact ⟨rfl, rfl⟩

/-- A key with a deadline and an integer for its value is answered alike, beside another key in
    another database. -/
theorem loads_as_found_once :
    let content := Snapshot.magic ++ [48, 48, 49, 49, 254, 0, 252, 9, 0, 0, 0, 0, 0, 0, 0, 0, 1,
      107, 192, 5, 254, 1, 0, 1, 108, 1, 97, 255]
    let entries : List Snapshot.Entry := [⟨"k", "5", ⟨9⟩⟩, ⟨"l", "a", .never⟩]
    let loaded := ((start {} .missing "id").load 1 entries).2
    let other := start {} (.regular content) "id"
    Snapshot.entries content = .ok entries ∧
      loaded.lookUp {} 8 [] .get "k" = other.lookUp {} 8 [] .get "k" ∧
      loaded.lookUp {} 8 [] .type "k" = other.lookUp {} 8 [] .type "k" := by
  intro content entries loaded other
  have hentries : Snapshot.entries content = .ok entries := by decide +kernel
  have hclosed : ({} : Session).transaction = .closed := rfl
  have halike := loads_as_found_iff hentries (by decide : (1 : UInt64) ≤ 8)
    (rfl : (start {} .missing "id").keyspace = .empty) rfl (rfl : other.keyspace = .empty) rfl
    hclosed hclosed [] "k"
  exact ⟨hentries, halike.2.2.2.2 (by decide +kernel)⟩

/-- A key that has two entries is answered in two ways. -/
theorem load_keeps_last : ¬∀ (engine other : Engine) (content : Bytes)
    (entries : List Snapshot.Entry) (since now : UInt64) (key : String),
    Snapshot.entries content = .ok entries → since ≤ now → engine.keyspace = .empty →
      engine.file = .missing → other.keyspace = .empty → other.file = .regular content →
        (engine.load since entries).2.lookUp {} now [] .get key = other.lookUp {} now [] .get key ∧
        (engine.load since entries).2.lookUp {} now [] .type key =
          other.lookUp {} now [] .type key := by
  intro h
  let content := Snapshot.magic ++ [48, 48, 49, 49, 0, 1, 107, 1, 97, 0, 1, 107, 1, 98, 255]
  have hentries : Snapshot.entries content = .ok [⟨"k", "a", .never⟩, ⟨"k", "b", .never⟩] := by
    decide +kernel
  have hget := (h (.start {} .missing "id") (.start {} (.regular content) "id") content _ 1 2 "k"
    hentries (by decide) rfl rfl rfl rfl).1
  -- The keyspace holds the second text, and the file is looked into for the first one.
  have hloaded : .answered (.reply (.bulkText "b")) = Dispatch.answered (.reply (.bulkText "a")) :=
    hget
  simp only [Dispatch.answered.injEq, Response.reply.injEq, Reply.bulkText, Reply.bulk.injEq]
    at hloaded
  exact absurd (Text.bytes_injective hloaded) (by decide)

end Engine

end KeyValue
