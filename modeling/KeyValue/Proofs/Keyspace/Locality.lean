import KeyValue.Execution.Keys
import KeyValue.Execution.Streams
import KeyValue.Proofs.Keyspace.Writes
import Mathlib.Data.List.Sort
import Mathlib.Data.String.Basic

/-!
# What a command looks at and changes

A command on a key looks at that key only, and changes no other (`Local`). So two commands on
different keys can come in either order (`Local.commutes`): both find what they would have found, and
in the end every key holds the same. Only the order in which the keys are stored may differ.

A command that reads finds what is live at its time, and at most removes what is not (`Reads`). So
two reads at the same time can come in either order as well, whichever keys they look at
(`Reads.commutes`).

## Main definitions

* `Keyspace.Local`: An operation that looks at and changes some keys only.
* `Keyspace.Reads`: An operation that reads some keys.
* `Keyspace.Commutes`: Two operations that can come in either order.

## Theorems

* `Local.commutes`, `Reads.commutes`: When they can.
* `Reads.toLocal`: A read looks at its keys only.
* `KeyCommand.set_local`, `KeyCommand.increment_local`, `StreamCommand.addEntry_local`: The writes.
* `KeyCommand.get_reads`, `KeyCommand.type_reads`, `KeyCommand.keys_reads`,
  `StreamCommand.range_reads`, `Cursor.resolve_reads`, `Cursor.read_reads`: The reads.
-/

namespace KeyValue

namespace Keyspace

/-- The operation looks at these keys only, and changes no other. -/
structure Local {α : Type} (keys : String → Prop) (op : Keyspace → α × Keyspace) : Prop where
  result : ∀ {a b : Keyspace}, (∀ key, keys key → a.item? key = b.item? key) →
    (op a).1 = (op b).1
  inside : ∀ {a b : Keyspace}, (∀ key, keys key → a.item? key = b.item? key) →
    ∀ key, keys key → (op a).2.item? key = (op b).2.item? key
  outside : ∀ (keyspace : Keyspace) (key : String), ¬keys key →
    (op keyspace).2.item? key = keyspace.item? key

/-- The operation finds what these keys hold at the time `now`, and removes some of them if they are
    expired. -/
structure Reads {α : Type} (now : UInt64) (keys : String → Prop) (op : Keyspace → α × Keyspace) :
    Prop where
  result : ∀ {a b : Keyspace}, (∀ key, keys key → a.live? now key = b.live? now key) →
    (op a).1 = (op b).1
  prunes : ∃ pruned : String → Prop, (∀ key, pruned key → keys key) ∧
    ∀ (keyspace : Keyspace) (key : String),
      (pruned key → (op keyspace).2.item? key = keyspace.live? now key) ∧
        (¬pruned key → (op keyspace).2.item? key = keyspace.item? key)

/-- The operations find the same in either order, and in the end every key holds the same. -/
def Commutes {α β : Type} (op : Keyspace → α × Keyspace) (op' : Keyspace → β × Keyspace) : Prop :=
  ∀ keyspace : Keyspace, (op' (op keyspace).2).1 = (op' keyspace).1 ∧
    (op (op' keyspace).2).1 = (op keyspace).1 ∧
    ∀ key, (op' (op keyspace).2).2.item? key = (op (op' keyspace).2).2.item? key

/-- What is live is told by what is held. -/
theorem live?_congr {a b : Keyspace} {key : String} (now : UInt64)
    (h : a.item? key = b.item? key) : a.live? now key = b.live? now key := by
  rw [live?, live?, h]

section Operations

variable {α β : Type} {now : UInt64} {keys keys' : String → Prop} {op : Keyspace → α × Keyspace}
  {op' : Keyspace → β × Keyspace} {key : String}

/-- A read looks at its keys only. -/
theorem Reads.toLocal (h : Reads now keys op) : Local keys op := by
  rcases h.prunes with ⟨pruned, hpruned, hafter⟩
  refine ⟨fun hsame => h.result fun key hkey => live?_congr now (hsame key hkey),
    fun {a b} hsame key hkey => ?_, fun keyspace key hkey => ?_⟩
  · by_cases hprunes : pruned key
    · rw [(hafter a key).1 hprunes, (hafter b key).1 hprunes]
      exact live?_congr now (hsame key hkey)
    · rw [(hafter a key).2 hprunes, (hafter b key).2 hprunes]
      exact hsame key hkey
  · exact (hafter keyspace key).2 fun hprunes => hkey (hpruned key hprunes)

/-- After a read what is live is still there. -/
theorem Reads.live?_eq (h : Reads now keys op) (keyspace : Keyspace) (key : String) :
    (op keyspace).2.live? now key = keyspace.live? now key := by
  rcases h.prunes with ⟨pruned, -, hafter⟩
  by_cases hprunes : pruned key
  · rw [live?, (hafter keyspace key).1 hprunes, live?, Option.filter_filter]
    simp
  · exact live?_congr now ((hafter keyspace key).2 hprunes)

/-- Reads at the same time can come in either order. -/
theorem Reads.commutes (h : Reads now keys op) (h' : Reads now keys' op') : Commutes op op' := by
  intro keyspace
  refine ⟨h'.result fun key _ => h.live?_eq keyspace key,
    h.result fun key _ => h'.live?_eq keyspace key, fun key => ?_⟩
  rcases h.prunes with ⟨pruned, -, hafter⟩
  rcases h'.prunes with ⟨pruned', -, hafter'⟩
  -- In either order the key holds what is live if one of them prunes it, and else what it held.
  by_cases hprunes : pruned key
  · by_cases hprunes' : pruned' key
    · rw [(hafter' _ key).1 hprunes', (hafter _ key).1 hprunes, h.live?_eq, h'.live?_eq]
    · rw [(hafter' _ key).2 hprunes', (hafter _ key).1 hprunes, (hafter _ key).1 hprunes,
        h'.live?_eq]
  · by_cases hprunes' : pruned' key
    · rw [(hafter' _ key).1 hprunes', (hafter _ key).2 hprunes, (hafter' _ key).1 hprunes',
        h.live?_eq]
    · rw [(hafter' _ key).2 hprunes', (hafter _ key).2 hprunes, (hafter _ key).2 hprunes,
        (hafter' _ key).2 hprunes']

/-- Operations on different keys can come in either order. -/
theorem Local.commutes (h : Local keys op) (h' : Local keys' op')
    (hapart : ∀ key, keys key → ¬keys' key) : Commutes op op' := by
  intro keyspace
  have hseen : ∀ key, keys key → (op' keyspace).2.item? key = keyspace.item? key :=
    fun key hkey => h'.outside keyspace key (hapart key hkey)
  have hseen' : ∀ key, keys' key → (op keyspace).2.item? key = keyspace.item? key :=
    fun key hkey => h.outside keyspace key fun hother => hapart key hother hkey
  refine ⟨h'.result hseen', h.result hseen, fun key => ?_⟩
  by_cases hkey : keys key
  · rw [h'.outside _ key (hapart key hkey), h.inside hseen key hkey]
  · rw [h.outside _ key hkey]
    by_cases hkey' : keys' key
    · exact h'.inside hseen' key hkey'
    · rw [h'.outside _ key hkey', h'.outside _ key hkey', h.outside _ key hkey]

/-- A read that touches its key. -/
theorem reads_of_touch
    (hresult : ∀ {a b : Keyspace}, a.live? now key = b.live? now key → (op a).1 = (op b).1)
    (hafter : ∀ keyspace, (op keyspace).2 = keyspace.touch now key) : Reads now (· = key) op := by
  refine ⟨fun hsame => hresult (hsame key rfl), (· = key), fun _ hkey => hkey,
    fun keyspace other => ⟨fun hkey => ?_, fun hkey => ?_⟩⟩
  · rw [hafter, item?_touch, if_pos hkey]
  · rw [hafter, item?_touch, if_neg hkey]

/-- A read that looks at no key. -/
theorem reads_of_still (hresult : ∀ a b : Keyspace, (op a).1 = (op b).1)
    (hafter : ∀ keyspace, (op keyspace).2 = keyspace) : Reads now keys op := by
  refine ⟨fun {a b} _ => hresult a b, fun _ => False, by simp, fun keyspace key => ?_⟩
  exact ⟨False.elim, fun _ => by rw [hafter]⟩

/-- An operation that changes nothing is local to whatever it looks at. -/
theorem local_of_still (hresult : ∀ a b : Keyspace, (op a).1 = (op b).1)
    (hafter : ∀ keyspace, (op keyspace).2 = keyspace) : Local keys op :=
  (reads_of_still hresult hafter : Reads 0 keys op).toLocal

-- A write is told by what its key held.
theorem local_of_item
    (hresult : ∀ {a b : Keyspace}, a.item? key = b.item? key → (op a).1 = (op b).1)
    (hinside : ∀ {a b : Keyspace}, a.item? key = b.item? key →
      (op a).2.item? key = (op b).2.item? key)
    (houtside : ∀ (keyspace : Keyspace) (other : String), other ≠ key →
      (op keyspace).2.item? other = keyspace.item? other) : Local (· = key) op := by
  refine ⟨fun hsame => hresult (hsame key rfl), fun hsame other hother => ?_, houtside⟩
  obtain rfl : other = key := hother
  exact hinside (hsame other rfl)

end Operations

/-- A read of a stream looks at its key, and removes it if it is expired. -/
theorem readStream_reads {α : Type} (now : UInt64) (key : String) (read : Stream → α) :
    Reads now (· = key) fun keyspace => keyspace.readStream now key read :=
  reads_of_touch (fun hlive => by simp only [readStream, hlive]) fun _ => rfl

/-- To set a key is to forget what it held. -/
theorem set_local (key : String) (value : Value) (deadline : Deadline) :
    Local (· = key) fun keyspace => ((), keyspace.set key value deadline) := by
  refine local_of_item (fun _ => rfl) (fun _ => ?_) fun keyspace other hother => ?_
  · simp only [set, item?_insert, if_true]
  · simp only [set, item?_insert, if_neg hother]

-- What a key holds after it was touched is what is live, and other keys are left alone.
theorem touch_congr {a b : Keyspace} {key : String} (now : UInt64)
    (h : a.item? key = b.item? key) : (a.touch now key).item? key = (b.touch now key).item? key := by
  rw [item?_touch, item?_touch, if_pos rfl, if_pos rfl]
  exact live?_congr now h

/-- Touching a key leaves the other keys alone, expired or not. -/
theorem touch_of_ne (keyspace : Keyspace) (now : UInt64) {key other : String} (h : other ≠ key) :
    (keyspace.touch now key).item? other = keyspace.item? other := by
  rw [item?_touch, if_neg h]

/-- A key that is inserted hides none of the others. -/
theorem insert_of_ne (keyspace : Keyspace) (item : Item) {key other : String} (h : other ≠ key) :
    (keyspace.insert key item).item? other = keyspace.item? other := by
  rw [item?_insert, if_neg h]

theorem erase_of_ne (keyspace : Keyspace) {key other : String} (h : other ≠ key) :
    (keyspace.erase key).item? other = keyspace.item? other := by
  rw [item?_erase, if_neg h]

/-- An increment looks at one key and changes no other. -/
theorem increment_local (now : UInt64) (key : String) :
    Local (· = key) fun keyspace => keyspace.increment now key := by
  refine local_of_item (fun {a b} hsame => ?_) (fun {a b} hsame => ?_)
    fun keyspace other hother => ?_
  · simp only [increment, live?_congr now hsame]
    rcases b.live? now key with _ | ⟨_ | number | _, deadline⟩
    case some.integer => simp only; split <;> rfl
    all_goals rfl
  · have htouch := touch_congr now hsame
    simp only [increment, live?_congr now hsame]
    rcases b.live? now key with _ | ⟨_ | number | _, deadline⟩
    case some.integer =>
      simp only
      split
      · exact htouch
      · simp only [item?_insert, if_true]
    all_goals exact htouch
  · have htouch := keyspace.touch_of_ne now hother
    simp only [increment]
    rcases keyspace.live? now key with _ | ⟨_ | number | _, deadline⟩
    case some.integer =>
      simp only
      split
      · exact htouch
      · exact (insert_of_ne _ _ hother).trans htouch
    all_goals exact htouch

/-- To add an entry looks at one key and changes no other, whether the entry is accepted or
    refused. -/
theorem addEntry_local (now : UInt64) (key : String) (request : IdRequest)
    (fields : List (String × String)) :
    Local (· = key) fun keyspace => keyspace.addEntry now key request fields := by
  simp only [addEntry_eq]
  refine local_of_item (fun {a b} hsame => ?_) (fun {a b} hsame => ?_)
    fun keyspace other hother => ?_
  · simp only [live?_congr now hsame]
    split
    · split <;> rfl
    · rfl
  · have htouch := touch_congr now hsame
    simp only [live?_congr now hsame]
    split
    · split
      · split
        · simp only [item?_erase, if_true]
        · exact htouch
      · simp only [item?_insert, if_true]
    · exact htouch
  · have htouch := keyspace.touch_of_ne now hother
    split
    · split
      · simp only
        split
        · exact (erase_of_ne _ hother).trans htouch
        · exact htouch
      · exact (insert_of_ne _ _ hother).trans htouch
    · exact htouch

/-- Looking at more keys does not matter. -/
theorem Local.imp {α : Type} {keys keys' : String → Prop} {op : Keyspace → α × Keyspace}
    (h : Local keys op) (himp : ∀ key, keys key → keys' key) : Local keys' op := by
  refine ⟨fun hsame => h.result fun key hkey => hsame key (himp key hkey),
    fun hsame key hkey' => ?_, fun keyspace key hkey => h.outside keyspace key (hkey ∘ himp key)⟩
  by_cases hkey : keys key
  · exact h.inside (fun other hother => hsame other (himp other hother)) key hkey
  · rw [h.outside _ key hkey, h.outside _ key hkey, hsame key hkey']

/-- A read of some keys is one of more keys. -/
theorem Reads.imp {α : Type} {now : UInt64} {keys keys' : String → Prop}
    {op : Keyspace → α × Keyspace} (h : Reads now keys op) (himp : ∀ key, keys key → keys' key) :
    Reads now keys' op := by
  rcases h.prunes with ⟨pruned, hpruned, hafter⟩
  exact ⟨fun hsame => h.result fun key hkey => hsame key (himp key hkey),
    pruned, fun key hkey => himp key (hpruned key hkey), hafter⟩

/-- What is done with the result does not matter either. -/
theorem Local.map {α β : Type} {keys : String → Prop} {op : Keyspace → α × Keyspace}
    (h : Local keys op) (f : α → β) :
    Local keys fun keyspace => (f (op keyspace).1, (op keyspace).2) :=
  ⟨fun hsame => congrArg f (h.result hsame), h.inside, h.outside⟩

/-- A read stays one if its result is put in other words. -/
theorem Reads.map {α β : Type} {now : UInt64} {keys : String → Prop} {op : Keyspace → α × Keyspace}
    (h : Reads now keys op) (f : α → β) :
    Reads now keys fun keyspace => (f (op keyspace).1, (op keyspace).2) :=
  ⟨fun hsame => congrArg f (h.result hsame), h.prunes⟩

end Keyspace

namespace KeyCommand

open Keyspace

/-- The options of a write concern its key only. -/
theorem set_local (now : UInt64) (key value : String) (options : List String) :
    Local (· = key) fun keyspace => set keyspace now key value options := by
  unfold set
  cases deadlineOf now .never options with
  | error e => exact local_of_still (fun _ _ => rfl) fun _ => rfl
  | ok deadline =>
      exact (Keyspace.set_local key (.ofText value) deadline).map fun _ => Except.ok Reply.ok

theorem increment_local (now : UInt64) (key : String) :
    Local (· = key) fun keyspace => increment keyspace now key :=
  (Keyspace.increment_local now key).map _

/-- A key without a value is looked up in the file, which no operation changes. -/
theorem get_reads (file : Snapshot.File) (now : UInt64) (key : String) :
    Reads now (· = key) fun keyspace => get keyspace file now key := by
  refine reads_of_touch (fun {a b} hlive => ?_) fun keyspace => ?_
  · simp only [get, Keyspace.get, hlive]
    cases (b.live? now key).map (·.value) <;> rfl
  · simp only [get, Keyspace.get]
    cases (keyspace.live? now key).map (·.value) <;> rfl

/-- The type of a key without a value is told by the file, too. -/
theorem type_reads (file : Snapshot.File) (now : UInt64) (key : String) :
    Reads now (· = key) fun keyspace => type keyspace file now key := by
  refine reads_of_touch (fun {a b} hlive => ?_) fun keyspace => ?_
  · simp only [type, Keyspace.kind, hlive]
    cases (b.live? now key).map (·.value.kind) <;> rfl
  · simp only [type, Keyspace.kind]
    cases (keyspace.live? now key).map (·.value.kind) <;> rfl

/-- A key that is inserted is there, and those that were there still are. -/
theorem mem_insertAscending {key other : String} {keys : List String} :
    other ∈ insertAscending key keys ↔ other = key ∨ other ∈ keys := by
  induction keys with
  | nil => simp [insertAscending]
  | cons first rest ih =>
      unfold insertAscending
      split
      · simp
      · split
        · rename_i heq
          simp [heq]
        · simp only [List.mem_cons, ih]
          tauto

/-- Keys that ascend do so with one more in its place. -/
theorem pairwise_insertAscending {key : String} {keys : List String}
    (h : keys.Pairwise (· < ·)) : (insertAscending key keys).Pairwise (· < ·) := by
  induction keys with
  | nil => simp [insertAscending]
  | cons first rest ih =>
      unfold insertAscending
      rw [List.pairwise_cons] at h
      split
      · rename_i hlt
        refine List.pairwise_cons.mpr ⟨fun other hother => ?_, List.pairwise_cons.mpr h⟩
        rcases List.mem_cons.mp hother with rfl | hrest
        · exact hlt
        · exact hlt.trans (h.1 other hrest)
      · split
        · exact List.pairwise_cons.mpr h
        · rename_i hlt hne
          refine List.pairwise_cons.mpr ⟨fun other hother => ?_, ih h.2⟩
          rcases mem_insertAscending.mp hother with rfl | hrest
          · exact lt_of_le_of_ne (not_lt.mp hlt) (Ne.symm hne)
          · exact h.1 other hrest

/-- Sorting neither loses a key nor makes one up. -/
theorem mem_ascending {key : String} {keys : List String} : key ∈ ascending keys ↔ key ∈ keys := by
  induction keys with
  | nil => rfl
  | cons first rest ih =>
      rw [ascending, List.foldr_cons, ← ascending, mem_insertAscending, ih, List.mem_cons]

/-- Sorted keys ascend, and no key comes twice. -/
theorem pairwise_ascending (keys : List String) : (ascending keys).Pairwise (· < ·) := by
  induction keys with
  | nil => exact .nil
  | cons first rest ih => exact pairwise_insertAscending ih

/-- Only which keys there are matters for their order. -/
theorem ascending_congr {keys keys' : List String} (h : ∀ key, key ∈ keys ↔ key ∈ keys') :
    ascending keys = ascending keys' := by
  have hperm : (ascending keys).Perm (ascending keys') := by
    refine (List.perm_ext_iff_of_nodup ?_ ?_).mpr fun key => ?_
    · exact (pairwise_ascending keys).imp ne_of_lt
    · exact (pairwise_ascending keys').imp ne_of_lt
    · rw [mem_ascending, mem_ascending, h]
  exact hperm.eq_of_pairwise (fun _ _ _ _ hlt hgt => absurd hlt (lt_asymm hgt))
    (pairwise_ascending keys) (pairwise_ascending keys')

/-- The keys that are listed are those that hold something live. -/
theorem mem_keys {keyspace : Keyspace} {now : UInt64} {key : String} :
    key ∈ (keyspace.keys now).1 ↔ (keyspace.live? now key).isSome = true := by
  rw [← keyspace.item?_keys now key, item?, Keyspace.keys, ← Option.ne_none_iff_isSome, ne_eq,
    List.lookup_eq_none_iff]
  simp

/-- A list of the keys looks at all of them, and removes those that are expired. -/
theorem keys_reads (file : Snapshot.File) (now : UInt64) (pattern : String) :
    Reads now (fun _ => True) fun keyspace => keys keyspace file now pattern := by
  refine ⟨fun {a b} hsame => ?_, fun _ => True, fun _ _ => trivial,
    fun keyspace key => ⟨fun _ => keyspace.item?_keys now key, fun hnot => absurd trivial hnot⟩⟩
  have hsorted : ∀ inFile, ascending ((a.keys now).1 ++ inFile) =
      ascending ((b.keys now).1 ++ inFile) := by
    intro inFile
    refine ascending_congr fun key => ?_
    rw [List.mem_append, List.mem_append, mem_keys, mem_keys, hsame key trivial]
  simp only [keys, hsorted]

end KeyCommand

namespace StreamCommand

open Keyspace

/-- A command that adds an entry refuses its words before it looks at the key. -/
theorem addEntry_local (now : UInt64) (key id : String) (fields : List String) :
    Local (· = key) fun keyspace => addEntry keyspace now key id fields := by
  unfold addEntry
  cases IdRequest.ofText id with
  | error e => exact local_of_still (fun _ _ => rfl) fun _ => rfl
  | ok request =>
      simp only
      cases pairs? fields with
      | none => exact local_of_still (fun _ _ => rfl) fun _ => rfl
      | some fields => exact Keyspace.addEntry_local now key request fields

/-- A range of a stream looks at its key only. -/
theorem range_reads (now : UInt64) (key start stop : String) (options : List String) :
    Reads now (· = key) fun keyspace => range keyspace now key start stop options := by
  unfold range
  simp only
  split
  · exact reads_of_still (fun _ _ => rfl) fun _ => rfl
  · exact (readStream_reads now key _).map _

end StreamCommand

namespace Cursor

open Keyspace

/-- Only the sign for the last id looks at the stream at all. -/
theorem resolve_reads (now : UInt64) (key id : String) :
    Reads now (· = key) fun keyspace => resolve keyspace now key id := by
  unfold resolve
  by_cases hlast : id = "$"
  · simp only [if_pos hlast]
    exact (readStream_reads now key _).map _
  · simp only [if_neg hlast]
    exact reads_of_still (fun _ _ => rfl) fun _ => rfl

/-- A cursor looks at the stream of its key. -/
theorem read_reads (now : UInt64) (count : Option Nat) (cursor : Cursor) :
    Reads now (· = cursor.key) fun keyspace => cursor.read keyspace now count :=
  readStream_reads now cursor.key (·.after cursor.above count)

end Cursor

end KeyValue
