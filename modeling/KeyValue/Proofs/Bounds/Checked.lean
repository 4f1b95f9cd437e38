import KeyValue.Text.Decimal

/-!
# Operations that can be used outside of their domain

The parts of a list can be named by their places: one element by its place, a slice by the places
where it starts and ends. Such a name may lead beyond the list. Likewise a difference may go below
zero, and a sum may need more bits than there are.

The library's own operations have an answer for everything: what lies beyond a list is empty, a
difference stops at zero, and a number of fixed width wraps around. So they cannot tell whether they
are used outside of their domain. The operations here can: they answer only within it, and say
otherwise what went wrong. That a computation written with them answers is then a statement that all
its places and numbers are right.

## Main definitions

* `Fault`: What an operation outside of its domain runs into.
* `Checked`: A computation that may run into a fault.
* `Checked.item`, `Checked.slice`, `Checked.front`, `Checked.behind`: Parts of a list, by place.
* `Checked.difference`, `Checked.unsigned`, `Checked.signed`: Numbers that fit.

## Theorems

* `Checked.slice_eq_ok`, `Checked.front_eq_ok`, `Checked.behind_eq_ok`: Slices within a list.
* `Checked.unsigned_eq_ok`, `Checked.signed_eq_ok`: Numbers within their width.
-/

namespace KeyValue

/-- What an operation outside of its domain runs into. -/
inductive Fault where
  /-- A list has no element at the place. -/
  | place
  /-- A slice ends before it starts, or beyond the list. -/
  | slice
  /-- More is taken away than there is. -/
  | difference
  /-- A number does not fit its width. -/
  | overflow
  /-- A loop goes on beyond its bound. -/
  | endless
  /-- A command waits where none may. -/
  | waits
  deriving DecidableEq, Repr

/-- A computation that may run into a fault. -/
abbrev Checked (α : Type) := Except Fault α

namespace Checked

variable {α β : Type}

/-- The element at a place. -/
def item (items : List α) (index : Nat) : Checked α :=
  match items[index]? with
  | some found => .ok found
  | none => .error .place

/-- The elements from one place up to another, which is not included. -/
def slice (items : List α) (start stop : Nat) : Checked (List α) :=
  if start ≤ stop ∧ stop ≤ items.length then .ok ((items.drop start).take (stop - start))
  else .error .slice

/-- The elements in front of a place. -/
def front (items : List α) (stop : Nat) : Checked (List α) := slice items 0 stop

/-- The elements from a place on. -/
def behind (items : List α) (start : Nat) : Checked (List α) := slice items start items.length

/-- What is left of a number. -/
def difference (n taken : Nat) : Checked Nat :=
  if taken ≤ n then .ok (n - taken) else .error .difference

/-- An unsigned number of 64 bits. -/
def unsigned (n : Nat) : Checked UInt64 :=
  if n ≤ Decimal.maxUInt64 then .ok (UInt64.ofNat n) else .error .overflow

/-- A signed number of 64 bits. -/
def signed (n : Int) : Checked Int64 :=
  if Int64.minValue.toInt ≤ n ∧ n ≤ Int64.maxValue.toInt then .ok (Int64.ofInt n)
  else .error .overflow

/-- A computation goes on with what it has come to. -/
@[simp]
theorem ok_bind (a : α) (next : α → Checked β) : (Except.ok a : Checked α) >>= next = next a := rfl

@[simp]
theorem pure_eq_ok (a : α) : (pure a : Checked α) = .ok a := rfl

/-- An item is there at every place where one is found. -/
theorem item_eq_ok {items : List α} {index : Nat} {found : α} (h : items[index]? = some found) :
    item items index = .ok found := by
  simp only [item, h]

/-- A slice is there if it begins before it ends and ends within the list. -/
theorem slice_eq_ok {items : List α} {start stop : Nat} (hstart : start ≤ stop)
    (hstop : stop ≤ items.length) :
    slice items start stop = .ok ((items.drop start).take (stop - start)) :=
  if_pos ⟨hstart, hstop⟩

theorem front_eq_ok {items : List α} {stop : Nat} (h : stop ≤ items.length) :
    front items stop = .ok (items.take stop) := by
  rw [front, slice_eq_ok (Nat.zero_le _) h, List.drop_zero, Nat.sub_zero]

theorem behind_eq_ok {items : List α} {start : Nat} (h : start ≤ items.length) :
    behind items start = .ok (items.drop start) := by
  rw [behind, slice_eq_ok h (Nat.le_refl _), ← List.length_drop, List.take_length]

theorem difference_eq_ok {n taken : Nat} (h : taken ≤ n) :
    difference n taken = .ok (n - taken) := if_pos h

/-- A number of 64 bits without a sign is there if it is not too large. -/
theorem unsigned_eq_ok {n : Nat} (h : n ≤ Decimal.maxUInt64) :
    unsigned n = .ok (UInt64.ofNat n) := if_pos h

/-- A number of 64 bits with a sign is there if it lies between the least and the greatest. -/
theorem signed_eq_ok {n : Int} (hleast : Int64.minValue.toInt ≤ n)
    (hgreatest : n ≤ Int64.maxValue.toInt) : signed n = .ok (Int64.ofInt n) :=
  if_pos ⟨hleast, hgreatest⟩

end Checked

end KeyValue
