/-!
# Rings: double-ended queues of fixed capacity

A ring keeps its elements in a row of slots that wraps around. `front` is the slot of the first element
and `rear` the slot after the last one; when the two coincide the ring is either empty or full, which the
flags `empty` and `full` tell apart. `toList` is the content from front to rear.
-/

namespace Playback

structure Ring (α : Type) where
  slots : Array (Option α)
  front : Nat
  rear : Nat
  empty : Bool
  full : Bool
deriving Repr

namespace Ring

variable {α : Type}

/-- An empty ring; a capacity of zero counts as one. -/
def new (capacity : Nat) : Ring α :=
  ⟨Array.replicate (max capacity 1) none, 0, 0, true, false⟩

def capacity (r : Ring α) : Nat :=
  r.slots.size

/-- The slot before a slot. -/
def prev (r : Ring α) (i : Nat) : Nat :=
  (i + r.capacity - 1) % r.capacity

/-- The slot after a slot. -/
def next (r : Ring α) (i : Nat) : Nat :=
  (i + 1) % r.capacity

/-- The number of elements. -/
def length (r : Ring α) : Nat :=
  if r.empty then 0
  else if r.full then r.capacity
  else (r.rear + r.capacity - r.front) % r.capacity

def isEmpty (r : Ring α) : Bool :=
  r.empty

def isFull (r : Ring α) : Bool :=
  r.full

/-- The element in a slot. -/
def slot? (r : Ring α) (i : Nat) : Option α :=
  r.slots[i]?.join

/-- The element at a position counted from the front. -/
def get? (r : Ring α) (i : Nat) : Option α :=
  if i < r.length then r.slot? ((r.front + i) % r.capacity) else none

def front? (r : Ring α) : Option α :=
  if r.empty then none else r.slot? r.front

def rear? (r : Ring α) : Option α :=
  if r.empty then none else r.slot? (r.prev r.rear)

/-- The elements from front to rear. -/
def toList (r : Ring α) : List α :=
  (List.range r.length).filterMap r.get?

/-- Puts an element before the first one; a full ring refuses. -/
def pushFront (r : Ring α) (a : α) : Bool × Ring α :=
  if r.full then (false, r)
  else
    let front := r.prev r.front
    (true, { r with
      slots := r.slots.setIfInBounds front (some a)
      front, empty := false, full := front == r.rear })

/-- Puts an element after the last one; a full ring refuses. -/
def pushBack (r : Ring α) (a : α) : Bool × Ring α :=
  if r.full then (false, r)
  else
    let rear := r.next r.rear
    (true, { r with
      slots := r.slots.setIfInBounds r.rear (some a)
      rear, empty := false, full := r.front == rear })

/-- Takes the first element out. -/
def popFront (r : Ring α) : Option α × Ring α :=
  if r.empty then (none, r)
  else
    let front := r.next r.front
    (r.slot? r.front, { r with
      slots := r.slots.setIfInBounds r.front none
      front, full := false, empty := front == r.rear })

/-- Takes the last element out. -/
def popBack (r : Ring α) : Option α × Ring α :=
  if r.empty then (none, r)
  else
    let rear := r.prev r.rear
    (r.slot? rear, { r with
      slots := r.slots.setIfInBounds rear none
      rear, full := false, empty := r.front == rear })

/-- Removes the first element; tells whether there was one. -/
def dropFront (r : Ring α) : Bool × Ring α :=
  let (a, r) := r.popFront
  (a.isSome, r)

/-- Removes the last element; tells whether there was one. -/
def dropBack (r : Ring α) : Bool × Ring α :=
  let (a, r) := r.popBack
  (a.isSome, r)

/-- Replaces the first element. -/
def setFront (r : Ring α) (a : α) : Ring α :=
  if r.empty then r else { r with slots := r.slots.setIfInBounds r.front (some a) }

/-- Takes so many elements off the front in turn and puts those that are kept back at the rear. -/
def rotate (keep : α → Bool) : Nat → Ring α → Ring α
  | 0, r => r
  | count + 1, r =>
    match r.popFront with
    | (none, r) => rotate keep count r
    | (some a, r) => rotate keep count (if keep a then (r.pushBack a).2 else r)

/-- Keeps the elements that satisfy a test, in their order. -/
def retain (r : Ring α) (keep : α → Bool) : Ring α :=
  rotate keep r.length r

/-- Removes all elements. -/
def clear (r : Ring α) : Ring α :=
  new r.capacity

end Ring
end Playback
