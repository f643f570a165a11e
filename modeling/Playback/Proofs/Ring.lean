import Playback.Ring

/-!
# What a ring holds

`Holds r l` says that the ring `r` holds the elements of the list `l`, from front to rear: the element at
position `i` is in the slot `front + i`, counted around the ring, and the flags tell the empty ring from the
full one. Operations of the ring are operations of the list: taking the first element out takes the head,
putting one in at the rear appends it unless the ring is full, and keeping some of the elements filters.

The slots are told apart by `slot_inj`: positions below the capacity lie in different slots.
-/

namespace Playback.Ring

variable {α : Type}

/-! ## Slots -/

/-- The position of a slot, counted from the front. -/
theorem position_of_slot {front i capacity : Nat} (hfront : front < capacity) (hi : i < capacity) :
    ((front + i) % capacity + capacity - front) % capacity = i := by
  rcases Nat.lt_or_ge (front + i) capacity with hlt | hge
  · rw [Nat.mod_eq_of_lt hlt, show front + i + capacity - front = i + capacity from by omega,
      Nat.add_mod_right, Nat.mod_eq_of_lt hi]
  · have hslot : (front + i) % capacity = front + i - capacity := by
      rw [Nat.mod_eq_sub_mod hge, Nat.mod_eq_of_lt (by omega)]
    rw [hslot, show front + i - capacity + capacity - front = i from by omega, Nat.mod_eq_of_lt hi]

theorem slot_inj {front i j capacity : Nat} (hfront : front < capacity) (hi : i < capacity)
    (hj : j < capacity) (h : (front + i) % capacity = (front + j) % capacity) : i = j := by
  have hi' := position_of_slot hfront hi
  rw [h, position_of_slot hfront hj] at hi'
  exact hi'.symm

theorem slot_zero {front capacity : Nat} (hfront : front < capacity) : (front + 0) % capacity = front :=
  Nat.mod_eq_of_lt hfront

theorem slot_ne_front {front i capacity : Nat} (hfront : front < capacity) (hpos : 0 < i)
    (hi : i < capacity) : front ≠ (front + i) % capacity := by
  intro heq
  have hzero := slot_inj hfront (Nat.lt_trans hpos hi) hi ((slot_zero hfront).trans heq)
  omega

/-- Counting from the slot after the front. -/
theorem slot_succ (front i capacity : Nat) :
    ((front + 1) % capacity + i) % capacity = (front + (i + 1)) % capacity := by
  rw [Nat.mod_add_mod]
  congr 1
  omega

/-- Counting from the slot before the front. -/
theorem slot_of_prev {front i capacity : Nat} (hpos : 0 < capacity) :
    ((front + capacity - 1) % capacity + (i + 1)) % capacity = (front + i) % capacity := by
  rw [Nat.mod_add_mod, show front + capacity - 1 + (i + 1) = front + i + capacity from by omega,
    Nat.add_mod_right]

/-- The slot before one that is not the front. -/
theorem prev_of_slot {front i capacity : Nat} (hpos : 0 < capacity) :
    ((front + (i + 1)) % capacity + capacity - 1) % capacity = (front + i) % capacity := by
  rw [show (front + (i + 1)) % capacity + capacity - 1 = (front + (i + 1)) % capacity + (capacity - 1) from by
    omega, Nat.mod_add_mod, show front + (i + 1) + (capacity - 1) = front + i + capacity from by omega,
    Nat.add_mod_right]

theorem slot?_set_self {r : Ring α} {i : Nat} (hi : i < r.capacity) (v : Option α) :
    { r with slots := r.slots.setIfInBounds i v }.slot? i = v := by
  have hi' : i < r.slots.size := hi
  simp [slot?, hi']

theorem slot?_set_ne {r : Ring α} {i j : Nat} (hne : i ≠ j) (v : Option α) :
    { r with slots := r.slots.setIfInBounds i v }.slot? j = r.slot? j := by
  simp [slot?, Array.getElem?_setIfInBounds_ne hne]

/-! ## The elements -/

/-- The ring holds these elements, from front to rear. -/
structure Holds (r : Ring α) (l : List α) : Prop where
  front : r.front < r.capacity
  rear : r.rear = (r.front + l.length) % r.capacity
  bound : l.length ≤ r.capacity
  empty : r.empty = decide (l.length = 0)
  full : r.full = decide (l.length = r.capacity)
  slot : ∀ i (h : i < l.length), r.slot? ((r.front + i) % r.capacity) = some l[i]

variable {r : Ring α} {l : List α}

theorem Holds.isEmpty (h : r.Holds l) : r.isEmpty = l.isEmpty := by
  rw [Ring.isEmpty, h.empty]
  cases l <;> rfl

theorem Holds.length (h : r.Holds l) : r.length = l.length := by
  unfold Ring.length
  rw [h.empty, h.full]
  by_cases hempty : l.length = 0
  · rw [if_pos (by simp [hempty]), hempty]
  · rw [if_neg (by simp [hempty])]
    by_cases hfull : l.length = r.capacity
    · rw [if_pos (by simp [hfull]), hfull]
    · rw [if_neg (by simp [hfull]), h.rear]
      have hbound := h.bound
      exact position_of_slot h.front (by omega)

theorem Holds.get? (h : r.Holds l) (i : Nat) : r.get? i = l[i]? := by
  unfold Ring.get?
  rw [h.length]
  split
  next hi => rw [h.slot i hi, List.getElem?_eq_getElem hi]
  next hi => rw [List.getElem?_eq_none (by omega)]

theorem Holds.front? (h : r.Holds l) : r.front? = l.head? := by
  unfold Ring.front?
  rw [h.empty]
  cases l with
  | nil => rfl
  | cons a l =>
    have hslot := h.slot 0 (Nat.succ_pos _)
    rw [slot_zero h.front] at hslot
    exact hslot

theorem Holds.rear? (h : r.Holds l) : r.rear? = l.getLast? := by
  have hpos : 0 < r.capacity := Nat.lt_of_le_of_lt (Nat.zero_le _) h.front
  unfold Ring.rear?
  rw [h.empty]
  cases hl : l.length with
  | zero => rw [List.eq_nil_of_length_eq_zero hl]; rfl
  | succ n =>
    have hlast : l.getLast? = some (l.get ⟨n, by omega⟩) := by simp [List.getLast?_eq_getElem?, hl]
    rw [if_neg (by simp), Ring.prev, h.rear, hl, prev_of_slot hpos, hlast]
    exact h.slot n (by omega)

theorem Holds.toList (h : r.Holds l) : r.toList = l := by
  have hget : r.get? = fun i => l[i]? := funext h.get?
  have hlist (l : List α) : (List.range l.length).filterMap (fun i => l[i]?) = l := by
    induction l with
    | nil => rfl
    | cons a l ih =>
      rw [List.length_cons, List.range_succ_eq_map, List.filterMap_cons, List.filterMap_map]
      exact congrArg (a :: ·) ih
  rw [Ring.toList, hget, h.length, hlist]

/-! ## The operations -/

theorem new_holds (capacity : Nat) : (new capacity : Ring α).Holds [] := by
  have hcapacity : (new capacity : Ring α).capacity = max capacity 1 := Array.size_replicate
  refine ⟨?_, ?_, Nat.zero_le _, rfl, ?_, fun i h => nomatch h⟩
  · rw [hcapacity]
    show 0 < max capacity 1
    omega
  · exact (Nat.zero_mod _).symm
  · rw [hcapacity]
    show false = decide (0 = max capacity 1)
    simp
    omega

theorem clear_holds (r : Ring α) : r.clear.Holds [] :=
  new_holds r.capacity

theorem popFront_capacity (r : Ring α) : r.popFront.2.capacity = r.capacity := by
  unfold Ring.popFront
  split
  next => rfl
  next => exact Array.size_setIfInBounds

theorem Holds.popFront_nil (h : r.Holds []) : r.popFront = (none, r) := by
  unfold Ring.popFront
  rw [h.empty]
  rfl

/-- What is taken out is the head, and the tail stays. -/
theorem Holds.popFront_cons {a : α} (h : r.Holds (a :: l)) :
    r.popFront.1 = some a ∧ r.popFront.2.Holds l := by
  have hbound := h.bound
  rw [List.length_cons] at hbound
  have hpop : r.popFront = (r.slot? r.front, { r with
      slots := r.slots.setIfInBounds r.front none
      front := (r.front + 1) % r.capacity, full := false
      empty := (r.front + 1) % r.capacity == r.rear }) := by
    unfold Ring.popFront
    rw [h.empty]
    rfl
  have hcapacity := r.popFront_capacity
  have hfront : r.popFront.2.front = (r.front + 1) % r.capacity := by rw [hpop]
  have hrear : r.rear = ((r.front + 1) % r.capacity + l.length) % r.capacity := by
    rw [h.rear, slot_succ, List.length_cons]
  have hpos : 0 < r.capacity := Nat.lt_of_le_of_lt (Nat.zero_le _) h.front
  have hlt : (r.front + 1) % r.capacity < r.capacity := Nat.mod_lt _ hpos
  constructor
  · rw [hpop]
    have hslot := h.slot 0 (Nat.succ_pos _)
    rw [slot_zero h.front] at hslot
    exact hslot
  · refine ⟨?_, ?_, ?_, ?_, ?_, fun i hi => ?_⟩
    · rw [hcapacity, hfront]
      exact hlt
    · rw [hcapacity, hfront, ← hrear, hpop]
    · rw [hcapacity]
      omega
    · -- the ring is empty if the next slot is the rear
      rw [hpop]
      show ((r.front + 1) % r.capacity == r.rear) = decide (l.length = 0)
      rw [hrear, Bool.eq_iff_iff, beq_iff_eq, decide_eq_true_eq]
      constructor
      · intro heq
        by_cases hzero : l.length = 0
        · exact hzero
        · exact absurd heq (slot_ne_front hlt (Nat.pos_of_ne_zero hzero) (by omega))
      · intro hzero
        rw [hzero]
        exact (slot_zero hlt).symm
    · rw [hcapacity, hpop]
      show false = decide (l.length = r.capacity)
      simp
      omega
    · rw [hcapacity, hfront, slot_succ, hpop]
      have hne := slot_ne_front h.front (Nat.succ_pos i) (by omega)
      exact (slot?_set_ne (r := r) hne none).trans (h.slot (i + 1) (Nat.succ_lt_succ hi))

theorem Holds.pushBack_full (h : r.Holds l) (full : l.length = r.capacity) (a : α) :
    r.pushBack a = (false, r) := by
  unfold Ring.pushBack
  rw [h.full, if_pos (by simp [full])]

theorem Holds.pushBack (h : r.Holds l) (room : l.length < r.capacity) (a : α) :
    (r.pushBack a).1 = true ∧ (r.pushBack a).2.Holds (l ++ [a]) ∧
      (r.pushBack a).2.capacity = r.capacity := by
  have hpush : r.pushBack a = (true, { r with
      slots := r.slots.setIfInBounds r.rear (some a)
      rear := (r.rear + 1) % r.capacity, empty := false
      full := r.front == (r.rear + 1) % r.capacity }) := by
    unfold Ring.pushBack
    rw [h.full, if_neg (by simp; omega)]
    rfl
  have hcapacity : (r.pushBack a).2.capacity = r.capacity := by
    rw [hpush]
    exact Array.size_setIfInBounds
  have hrear : (r.rear + 1) % r.capacity = (r.front + (l.length + 1)) % r.capacity := by
    rw [h.rear, Nat.mod_add_mod, Nat.add_assoc]
  have hfront : (r.pushBack a).2.front = r.front := by rw [hpush]
  have hpos : 0 < r.capacity := Nat.lt_of_le_of_lt (Nat.zero_le _) h.front
  refine ⟨by rw [hpush], ⟨?_, ?_, ?_, ?_, ?_, fun i hi => ?_⟩, hcapacity⟩
  · rw [hcapacity, hfront]
    exact h.front
  · rw [hcapacity, hfront, List.length_append, List.length_singleton, ← hrear, hpush]
  · rw [hcapacity, List.length_append, List.length_singleton]
    exact room
  · rw [hpush, List.length_append, List.length_singleton]
    simp
  · -- the ring is full if the slot after the rear is the front
    rw [hcapacity, hpush, List.length_append, List.length_singleton]
    show (r.front == (r.rear + 1) % r.capacity) = decide (l.length + 1 = r.capacity)
    rw [hrear, Bool.eq_iff_iff, beq_iff_eq, decide_eq_true_eq]
    constructor
    · intro heq
      by_cases hfull : l.length + 1 = r.capacity
      · exact hfull
      · exact absurd heq (slot_ne_front h.front (Nat.succ_pos _) (by omega))
    · intro hfull
      rw [hfull, Nat.add_mod_right, Nat.mod_eq_of_lt h.front]
  · rw [hcapacity, hfront]
    rw [List.length_append, List.length_singleton] at hi
    by_cases hlast : i = l.length
    · subst hlast
      rw [← h.rear, hpush, List.getElem_concat_length rfl]
      exact slot?_set_self (r := r) (by rw [h.rear]; exact Nat.mod_lt _ hpos) (some a)
    · have hne : r.rear ≠ (r.front + i) % r.capacity := by
        intro heq
        rw [h.rear] at heq
        have hpositions := slot_inj h.front room (by omega) heq
        omega
      rw [hpush, List.getElem_append_left (by omega)]
      exact (slot?_set_ne (r := r) hne (some a)).trans (h.slot i (by omega))

theorem Holds.pushFront_full (h : r.Holds l) (full : l.length = r.capacity) (a : α) :
    r.pushFront a = (false, r) := by
  unfold Ring.pushFront
  rw [h.full, if_pos (by simp [full])]

theorem Holds.pushFront (h : r.Holds l) (room : l.length < r.capacity) (a : α) :
    (r.pushFront a).1 = true ∧ (r.pushFront a).2.Holds (a :: l) := by
  have hpush : r.pushFront a = (true, { r with
      slots := r.slots.setIfInBounds (r.prev r.front) (some a)
      front := r.prev r.front, empty := false, full := r.prev r.front == r.rear }) := by
    unfold Ring.pushFront
    rw [h.full, if_neg (by simp; omega)]
  have hcapacity : (r.pushFront a).2.capacity = r.capacity := by
    rw [hpush]
    exact Array.size_setIfInBounds
  have hfront : (r.pushFront a).2.front = r.prev r.front := by rw [hpush]
  have hpos : 0 < r.capacity := Nat.lt_of_le_of_lt (Nat.zero_le _) h.front
  have hlt : r.prev r.front < r.capacity := Nat.mod_lt _ hpos
  have hshift (i : Nat) : (r.prev r.front + (i + 1)) % r.capacity = (r.front + i) % r.capacity :=
    slot_of_prev hpos
  refine ⟨by rw [hpush], ?_, ?_, ?_, ?_, ?_, fun i hi => ?_⟩
  · rw [hcapacity, hfront]
    exact hlt
  · rw [hcapacity, hfront, List.length_cons, hshift, hpush]
    exact h.rear
  · rw [hcapacity, List.length_cons]
    exact room
  · rw [hpush, List.length_cons]
    simp
  · -- the ring is full if the slot before the front is the rear
    rw [hcapacity, hpush, List.length_cons]
    show (r.prev r.front == r.rear) = decide (l.length + 1 = r.capacity)
    rw [h.rear, ← hshift, Bool.eq_iff_iff, beq_iff_eq, decide_eq_true_eq]
    constructor
    · intro heq
      by_cases hfull : l.length + 1 = r.capacity
      · exact hfull
      · exact absurd heq (slot_ne_front hlt (Nat.succ_pos _) (by omega))
    · intro hfull
      rw [hfull, Nat.add_mod_right, Nat.mod_eq_of_lt hlt]
  · rw [hcapacity, hfront, hpush]
    cases i with
    | zero =>
      rw [slot_zero hlt]
      exact slot?_set_self (r := r) hlt (some a)
    | succ i =>
      rw [List.length_cons] at hi
      have hne := slot_ne_front hlt (Nat.succ_pos i) (by omega)
      have hslot := h.slot i (by omega)
      rw [← hshift] at hslot
      exact (slot?_set_ne (r := r) hne (some a)).trans hslot

theorem Holds.popBack_nil (h : r.Holds []) : r.popBack = (none, r) := by
  unfold Ring.popBack
  rw [h.empty]
  rfl

/-- What is taken out is the last element, and those before it stay. -/
theorem Holds.popBack_concat {a : α} (h : r.Holds (l ++ [a])) :
    r.popBack.1 = some a ∧ r.popBack.2.Holds l := by
  have hlength : (l ++ [a]).length = l.length + 1 := by simp
  have hbound := h.bound
  rw [hlength] at hbound
  have hpos : 0 < r.capacity := by omega
  have hlast : r.prev r.rear = (r.front + l.length) % r.capacity := by
    rw [Ring.prev, h.rear, hlength, prev_of_slot hpos]
  have hpop : r.popBack = (r.slot? (r.prev r.rear), { r with
      slots := r.slots.setIfInBounds (r.prev r.rear) none
      rear := r.prev r.rear, full := false, empty := r.front == r.prev r.rear }) := by
    unfold Ring.popBack
    rw [h.empty, if_neg (by simp)]
  have hcapacity : r.popBack.2.capacity = r.capacity := by
    rw [hpop]
    exact Array.size_setIfInBounds
  have hfront : r.popBack.2.front = r.front := by rw [hpop]
  constructor
  · rw [hpop, hlast]
    have hslot := h.slot l.length (by omega)
    rwa [List.getElem_concat_length rfl] at hslot
  · refine ⟨?_, ?_, ?_, ?_, ?_, fun i hi => ?_⟩
    · rw [hcapacity, hfront]
      exact h.front
    · rw [hcapacity, hfront, ← hlast, hpop]
    · rw [hcapacity]
      omega
    · -- the ring is empty if the last slot is the front
      rw [hpop]
      show (r.front == r.prev r.rear) = decide (l.length = 0)
      rw [hlast, Bool.eq_iff_iff, beq_iff_eq, decide_eq_true_eq]
      constructor
      · intro heq
        by_cases hzero : l.length = 0
        · exact hzero
        · exact absurd heq (slot_ne_front h.front (Nat.pos_of_ne_zero hzero) (by omega))
      · intro hzero
        rw [hzero]
        exact (slot_zero h.front).symm
    · rw [hcapacity, hpop]
      show false = decide (l.length = r.capacity)
      simp
      omega
    · rw [hcapacity, hfront, hpop]
      have hne : r.prev r.rear ≠ (r.front + i) % r.capacity := by
        intro heq
        rw [hlast] at heq
        have hpositions := slot_inj h.front (by omega) (by omega) heq
        omega
      have hslot := h.slot i (by omega)
      rw [List.getElem_append_left hi] at hslot
      exact (slot?_set_ne (r := r) hne none).trans hslot

theorem Holds.setFront_nil (h : r.Holds []) (a : α) : r.setFront a = r := by
  unfold Ring.setFront
  rw [h.empty]
  rfl

theorem Holds.setFront_cons {b : α} (h : r.Holds (b :: l)) (a : α) : (r.setFront a).Holds (a :: l) := by
  have hset : r.setFront a = { r with slots := r.slots.setIfInBounds r.front (some a) } := by
    unfold Ring.setFront
    rw [h.empty, if_neg (by simp)]
  have hcapacity : (r.setFront a).capacity = r.capacity := by
    rw [hset]
    exact Array.size_setIfInBounds
  have hfront : (r.setFront a).front = r.front := by rw [hset]
  refine ⟨?_, ?_, ?_, ?_, ?_, fun i hi => ?_⟩
  · rw [hcapacity, hfront]
    exact h.front
  · rw [hcapacity, hfront, hset]
    exact h.rear
  · rw [hcapacity]
    exact h.bound
  · rw [hset]
    exact h.empty
  · rw [hcapacity, hset]
    exact h.full
  · rw [hcapacity, hfront, hset]
    cases i with
    | zero =>
      rw [slot_zero h.front]
      exact slot?_set_self (r := r) h.front (some a)
    | succ i =>
      have hbound := h.bound
      rw [List.length_cons] at hi hbound
      have hne := slot_ne_front h.front (Nat.succ_pos i) (by omega)
      exact (slot?_set_ne (r := r) hne (some a)).trans (h.slot (i + 1) (by simpa using hi))

/-- Elements taken off the front in turn, those that are kept put back at the rear. -/
theorem Holds.rotate (keep : α → Bool) {front rest : List α} (h : r.Holds (front ++ rest)) :
    (Ring.rotate keep front.length r).Holds (rest ++ front.filter keep) := by
  induction front generalizing r rest with
  | nil => simpa [Ring.rotate] using h
  | cons a front ih =>
    rw [List.cons_append] at h
    obtain ⟨hpop, hrest⟩ := h.popFront_cons
    have hbound := h.bound
    have hstep : Ring.rotate keep (a :: front).length r
        = Ring.rotate keep front.length
          (if keep a then (r.popFront.2.pushBack a).2 else r.popFront.2) := by
      rw [List.length_cons, Ring.rotate]
      rcases hr : r.popFront with ⟨taken, r'⟩
      rw [hr] at hpop
      rw [show taken = some a from hpop]
    rw [hstep]
    cases hkeep : keep a with
    | true =>
      have hroom : (front ++ rest).length < r.popFront.2.capacity := by
        rw [popFront_capacity]
        exact hbound
      have hpush := (hrest.pushBack hroom a).2.1
      rw [List.append_assoc] at hpush
      have hend := ih hpush
      rw [List.append_assoc] at hend
      simpa [hkeep] using hend
    | false => simpa [hkeep] using ih hrest

/-- What is kept stays in its order. -/
theorem Holds.retain (h : r.Holds l) (keep : α → Bool) : (r.retain keep).Holds (l.filter keep) := by
  have h' : r.Holds (l ++ []) := by rwa [List.append_nil]
  have hrotate := h'.rotate keep
  rw [List.nil_append] at hrotate
  rw [Ring.retain, h.length]
  exact hrotate

/-! ## Intact rings -/

/-- The ring holds something: its slots and flags agree. -/
def Intact (r : Ring α) : Prop :=
  ∃ l, r.Holds l

theorem Intact.popFront (h : r.Intact) : r.popFront.2.Intact := by
  obtain ⟨l, hl⟩ := h
  cases l with
  | nil => exact ⟨[], by rw [hl.popFront_nil]; exact hl⟩
  | cons a l => exact ⟨l, hl.popFront_cons.2⟩

theorem Intact.pushBack (h : r.Intact) (a : α) : (r.pushBack a).2.Intact := by
  obtain ⟨l, hl⟩ := h
  rcases Nat.lt_or_ge l.length r.capacity with hroom | hfull
  · exact ⟨l ++ [a], (hl.pushBack hroom a).2.1⟩
  · exact ⟨l, by rw [hl.pushBack_full (Nat.le_antisymm hl.bound hfull)]; exact hl⟩

theorem Intact.retain (h : r.Intact) (keep : α → Bool) : (r.retain keep).Intact := by
  obtain ⟨l, hl⟩ := h
  exact ⟨l.filter keep, hl.retain keep⟩

end Playback.Ring
