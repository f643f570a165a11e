import Playback.Proofs.Ring

/-!
# A ring is a list of bounded length

`RingOp` names the operations of a ring as data, and `RingOp.onList` says what each of them is for a list that
may not be longer than a bound: to put an element before or behind the others unless the bound is reached, to
take one off at either end, to replace the first one, to filter, to empty. The main statement,
`ring_refines_list`, is that a ring cannot be told from such a list, whatever was done to it.

`Holds.apply` is the step of the simulation; the flags and the places of the elements in their slots are not
looked at any more.
-/

namespace Playback

variable {α : Type}

/-- An operation of a ring. -/
inductive RingOp (α : Type) where
  | pushFront (a : α)
  | pushBack (a : α)
  | popFront
  | popBack
  | dropFront
  | dropBack
  /-- A write to the first element. -/
  | setFront (a : α)
  | retain (keep : α → Bool)
  | clear

/-- What an operation returns. -/
inductive RingAnswer (α : Type) where
  | none
  | done (yes : Bool)
  | element (a : Option α)
deriving DecidableEq

/-- The effect of an operation. A write tells which element it replaces. -/
def Ring.apply (r : Ring α) : RingOp α → RingAnswer α × Ring α
  | .pushFront a => let (yes, r) := r.pushFront a; (.done yes, r)
  | .pushBack a => let (yes, r) := r.pushBack a; (.done yes, r)
  | .popFront => let (a, r) := r.popFront; (.element a, r)
  | .popBack => let (a, r) := r.popBack; (.element a, r)
  | .dropFront => let (yes, r) := r.dropFront; (.done yes, r)
  | .dropBack => let (yes, r) := r.dropBack; (.done yes, r)
  | .setFront a => (.element r.front?, r.setFront a)
  | .retain keep => (.none, r.retain keep)
  | .clear => (.none, r.clear)

/-- The effect of an operation on a list that may not be longer than a bound. -/
def RingOp.onList (bound : Nat) (l : List α) : RingOp α → RingAnswer α × List α
  | .pushFront a => if l.length = bound then (.done false, l) else (.done true, a :: l)
  | .pushBack a => if l.length = bound then (.done false, l) else (.done true, l ++ [a])
  | .popFront => (.element l.head?, l.tail)
  | .popBack => (.element l.getLast?, l.dropLast)
  | .dropFront => (.done !l.isEmpty, l.tail)
  | .dropBack => (.done !l.isEmpty, l.dropLast)
  | .setFront a => (.element l.head?, l.set 0 a)
  | .retain keep => (.none, l.filter keep)
  | .clear => (.none, [])

/-! ## One operation -/

namespace Ring

variable {r : Ring α} {l : List α}

theorem pushBack_capacity (r : Ring α) (a : α) : (r.pushBack a).2.capacity = r.capacity := by
  unfold pushBack
  split
  next => rfl
  next => exact Array.size_setIfInBounds

theorem rotate_capacity (keep : α → Bool) (count : Nat) (r : Ring α) :
    (rotate keep count r).capacity = r.capacity := by
  induction count generalizing r with
  | zero => rfl
  | succ count ih =>
    have hpop := r.popFront_capacity
    unfold rotate
    split
    next heq =>
      rw [heq] at hpop
      exact (ih _).trans hpop
    next heq =>
      rw [heq] at hpop
      rw [ih]
      split
      next => exact (pushBack_capacity _ _).trans hpop
      next => exact hpop

/-- No operation changes the capacity. -/
theorem apply_capacity (pos : 0 < r.capacity) (op : RingOp α) : (r.apply op).2.capacity = r.capacity := by
  cases op with
  | pushFront a =>
    show (r.pushFront a).2.capacity = _
    unfold pushFront
    split
    next => rfl
    next => exact Array.size_setIfInBounds
  | pushBack a => exact r.pushBack_capacity a
  | popFront | dropFront => exact r.popFront_capacity
  | popBack | dropBack =>
    show r.popBack.2.capacity = _
    unfold popBack
    split
    next => rfl
    next => exact Array.size_setIfInBounds
  | setFront a =>
    show (r.setFront a).capacity = _
    unfold setFront
    split
    next => rfl
    next => exact Array.size_setIfInBounds
  | retain keep => exact rotate_capacity keep r.length r
  | clear => exact Array.size_replicate.trans (Nat.max_eq_left pos)

/-- A ring that holds a list does what the list does. -/
theorem Holds.apply (h : r.Holds l) (op : RingOp α) :
    (r.apply op).1 = (op.onList r.capacity l).1 ∧ (r.apply op).2.Holds (op.onList r.capacity l).2 := by
  -- an end of the list is looked at, or there is none
  have hpopFront : r.popFront.1 = l.head? ∧ r.popFront.2.Holds l.tail := by
    cases l with
    | nil => rw [h.popFront_nil]; exact ⟨rfl, h⟩
    | cons a l => exact h.popFront_cons
  have hpopBack : r.popBack.1 = l.getLast? ∧ r.popBack.2.Holds l.dropLast := by
    rcases List.eq_nil_or_concat l with rfl | ⟨l, a, rfl⟩
    · rw [h.popBack_nil]
      exact ⟨rfl, h⟩
    · rw [List.concat_eq_append] at h ⊢
      rw [List.getLast?_concat, List.dropLast_concat]
      exact h.popBack_concat
  cases op with
  | pushFront a =>
    show RingAnswer.done (r.pushFront a).1 = _ ∧ (r.pushFront a).2.Holds _
    rw [RingOp.onList]
    split
    next hfull =>
      rw [h.pushFront_full hfull]
      exact ⟨rfl, h⟩
    next hroom =>
      obtain ⟨hyes, hpush⟩ := h.pushFront (Nat.lt_of_le_of_ne h.bound hroom) a
      exact ⟨congrArg _ hyes, hpush⟩
  | pushBack a =>
    show RingAnswer.done (r.pushBack a).1 = _ ∧ (r.pushBack a).2.Holds _
    rw [RingOp.onList]
    split
    next hfull =>
      rw [h.pushBack_full hfull]
      exact ⟨rfl, h⟩
    next hroom =>
      obtain ⟨hyes, hpush, -⟩ := h.pushBack (Nat.lt_of_le_of_ne h.bound hroom) a
      exact ⟨congrArg _ hyes, hpush⟩
  | popFront => exact ⟨congrArg _ hpopFront.1, hpopFront.2⟩
  | popBack => exact ⟨congrArg _ hpopBack.1, hpopBack.2⟩
  | dropFront =>
    refine ⟨?_, hpopFront.2⟩
    show RingAnswer.done r.popFront.1.isSome = .done !l.isEmpty
    rw [hpopFront.1]
    cases l <;> rfl
  | dropBack =>
    refine ⟨?_, hpopBack.2⟩
    show RingAnswer.done r.popBack.1.isSome = .done !l.isEmpty
    rw [hpopBack.1]
    cases l <;> simp
  | setFront a =>
    refine ⟨congrArg _ h.front?, ?_⟩
    cases l with
    | nil =>
      show (r.setFront a).Holds []
      rw [h.setFront_nil]
      exact h
    | cons b l => exact h.setFront_cons a
  | retain keep => exact ⟨rfl, h.retain keep⟩
  | clear => exact ⟨rfl, r.clear_holds⟩

end Ring

/-! ## Histories -/

/-- The answers to some operations, one after the other, and the state in the end. -/
def transcript {σ ι ο : Type} (step : σ → ι → ο × σ) : σ → List ι → List ο × σ
  | s, [] => ([], s)
  | s, i :: is =>
    let (o, s) := step s i
    let (os, s) := transcript step s is
    (o :: os, s)

/-- Machines that give the same answers step by step, give the same answers. -/
theorem transcript_simulates {σ σ' ι ο : Type} {step : σ → ι → ο × σ} {step' : σ' → ι → ο × σ'}
    {rel : σ → σ' → Prop}
    (steps : ∀ s s' i, rel s s' → (step s i).1 = (step' s' i).1 ∧ rel (step s i).2 (step' s' i).2)
    {s : σ} {s' : σ'} (start : rel s s') (is : List ι) :
    (transcript step s is).1 = (transcript step' s' is).1 ∧
      rel (transcript step s is).2 (transcript step' s' is).2 := by
  induction is generalizing s s' with
  | nil => exact ⟨rfl, start⟩
  | cons i is ih =>
    obtain ⟨hanswer, hnext⟩ := steps s s' i start
    obtain ⟨hanswers, hend⟩ := ih hnext
    refine ⟨?_, hend⟩
    show (step s i).1 :: _ = (step' s' i).1 :: _
    rw [hanswer, hanswers]

/-- **A ring is a list of bounded length.** Whatever operations a new ring went through, their answers are
those of a list that is never longer than the capacity, where a capacity of zero counts as one; and its length,
its flags, its ends and its elements at every position are those of the list. -/
theorem ring_refines_list (capacity : Nat) (ops : List (RingOp α)) :
    let bound := max capacity 1
    let ring := transcript Ring.apply (.new capacity) ops
    let list := transcript (RingOp.onList bound) [] ops
    ring.1 = list.1 ∧
    list.2.length ≤ bound ∧
    ring.2.capacity = bound ∧
    ring.2.length = list.2.length ∧
    ring.2.isEmpty = list.2.isEmpty ∧
    ring.2.isFull = decide (list.2.length = bound) ∧
    ring.2.front? = list.2.head? ∧
    ring.2.rear? = list.2.getLast? ∧
    (∀ i, ring.2.get? i = list.2[i]?) := by
  intro bound ring list
  have hpos : 0 < bound := Nat.lt_of_lt_of_le Nat.zero_lt_one (Nat.le_max_right ..)
  have hsteps (r : Ring α) (l : List α) (op : RingOp α) (h : r.Holds l ∧ r.capacity = bound) :
      (r.apply op).1 = (op.onList bound l).1 ∧
        ((r.apply op).2.Holds (op.onList bound l).2 ∧ (r.apply op).2.capacity = bound) := by
    obtain ⟨hholds, hcapacity⟩ := h
    obtain ⟨hanswer, hnext⟩ := hholds.apply op
    rw [hcapacity] at hanswer hnext
    exact ⟨hanswer, hnext, (Ring.apply_capacity (hcapacity ▸ hpos) op).trans hcapacity⟩
  have hnew : (Ring.new capacity : Ring α).Holds [] ∧ (Ring.new capacity : Ring α).capacity = bound :=
    ⟨Ring.new_holds capacity, Array.size_replicate⟩
  obtain ⟨hanswers, hholds, hcapacity⟩ := transcript_simulates hsteps hnew ops
  have hfull := hholds.full
  rw [hcapacity] at hfull
  exact ⟨hanswers, hcapacity ▸ hholds.bound, hcapacity, hholds.length, hholds.isEmpty, hfull, hholds.front?,
    hholds.rear?, hholds.get?⟩

/-- A full ring whose elements wrap around, filtered. -/
example :
    let ops : List (RingOp Nat) := [.pushBack 0, .pushBack 1, .pushBack 2, .pushBack 3, .popFront, .pushBack 4,
      .pushFront 5, .retain (· % 2 = 0), .dropBack]
    let ring := transcript Ring.apply (.new 4) ops
    ring.1 = [.done true, .done true, .done true, .done true, .element (some 0), .done true, .done false, .none,
      .done true] ∧ ring.2.toList = [2] := by
  decide

end Playback
