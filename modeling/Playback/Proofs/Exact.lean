import Mathlib.Tactic.Linarith
import Mathlib.Tactic.NormNum
import Playback.Exact

/-!
# Exact arithmetic on fractions

Where only finite values occur, the operations of exact arithmetic are those of fractions: one rule for each
operation carries it inside (`finite_add` and its like), so that what remains is linear arithmetic.
-/

namespace Playback

namespace Exact

variable (a b : Rat)

@[simp] theorem finite_add : finite a + finite b = finite (a + b) := rfl

@[simp] theorem finite_neg : -finite a = finite (-a) := rfl

@[simp] theorem finite_sub : finite a - finite b = finite (a - b) :=
  congrArg finite (Rat.sub_eq_add_neg a b).symm

@[simp] theorem finite_mul : finite a * finite b = finite (a * b) := rfl

@[simp] theorem finite_div {b : Rat} (h : b ≠ 0) : finite a / finite b = finite (a / b) :=
  if_neg h

@[simp] theorem finite_lt : finite a < finite b ↔ a < b :=
  decide_eq_true_iff

@[simp] theorem finite_le : finite a ≤ finite b ↔ a ≤ b :=
  decide_eq_true_iff

@[simp] theorem beq_finite : (Scalar.toBEq.beq (finite a) (finite b)) = decide (a = b) := by
  show decide _ = _
  simp

@[simp] theorem ofScientific_eq (mantissa : Nat) (negative : Bool) (exponent : Nat) :
    (OfScientific.ofScientific mantissa negative exponent : Exact)
      = finite (OfScientific.ofScientific mantissa negative exponent) := rfl

@[simp] theorem ofInt_eq (i : Int) : (Scalar.ofInt i : Exact) = finite i := rfl

@[simp] theorem isNaN_finite : Scalar.isNaN (finite a) = false := rfl

@[simp] theorem nan_eq : (Scalar.nan : Exact) = undefined := rfl

@[simp] theorem undefined_add (x : Exact) : undefined + x = undefined := rfl

@[simp] theorem undefined_sub (x : Exact) : undefined - x = undefined := rfl

@[simp] theorem fraction?_finite : Scalar.fraction? (finite a) = some a := rfl

theorem zero_eq : (0.0 : Exact) = finite 0 := by
  norm_num

@[simp] theorem min_finite : Scalar.min (finite a) (finite b) = finite (min a b) := by
  simp only [Scalar.min, isNaN_finite, finite_lt, min_def]
  split <;> split <;> grind

@[simp] theorem max_finite : Scalar.max (finite a) (finite b) = finite (max a b) := by
  simp only [Scalar.max, isNaN_finite, finite_lt, max_def]
  split <;> split <;> grind

@[simp] theorem abs_finite : Scalar.abs (finite a) = finite |a| := by
  rw [Scalar.abs, zero_eq]
  simp only [finite_lt, finite_neg]
  split
  next h => rw [abs_of_neg h]
  next h => rw [abs_of_nonneg (Rat.not_lt.mp h)]

theorem clamp_finite {low high : Rat} (ordered : low ≤ high) (x : Rat) :
    Scalar.clamp (finite x) (finite low) (finite high) = finite (max low (min high x)) := by
  unfold Scalar.clamp
  simp only [finite_lt]
  split
  next h => rw [max_eq_left ((min_le_right ..).trans h.le)]
  next hlow =>
    split
    next h => rw [min_eq_left h.le, max_eq_right ordered]
    next hhigh => rw [min_eq_right (Rat.not_lt.mp hhigh), max_eq_right (Rat.not_lt.mp hlow)]

theorem isNaN_iff {x : Exact} : Scalar.isNaN x = true ↔ x = undefined :=
  decide_eq_true_iff

/-- What is less than a fraction away from zero is a fraction. -/
theorem abs_lt_finite {x : Exact} {bound : Rat} : Scalar.abs x < finite bound ↔ ∃ q, x = finite q ∧ |q| < bound := by
  cases x with
  | finite q => simp
  | undefined | negInf | posInf => exact ⟨nofun, nofun⟩

/-- Of two values that are defined one is at most the other. -/
theorem le_of_not_lt {x y : Exact} (hx : x ≠ undefined) (hy : y ≠ undefined) (h : ¬ x < y) : y ≤ x := by
  cases x with
  | undefined => exact absurd rfl hx
  | finite a => cases y with
    | undefined => exact absurd rfl hy
    | finite b => simpa using h
    | negInf => rfl
    | posInf => exact absurd rfl h
  | negInf => cases y with
    | undefined => exact absurd rfl hy
    | negInf => rfl
    | finite | posInf => exact absurd rfl h
  | posInf => cases y with
    | undefined => exact absurd rfl hy
    | negInf | finite | posInf => rfl

/-- Nanoseconds are exact fractions of seconds. -/
theorem ofNanos_eq (n : Nat) : (Scalar.ofNanos n : Exact) = finite (n / 1000000000) := by
  have hsplit : (n : Rat) = 1000000000 * ((n / 1000000000 : Nat) : Rat) + ((n % 1000000000 : Nat) : Rat) := by
    exact_mod_cast (Nat.div_add_mod n 1000000000).symm
  have hbillion : (1000000000.0 : Exact) = finite 1000000000 := by norm_num
  rw [Scalar.ofNanos, ofInt_eq, ofInt_eq, hbillion, finite_div _ (by norm_num), finite_add, Int.cast_natCast,
    Int.cast_natCast, hsplit, add_div, mul_div_cancel_left₀ _ (by norm_num)]

/-- Adding up fractions. -/
theorem foldr_add {α : Type} {l : List α} {f : α → Exact} {g : α → Rat} (h : ∀ x ∈ l, f x = finite (g x))
    (start : Rat) : l.foldr (fun x sum => sum + f x) (finite start) = finite (start + (l.map g).sum) := by
  induction l with
  | nil => simp
  | cons x l ih =>
    rw [List.foldr_cons, ih fun y hy => h y (List.mem_cons_of_mem _ hy), h x (List.mem_cons_self ..), finite_add,
      List.map_cons, List.sum_cons, add_assoc, add_comm (g x)]

/-- A scalar is finite exactly if it is a fraction. -/
theorem isFinite_iff {x : Exact} : Scalar.isFinite x = true ↔ ∃ q, x = finite q := by
  cases x <;> simp [Scalar.isFinite, Scalar.fraction?, fraction?]

end Exact
end Playback
