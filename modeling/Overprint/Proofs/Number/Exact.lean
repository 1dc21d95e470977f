import Mathlib.Algebra.Order.Floor.Semiring
import Mathlib.Analysis.SpecialFunctions.Trigonometric.Basic
import Mathlib.Tactic.NormNum.OfScientific
import Overprint.Number.Scalar

/-!
# Exact numbers

The numbers that drawing needs may be those of any ordered field, and what is proved of shapes over
such a field is geometry without rounding. Of sine and cosine three laws are enough: they are odd and
even, and together they stay on the circle of radius one.
-/

namespace Overprint.Number

/-- A circle of radius one, and how far round it goes in a half turn. -/
class Circular (α : Type) [Field α] where
  pi : α
  sin : α → α
  cos : α → α
  sin_neg (angle : α) : sin (-angle) = -sin angle
  cos_neg (angle : α) : cos (-angle) = cos angle
  cos_sq_add_sin_sq (angle : α) : cos angle ^ 2 + sin angle ^ 2 = 1

variable {α : Type} [Field α] [LinearOrder α]

/-- Every decimal numeral is a number, and every literal means what it says. -/
instance (priority := low) exactScalar : Scalar α where
  ofNat n := n
  ofNumeral?
    | .decimal negative digits exponent =>
      some ((if negative then -1 else 1) * digits * 10 ^ exponent)
    | _ => none
  abs x := |x|
  less x y := decide (x < y)
  equal x y := decide (x = y)

instance (priority := low) exactTrigonometric [FloorSemiring α] [Circular α] :
    Trigonometric α where
  pi := Circular.pi
  sin := Circular.sin
  cos := Circular.cos
  ceilNat x := ⌈x⌉₊

noncomputable instance : Circular ℝ where
  pi := Real.pi
  sin := Real.sin
  cos := Real.cos
  sin_neg := Real.sin_neg
  cos_neg := Real.cos_neg
  cos_sq_add_sin_sq := Real.cos_sq_add_sin_sq

namespace Scalar

theorem less_iff {x y : α} : less x y = true ↔ x < y :=
  decide_eq_true_iff

theorem equal_iff {x y : α} : equal x y = true ↔ x = y :=
  decide_eq_true_iff

theorem lessEq_iff {x y : α} : lessEq x y = true ↔ x ≤ y := by
  rw [lessEq, Bool.or_eq_true, less_iff, equal_iff, le_iff_lt_or_eq]

theorem clamp_eq (x low high : α) : clamp x low high = min (max x low) high := by
  have hraised : (if less x low then low else x) = max x low := by
    simp only [less_iff]
    split
    next hlow => exact (max_eq_right hlow.le).symm
    next hlow => exact (max_eq_left (not_lt.1 hlow)).symm
  rw [clamp, hraised]
  simp only [less_iff]
  split
  next hhigh => exact (min_eq_right hhigh.le).symm
  next hhigh => exact (min_eq_left (not_lt.1 hhigh)).symm

end Scalar

end Overprint.Number
