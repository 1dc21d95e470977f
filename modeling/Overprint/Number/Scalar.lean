import Overprint.Number.Numeral
import Overprint.Number.Trigonometry

/-!
# The numbers that drawing needs

Coordinates and shapes are computed over any type with these operations. The program uses them over
`Double`; over exact numbers the same definitions state geometry without rounding.
-/

namespace Overprint.Number

/-- Arithmetic, comparison and the numbers that numerals stand for. Literals are decimal. -/
class Scalar (α : Type) extends Add α, Sub α, Mul α, Div α, Neg α, OfScientific α where
  ofNat : Nat → α
  /-- The number of a numeral, if it has one that is finite. -/
  ofNumeral? : Numeral → Option α
  abs : α → α
  less : α → α → Bool
  equal : α → α → Bool

/-- The functions that arcs need beyond arithmetic. -/
class Trigonometric (α : Type) extends Scalar α where
  pi : α
  sin : α → α
  cos : α → α
  /-- The least whole number not below. -/
  ceilNat : α → Nat

namespace Scalar

variable {α : Type} [Scalar α]

def lessEq (x y : α) : Bool :=
  less x y || equal x y

/-- The number moved to the nearer bound if it lies outside the two. -/
def clamp (x low high : α) : α :=
  let raised := if less x low then low else x
  if less high raised then high else raised

end Scalar

instance {F : Format} : Scalar (Binary F) where
  ofNat := Binary.ofNat
  ofNumeral? numeral :=
    let number : Binary F := .ofNumeral numeral
    if number.isFinite then some number else none
  abs := Binary.abs
  less := Binary.less
  equal := Binary.equal

instance : Trigonometric Double where
  pi := 3.141592653589793238462643383279502884
  sin := Trigonometry.sin
  cos := Trigonometry.cos
  ceilNat := Binary.ceilNat

end Overprint.Number
