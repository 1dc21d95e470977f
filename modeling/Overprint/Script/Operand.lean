import Overprint.Color.Rgb

/-!
# Operands

An operand is kept as it was written and read as a number, a whole number or a colour where it is
used. The text matters beyond its value: a minus sign in front of a coordinate means that it is
measured from the far edge of the page, and `-0` is that edge.
-/

namespace Overprint.Script

open Number

structure Operand where
  text : String
deriving DecidableEq

namespace Operand

def isNegative (operand : Operand) : Bool :=
  (Text.trimStart operand.text.toList).head? = some '-'

/-- The finite number that the operand spells, blanks around it ignored. -/
def number? (α : Type) [Scalar α] (operand : Operand) : Option α :=
  (Numeral.read? (Text.trim operand.text.toList)).bind Scalar.ofNumeral?

def number {α : Type} [Scalar α] (operand : Operand) : Outcome α :=
  match operand.number? α with
  | some value => .ok value
  | none => .error (.invalidNumber operand.text)

def single (operand : Operand) : Outcome Single :=
  (·.convert) <$> (operand.number : Outcome Double)

/-- The whole number that the operand spells, if it fits in sixty-four bits. -/
def integer? (operand : Operand) : Option Int := do
  let value ← Numeral.integer? (Text.trim operand.text.toList)
  if -0x8000000000000000 ≤ value ∧ value < 0x8000000000000000 then some value else none

def integer (operand : Operand) : Outcome Int :=
  match operand.integer? with
  | some value => .ok value
  | none => .error (.invalidInteger operand.text)

def color (operand : Operand) : Outcome Color.Rgb :=
  Color.Rgb.read operand.text

end Operand

end Overprint.Script
