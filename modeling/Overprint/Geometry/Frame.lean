import Overprint.Script.Command

/-!
# Coordinates on a page

A coordinate written with a minus sign is measured back from the far edge of the page, the right one
across and the top one up. Written with a sign, zero is that edge itself.
-/

namespace Overprint.Geometry

open Number Script

/-- The size of a page. -/
structure Frame (α : Type) where
  width : α
  height : α

variable {α : Type} [Scalar α]

/-- The place of a coordinate along an axis of the given extent. -/
def resolve (coordinate : Operand) (extent : α) : Outcome α := do
  let value ← coordinate.number
  return if coordinate.isNegative then extent - Scalar.abs value else value

namespace Frame

def across (frame : Frame α) (coordinate : Operand) : Outcome α :=
  resolve coordinate frame.width

def up (frame : Frame α) (coordinate : Operand) : Outcome α :=
  resolve coordinate frame.height

def point (frame : Frame α) (x y : Operand) : Outcome (α × α) := do
  return (← frame.across x, ← frame.up y)

/-- The point that a command gives in two operands from a place on. -/
def pointAt (frame : Frame α) (command : Command) (index : Nat) : Outcome (α × α) := do
  frame.point (← command.operand index) (← command.operand (index + 1))

end Frame

end Overprint.Geometry
