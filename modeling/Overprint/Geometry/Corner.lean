import Overprint.Geometry.Frame

/-!
# Corners

A box is placed by one of its corners, the lower left one unless a setting says otherwise.
-/

namespace Overprint.Geometry

open Number Script

/-- A box by its lower left corner and its size. -/
structure Box (α : Type) where
  x : α
  y : α
  width : α
  height : α
deriving DecidableEq

inductive Corner where
  | lowerLeft
  | lowerRight
  | upperLeft
  | upperRight
deriving DecidableEq

namespace Corner

def read (text : String) : Outcome Corner :=
  let word := String.ofList (Text.trim text.toList)
  if word = "ll" then .ok lowerLeft
  else if word = "lr" then .ok lowerRight
  else if word = "ul" then .ok upperLeft
  else if word = "ur" then .ok upperRight
  else .error (.invalidCorner word)

def ofSetting (setting? : Option Operand) : Outcome Corner :=
  match setting? with
  | none => .ok lowerLeft
  | some operand => read operand.text

variable {α : Type} [Scalar α]

/-- The box of the given size, this corner of which lies at a point. -/
def box (corner : Corner) (point : α × α) (width height : α) : Box α :=
  let (x, y) := point
  match corner with
  | lowerLeft => ⟨x, y, width, height⟩
  | lowerRight => ⟨x - width, y, width, height⟩
  | upperLeft => ⟨x, y - height, width, height⟩
  | upperRight => ⟨x - width, y - height, width, height⟩

end Corner

end Overprint.Geometry
