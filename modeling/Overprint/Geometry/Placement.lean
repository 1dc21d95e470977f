import Overprint.Geometry.Corner

/-!
# Where commands place boxes

Rectangles and pictures are placed by a point, a size and the corner that lies at the point. The size
of a picture follows from its natural one: a width or height that is not asked for keeps the shape.
-/

namespace Overprint.Geometry

open Number Script

variable {α : Type} [Scalar α]

/-- The box of a command with a point, a width and a height as its first operands. -/
def rectangleBox (frame : Frame α) (command : Command) : Outcome (Box α) := do
  let point ← frame.pointAt command 0
  let width ← command.number 2
  let height ← command.number 3
  let corner ← Corner.ofSetting (command.setting? "c")
  return corner.box point width height

/-- The extent that a setting asks for. One that is not positive asks for nothing. -/
def extent? (setting? : Option Operand) : Outcome (Option α) :=
  match setting? with
  | none => .ok none
  | some operand => do
    let value ← operand.number
    return if Scalar.less 0.0 value then some value else none

/-- The size of a picture of the given natural size for the extents that are asked for. -/
def scaledSize (natural : α × α) (width? height? : Option α) : α × α :=
  match width?, height? with
  | some width, some height => (width, height)
  | some width, none => (width, natural.2 * width / natural.1)
  | none, some height => (natural.1 * height / natural.2, height)
  | none, none => natural

/-- The box of a command that places a picture of the given natural size. -/
def pictureBox (frame : Frame α) (natural : α × α) (command : Command) : Outcome (Box α) := do
  let width? ← extent? (command.setting? "w")
  let height? ← extent? (command.setting? "h")
  let (width, height) := scaledSize natural width? height?
  let point ← frame.pointAt command 1
  let corner ← Corner.ofSetting (command.setting? "c")
  return corner.box point width height

end Overprint.Geometry
