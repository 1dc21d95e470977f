/-!
# Steps of a path
-/

namespace Overprint.Geometry

/-- One step of a path. A curve has two control points, of which the first may be the point where it
starts and the second the point where it ends. -/
inductive Segment (α : Type) where
  | moveTo (x y : α)
  | lineTo (x y : α)
  | curveTo (x₁ y₁ x₂ y₂ x₃ y₃ : α)
  | curveFromStart (x₂ y₂ x₃ y₃ : α)
  | curveToEnd (x₁ y₁ x₃ y₃ : α)
  | rectangle (x y width height : α)
  | close
deriving DecidableEq

end Overprint.Geometry
