import Overprint.Geometry.Segment
import Overprint.Number.Scalar

/-!
# Outlines

Circles, boxes with round corners, arcs and ellipses, made of straight lines and cubic curves.

An arc is cut into equal fragments of at most a quarter turn. A fragment is one curve, whose control
points lie on the tangents at its ends, so far from them that the middle of the curve lies on the
ellipse.
-/

namespace Overprint.Geometry

open Number

namespace Outline

section Straight

variable {α : Type} [Scalar α]

/-- A circle, in four quarters against the clock from its rightmost point. -/
def circle (x y radius : α) : List (Segment α) :=
  let k := radius * 0.5523
  [.moveTo (x + radius) y,
    .curveTo (x + radius) (y + k) (x + k) (y + radius) x (y + radius),
    .curveTo (x - k) (y + radius) (x - radius) (y + k) (x - radius) y,
    .curveTo (x - radius) (y - k) (x - k) (y - radius) x (y - radius),
    .curveTo (x + k) (y - radius) (x + radius) (y - k) (x + radius) y]

/-- An extent along an axis, turned to start at its lower end. -/
def upright (start extent : α) : α × α :=
  if Scalar.less extent 0.0 then (start + extent, -extent) else (start, extent)

def roundRectangle (x y width height radius : α) : List (Segment α) :=
  let (left, width) := upright x width
  let (bottom, height) := upright y height
  let r := Scalar.abs radius
  let c := r * 0.4477
  let right := left + width
  let top := bottom + height
  [.moveTo (left + r) bottom,
    .lineTo (right - r) bottom,
    .curveTo (right - c) bottom right (bottom + c) right (bottom + r),
    .lineTo right (top - r),
    .curveTo right (top - c) (right - c) top (right - r) top,
    .lineTo (left + r) top,
    .curveTo (left + c) top left (top - c) left (top - r),
    .lineTo left (bottom + r),
    .curveTo left (bottom + c) (left + c) bottom (left + r) bottom]

end Straight

section Curved

variable {α : Type} [Trigonometric α]

def radians (degrees : α) : α :=
  degrees * (Trigonometric.pi / 180.0)

/-- How many degrees a fragment of a sweep turns, and how many fragments there are. -/
def fragments (sweep : α) : α × Nat :=
  if Scalar.lessEq (Scalar.abs sweep) 90.0 then (sweep, 1)
  else
    let count := Trigonometric.ceilNat (Scalar.abs sweep / 90.0)
    (sweep / Scalar.ofNat count, count)

/-- The distance of the control points of a fragment from its ends, for a circle of radius one.
Fragments with the clock bend the other way. -/
def tangentLength (fragment : α) : α :=
  let half := fragment * Trigonometric.pi / 360.0
  let length :=
    Scalar.abs (4.0 / 3.0 * (1.0 - Trigonometric.cos half) / Trigonometric.sin half)
  if Scalar.less 0.0 fragment then length else -length

/-- An ellipse by its centre and its half axes; the vertical one counts downwards. -/
structure Ellipse (α : Type) where
  x : α
  y : α
  across : α
  down : α

/-- The ellipse inscribed in the box of two opposite corners. -/
def inscribed (x₁ y₁ x₂ y₂ : α) : Ellipse α :=
  let (left, right) := if Scalar.less x₂ x₁ then (x₂, x₁) else (x₁, x₂)
  let (top, bottom) := if Scalar.less y₁ y₂ then (y₂, y₁) else (y₁, y₂)
  { x := (left + right) / 2.0
    y := (top + bottom) / 2.0
    across := (right - left) / 2.0
    down := (bottom - top) / 2.0 }

/-- The point of an ellipse, or beside it, whose place on the circle of radius one is given. -/
def Ellipse.point (ellipse : Ellipse α) (c s : α) : α × α :=
  (ellipse.x + ellipse.across * c, ellipse.y - ellipse.down * s)

def Ellipse.pointAt (ellipse : Ellipse α) (degrees : α) : α × α :=
  ellipse.point (Trigonometric.cos (radians degrees)) (Trigonometric.sin (radians degrees))

/-- The curve from one angle to another, with control points so far from its ends. -/
def Ellipse.curve (ellipse : Ellipse α) (k first last : α) : Segment α :=
  let sin₀ := Trigonometric.sin (radians first)
  let cos₀ := Trigonometric.cos (radians first)
  let sin₁ := Trigonometric.sin (radians last)
  let cos₁ := Trigonometric.cos (radians last)
  let (x₁, y₁) := ellipse.point (cos₀ - k * sin₀) (sin₀ + k * cos₀)
  let (x₂, y₂) := ellipse.point (cos₁ + k * sin₁) (sin₁ - k * cos₁)
  let (x₃, y₃) := ellipse.point cos₁ sin₁
  .curveTo x₁ y₁ x₂ y₂ x₃ y₃

/-- The arc of the ellipse inscribed in the box of two opposite corners, from an angle through a
sweep, both in degrees against the clock. A sweep beyond a full turn ends after one. -/
def arc (x₁ y₁ x₂ y₂ start sweep : α) : List (Segment α) :=
  if Scalar.equal sweep 0.0 then []
  else
    let (fragment, count) := fragments (Scalar.clamp sweep (-360.0) 360.0)
    let ellipse := inscribed x₁ y₁ x₂ y₂
    let k := tangentLength fragment
    let angle (i : Nat) : α := start + Scalar.ofNat i * fragment
    if count = 0 then []
    else
      let (x, y) := ellipse.pointAt (angle 0)
      .moveTo x y :: (List.range count).map fun i => ellipse.curve k (angle i) (angle (i + 1))

def ellipse (x₁ y₁ x₂ y₂ : α) : List (Segment α) :=
  arc x₁ y₁ x₂ y₂ 0.0 360.0

end Curved

end Outline

end Overprint.Geometry
