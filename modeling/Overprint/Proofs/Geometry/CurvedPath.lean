import Mathlib.Algebra.Group.Prod
import Mathlib.Data.List.Range
import Overprint.Geometry.Segment

/-!
# Paths made of curves

A path that consists of curves runs from point to point, leaving each towards one control point and
arriving at the next from another. Backwards it runs through the same points, and the control points
are exchanged.
-/

namespace Overprint.Geometry

variable {α : Type}

/-- A curve by its control points and the point where it ends. -/
structure Curve (α : Type) where
  first : α × α
  second : α × α
  last : α × α

def Curve.segment (curve : Curve α) : Segment α :=
  .curveTo curve.first.1 curve.first.2 curve.second.1 curve.second.2 curve.last.1 curve.last.2

structure CurvedPath (α : Type) where
  start : α × α
  curves : List (Curve α)

namespace CurvedPath

def segments (path : CurvedPath α) : List (Segment α) :=
  .moveTo path.start.1 path.start.2 :: path.curves.map Curve.segment

def points (path : CurvedPath α) : List (α × α) :=
  path.start :: path.curves.map Curve.last

def backwardsFrom (start : α × α) : List (Curve α) → CurvedPath α
  | [] => ⟨start, []⟩
  | curve :: rest =>
    let back := backwardsFrom curve.last rest
    ⟨back.start, back.curves ++ [⟨curve.second, curve.first, start⟩]⟩

def backwards (path : CurvedPath α) : CurvedPath α :=
  backwardsFrom path.start path.curves

/-- Where two curves meet, the control points are opposite each other and equally far away. -/
def IsSmooth [AddMonoid α] (path : CurvedPath α) : Prop :=
  path.curves.IsChain fun curve next => curve.second + next.first = 2 • curve.last

/-- The path through `count` curves whose points are numbered, with the control points on either side
of each. -/
def through (count : Nat) (point ahead behind : Nat → α × α) : CurvedPath α where
  start := point 0
  curves := (List.range count).map fun i => ⟨ahead i, behind (i + 1), point (i + 1)⟩

section Through

variable (count : Nat) (point ahead behind : Nat → α × α)

theorem length_through : (through count point ahead behind).curves.length = count := by
  rw [through, List.length_map, List.length_range]

theorem getElem?_points_through {i : Nat} (hle : i ≤ count) :
    (through count point ahead behind).points[i]? = some (point i) := by
  cases i with
  | zero => rfl
  | succ i =>
    rw [points, List.getElem?_cons_succ, through, List.map_map, List.getElem?_map,
      List.getElem?_range hle]
    rfl

theorem through_succ : through (count + 1) point ahead behind =
    ⟨point 0, ⟨ahead 0, behind 1, point 1⟩ ::
      (through count (fun i => point (i + 1)) (fun i => ahead (i + 1))
        fun i => behind (i + 1)).curves⟩ := by
  rw [through, List.range_succ_eq_map, List.map_cons, List.map_map]
  rfl

theorem through_succ' : through (count + 1) point ahead behind =
    ⟨point 0, (through count point ahead behind).curves ++
      [⟨ahead count, behind (count + 1), point (count + 1)⟩]⟩ := by
  rw [through, List.range_succ, List.map_append]
  rfl

theorem backwards_through {point' ahead' behind' : Nat → α × α}
    (hpoint : ∀ i j, i + j = count → point' j = point i)
    (hahead : ∀ i j, i + j = count → ahead' j = behind i)
    (hbehind : ∀ i j, i + j = count → behind' j = ahead i) :
    (through count point ahead behind).backwards = through count point' ahead' behind' := by
  induction count generalizing point ahead behind with
  | zero =>
    rw [through, through, hpoint 0 0 rfl]
    rfl
  | succ count ih =>
    have hrest : backwardsFrom (point 1) (through count (fun i => point (i + 1))
        (fun i => ahead (i + 1)) fun i => behind (i + 1)).curves =
          through count point' ahead' behind' :=
      ih (fun i => point (i + 1)) (fun i => ahead (i + 1)) (fun i => behind (i + 1))
        (fun i j hsum => hpoint (i + 1) j (by omega))
        (fun i j hsum => hahead (i + 1) j (by omega))
        fun i j hsum => hbehind (i + 1) j (by omega)
    rw [through_succ, through_succ', backwards, backwardsFrom, hrest,
      hpoint 0 (count + 1) (Nat.zero_add _), hahead 1 count (Nat.add_comm _ _),
      hbehind 0 (count + 1) (Nat.zero_add _)]
    rfl

theorem isSmooth_through [AddMonoid α] (hpoint : ∀ i, behind i + ahead i = 2 • point i) :
    (through count point ahead behind).IsSmooth := by
  rw [IsSmooth, through, List.isChain_map]
  cases count with
  | zero => exact .nil
  | succ n => exact (List.isChain_range_succ _ n).2 fun i _ => hpoint (i + 1)

end Through

end CurvedPath

end Overprint.Geometry
