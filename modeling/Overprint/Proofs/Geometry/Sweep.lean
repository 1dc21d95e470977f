import Mathlib.Algebra.Order.Field.Basic
import Mathlib.Tactic.Linarith
import Mathlib.Tactic.LinearCombination
import Overprint.Geometry.Outline
import Overprint.Proofs.Geometry.CurvedPath
import Overprint.Proofs.Number.Exact

/-!
# The geometry of arcs

Over exact numbers an arc is a smooth path of one to four curves, whose ends lie on the ellipse
inscribed in the box, at equal angles from one another. It does not depend on which opposite corners
of the box are given, and swept the other way from its end it is the same path backwards.
-/

namespace Overprint.Geometry.Outline

open Number

variable {α : Type} [Field α] [LinearOrder α] [FloorSemiring α] [Circular α]

section Parts

theorem radians_eq (degrees : α) : radians degrees = degrees * Circular.pi / 180 := by
  have hturn : (180.0 : α) = 180 := by norm_num
  show degrees * (Circular.pi / 180.0) = _
  rw [hturn, mul_div_assoc]

def fragmentCount (sweep : α) : Nat :=
  if |sweep| ≤ 90 then 1 else ⌈|sweep| / 90⌉₊

theorem fragments_eq (sweep : α) :
    fragments sweep = (sweep / fragmentCount sweep, fragmentCount sweep) := by
  have hninety : (90.0 : α) = 90 := by norm_num
  show (if Scalar.lessEq |sweep| 90.0 then (sweep, 1)
    else (sweep / (⌈|sweep| / 90.0⌉₊ : α), ⌈|sweep| / 90.0⌉₊)) = _
  rw [hninety, fragmentCount]
  simp only [Scalar.lessEq_iff]
  split
  · rw [Nat.cast_one, div_one]
  · rfl

theorem fragmentCount_neg (sweep : α) : fragmentCount (-sweep) = fragmentCount sweep := by
  rw [fragmentCount, fragmentCount, abs_neg]

end Parts

section Path

/-- The control point before or beyond the point of an ellipse at an angle, on the tangent there. -/
def Ellipse.handle (ellipse : Ellipse α) (k degrees : α) : α × α :=
  let s := Circular.sin (radians degrees)
  let c := Circular.cos (radians degrees)
  ellipse.point (c - k * s) (s + k * c)

theorem Ellipse.curve_eq (ellipse : Ellipse α) (k first last : α) :
    ellipse.curve k first last = (Curve.mk (ellipse.handle k first) (ellipse.handle (-k) last)
      (ellipse.pointAt last)).segment := by
  simp only [handle, neg_mul, sub_neg_eq_add, ← sub_eq_add_neg]
  rfl

theorem Ellipse.handle_add_handle (ellipse : Ellipse α) (k degrees : α) :
    ellipse.handle (-k) degrees + ellipse.handle k degrees = 2 • ellipse.pointAt degrees := by
  obtain ⟨x, y, across, down⟩ := ellipse
  let s := Circular.sin (radians degrees)
  let c := Circular.cos (radians degrees)
  rw [two_nsmul]
  refine Prod.ext ?_ ?_
  · show x + across * (c - -k * s) + (x + across * (c - k * s)) =
      x + across * c + (x + across * c)
    ring
  · show y - down * (s + -k * c) + (y - down * (s + k * c)) = y - down * s + (y - down * s)
    ring

def Ellipse.path (ellipse : Ellipse α) (k start fragment : α) (count : Nat) : CurvedPath α :=
  .through count (fun i => ellipse.pointAt (start + i * fragment))
    (fun i => ellipse.handle k (start + i * fragment))
    fun i => ellipse.handle (-k) (start + i * fragment)

theorem Ellipse.backwards_path (ellipse : Ellipse α) (k start fragment : α) (count : Nat) :
    (ellipse.path k start fragment count).backwards =
      ellipse.path (-k) (start + count * fragment) (-fragment) count := by
  have hangle {i j : Nat} (hsum : i + j = count) :
      start + count * fragment + j * -fragment = start + i * fragment := by
    rw [← hsum, Nat.cast_add]
    ring
  refine CurvedPath.backwards_through _ _ _ _ (fun i j hsum => ?_) (fun i j hsum => ?_)
    fun i j hsum => ?_
  · rw [hangle hsum]
  · rw [hangle hsum]
  · rw [hangle hsum, neg_neg]

theorem arc_congr {x₁ y₁ x₂ y₂ x₁' y₁' x₂' y₂' : α} (start sweep : α)
    (hinscribed : inscribed x₁ y₁ x₂ y₂ = inscribed x₁' y₁' x₂' y₂') :
    arc x₁ y₁ x₂ y₂ start sweep = arc x₁' y₁' x₂' y₂' start sweep := by
  rw [arc, arc, hinscribed]

end Path

variable [IsStrictOrderedRing α]

section Parts

theorem inscribed_eq (x₁ y₁ x₂ y₂ : α) : inscribed x₁ y₁ x₂ y₂ =
    ⟨(x₁ + x₂) / 2, (y₁ + y₂) / 2, |x₂ - x₁| / 2, -(|y₂ - y₁| / 2)⟩ := by
  have htwo : (2.0 : α) = 2 := by norm_num
  have hacross : (if Scalar.less x₂ x₁ then (x₂, x₁) else (x₁, x₂)) = (min x₁ x₂, max x₁ x₂) := by
    simp only [Scalar.less_iff]
    split
    next hlt => rw [min_eq_right hlt.le, max_eq_left hlt.le]
    next hle => rw [min_eq_left (not_lt.1 hle), max_eq_right (not_lt.1 hle)]
  have hdown : (if Scalar.less y₁ y₂ then (y₂, y₁) else (y₁, y₂)) = (max y₁ y₂, min y₁ y₂) := by
    simp only [Scalar.less_iff]
    split
    next hlt => rw [max_eq_right hlt.le, min_eq_left hlt.le]
    next hle => rw [max_eq_left (not_lt.1 hle), min_eq_right (not_lt.1 hle)]
  rw [inscribed, hacross, hdown]
  show Ellipse.mk ((min x₁ x₂ + max x₁ x₂) / 2.0) ((max y₁ y₂ + min y₁ y₂) / 2.0)
    ((max x₁ x₂ - min x₁ x₂) / 2.0) ((min y₁ y₂ - max y₁ y₂) / 2.0) = _
  rw [htwo, min_add_max, add_comm (max y₁ y₂), min_add_max, max_sub_min_eq_abs,
    ← neg_sub (max y₁ y₂), max_sub_min_eq_abs, neg_div]

theorem one_le_fragmentCount (sweep : α) : 1 ≤ fragmentCount sweep := by
  rw [fragmentCount]
  split
  · exact le_refl 1
  next hgreat =>
    rw [Nat.one_le_ceil_iff]
    exact div_pos (by linarith) (by norm_num)

theorem fragmentCount_le {sweep : α} (hle : |sweep| ≤ 360) : fragmentCount sweep ≤ 4 := by
  rw [fragmentCount]
  split
  · decide
  · refine Nat.ceil_le.2 ((div_le_iff₀ (by norm_num)).2 ?_)
    norm_num
    exact hle

theorem abs_div_fragmentCount_le (sweep : α) : |sweep| / fragmentCount sweep ≤ 90 := by
  have hpos : (0 : α) < fragmentCount sweep := Nat.cast_pos.2 (one_le_fragmentCount sweep)
  rw [div_le_iff₀ hpos, fragmentCount]
  split
  next hsmall => rwa [Nat.cast_one, mul_one]
  next =>
    have hceil := Nat.le_ceil (|sweep| / 90)
    rwa [div_le_iff₀ (by norm_num), mul_comm] at hceil

theorem tangentLength_neg {fragment : α} (hne : fragment ≠ 0) :
    tangentLength (-fragment) = -tangentLength fragment := by
  have hzero : (0.0 : α) = 0 := by norm_num
  let length (half : α) : α := |4.0 / 3.0 * (1.0 - Circular.cos half) / Circular.sin half|
  have hlength (half : α) : length (-half) = length half := by
    simp only [length]
    rw [Circular.cos_neg, Circular.sin_neg, div_neg, abs_neg]
  have hsigned (fragment : α) : tangentLength fragment =
      if Scalar.less 0.0 fragment then length (fragment * Circular.pi / 360.0)
      else -length (fragment * Circular.pi / 360.0) := rfl
  rw [hsigned, hsigned, neg_mul, neg_div, hlength, hzero]
  simp only [Scalar.less_iff]
  rcases lt_or_gt_of_ne hne with hneg | hpos
  · rw [if_pos (neg_pos.2 hneg), if_neg (not_lt.2 hneg.le), neg_neg]
  · rw [if_neg (not_lt.2 (neg_nonpos.2 hpos.le)), if_pos hpos]

end Parts

section Path

theorem clamp_turn (sweep : α) :
    Scalar.clamp sweep (-360.0) 360.0 = max (-360) (min sweep 360) := by
  have hturn : (360.0 : α) = 360 := by norm_num
  have hends : min (-360 : α) 360 = -360 := by norm_num
  rw [Scalar.clamp_eq, hturn, min_max_distrib_right, hends, max_comm]

theorem clamp_eq_self {sweep : α} (hle : |sweep| ≤ 360) :
    Scalar.clamp sweep (-360.0) 360.0 = sweep := by
  obtain ⟨hlow, hhigh⟩ := abs_le.1 hle
  rw [clamp_turn, min_eq_left hhigh, max_eq_right hlow]

theorem arc_eq (x₁ y₁ x₂ y₂ start : α) {sweep : α} (hne : sweep ≠ 0) (hle : |sweep| ≤ 360) :
    arc x₁ y₁ x₂ y₂ start sweep =
      ((inscribed x₁ y₁ x₂ y₂).path (tangentLength (sweep / fragmentCount sweep)) start
        (sweep / fragmentCount sweep) (fragmentCount sweep)).segments := by
  have hzero : (0.0 : α) = 0 := by norm_num
  have hsome : ¬ Scalar.equal sweep 0.0 = true := by
    rw [Scalar.equal_iff, hzero]
    exact hne
  have hcount : ¬ fragmentCount sweep = 0 := Nat.one_le_iff_ne_zero.1 (one_le_fragmentCount sweep)
  rw [arc, if_neg hsome, clamp_eq_self hle, fragments_eq]
  simp only [if_neg hcount, Ellipse.curve_eq]
  rw [Ellipse.path, CurvedPath.segments, CurvedPath.through, List.map_map]
  rfl

/-- Swept the other way from its end, an arc is the same path backwards. -/
theorem arc_backwards (x₁ y₁ x₂ y₂ start : α) {sweep : α} (hne : sweep ≠ 0)
    (hle : |sweep| ≤ 360) :
    arc x₁ y₁ x₂ y₂ (start + sweep) (-sweep) =
      ((inscribed x₁ y₁ x₂ y₂).path (tangentLength (sweep / fragmentCount sweep)) start
        (sweep / fragmentCount sweep) (fragmentCount sweep)).backwards.segments := by
  have hcount : (fragmentCount sweep : α) ≠ 0 :=
    Nat.cast_ne_zero.2 (Nat.one_le_iff_ne_zero.1 (one_le_fragmentCount sweep))
  rw [arc_eq x₁ y₁ x₂ y₂ _ (neg_ne_zero.2 hne) (by rwa [abs_neg]), fragmentCount_neg, neg_div,
    tangentLength_neg (div_ne_zero hne hcount), Ellipse.backwards_path,
    mul_div_cancel₀ sweep hcount]

end Path

/-- The point of the ellipse inscribed in a box at an angle in degrees, against the clock from the
rightmost point. -/
def inscribedPoint (x₁ y₁ x₂ y₂ degrees : α) : α × α :=
  ((x₁ + x₂) / 2 + |x₂ - x₁| / 2 * Circular.cos (degrees * Circular.pi / 180),
    (y₁ + y₂) / 2 + |y₂ - y₁| / 2 * Circular.sin (degrees * Circular.pi / 180))

/-- The point is on the ellipse inscribed in a box, by its equation. -/
def OnInscribed (x₁ y₁ x₂ y₂ : α) (point : α × α) : Prop :=
  ((point.1 - (x₁ + x₂) / 2) * |y₂ - y₁|) ^ 2 + ((point.2 - (y₁ + y₂) / 2) * |x₂ - x₁|) ^ 2 =
    (|x₂ - x₁| * |y₂ - y₁| / 2) ^ 2

theorem inscribedPoint_onInscribed (x₁ y₁ x₂ y₂ degrees : α) :
    OnInscribed x₁ y₁ x₂ y₂ (inscribedPoint x₁ y₁ x₂ y₂ degrees) := by
  have hcircle := Circular.cos_sq_add_sin_sq (degrees * Circular.pi / 180)
  simp only [OnInscribed, inscribedPoint]
  linear_combination (|x₂ - x₁| * |y₂ - y₁| / 2) ^ 2 * hcircle

theorem pointAt_inscribed (x₁ y₁ x₂ y₂ degrees : α) :
    (inscribed x₁ y₁ x₂ y₂).pointAt degrees = inscribedPoint x₁ y₁ x₂ y₂ degrees := by
  rw [inscribed_eq, Ellipse.pointAt, radians_eq, inscribedPoint]
  refine Prod.ext rfl ?_
  show (y₁ + y₂) / 2 - -(|y₂ - y₁| / 2) * Circular.sin (degrees * Circular.pi / 180) = _
  rw [neg_mul, sub_neg_eq_add]

/-- A path along the ellipse inscribed in a box, in equal fragments of at most a quarter turn. -/
structure Follows (x₁ y₁ x₂ y₂ start sweep : α) (path : CurvedPath α) : Prop where
  one_le : 1 ≤ path.curves.length
  le_four : path.curves.length ≤ 4
  fragment_le : |sweep| / path.curves.length ≤ 90
  points : ∀ i ≤ path.curves.length, ∃ point, path.points[i]? = some point ∧
    point = inscribedPoint x₁ y₁ x₂ y₂ (start + i * sweep / path.curves.length) ∧
    OnInscribed x₁ y₁ x₂ y₂ point
  smooth : path.IsSmooth

theorem follows_path (x₁ y₁ x₂ y₂ start : α) {sweep : α} (hle : |sweep| ≤ 360) (k : α) :
    Follows x₁ y₁ x₂ y₂ start sweep ((inscribed x₁ y₁ x₂ y₂).path k start
      (sweep / fragmentCount sweep) (fragmentCount sweep)) := by
  have hlength : ((inscribed x₁ y₁ x₂ y₂).path k start (sweep / fragmentCount sweep)
      (fragmentCount sweep)).curves.length = fragmentCount sweep :=
    CurvedPath.length_through _ _ _ _
  refine ⟨?_, ?_, ?_, fun i hi => ?_, ?_⟩
  · rw [hlength]
    exact one_le_fragmentCount sweep
  · rw [hlength]
    exact fragmentCount_le hle
  · rw [hlength]
    exact abs_div_fragmentCount_le sweep
  · rw [hlength] at hi ⊢
    refine ⟨_, CurvedPath.getElem?_points_through _ _ _ _ hi, ?_, ?_⟩
    · rw [pointAt_inscribed, mul_div_assoc]
    · rw [pointAt_inscribed]
      exact inscribedPoint_onInscribed ..
  · exact CurvedPath.isSmooth_through _ _ _ _ fun i => Ellipse.handle_add_handle ..

section Corners

theorem inscribed_swap_across (x₁ y₁ x₂ y₂ : α) :
    inscribed x₂ y₁ x₁ y₂ = inscribed x₁ y₁ x₂ y₂ := by
  rw [inscribed_eq, inscribed_eq, add_comm x₂, abs_sub_comm x₁]

theorem inscribed_swap_down (x₁ y₁ x₂ y₂ : α) :
    inscribed x₁ y₂ x₂ y₁ = inscribed x₁ y₁ x₂ y₂ := by
  rw [inscribed_eq, inscribed_eq, add_comm y₂, abs_sub_comm y₁]

end Corners

theorem arc_clamp (x₁ y₁ x₂ y₂ start sweep : α) :
    arc x₁ y₁ x₂ y₂ start sweep = arc x₁ y₁ x₂ y₂ start (max (-360) (min sweep 360)) := by
  have hzero : (0.0 : α) = 0 := by norm_num
  have hwithin : |max (-360) (min sweep 360)| ≤ 360 :=
    abs_le.2 ⟨le_max_left _ _, max_le (by norm_num) (min_le_right _ _)⟩
  have hkept : Scalar.equal (max (-360) (min sweep 360)) 0.0 = Scalar.equal sweep 0.0 := by
    rw [Bool.eq_iff_iff, Scalar.equal_iff, Scalar.equal_iff, hzero]
    constructor
    · intro hclamped
      rcases lt_trichotomy sweep 0 with hneg | hsame | hpos
      · have hbelow : max (-360) (min sweep 360) < 0 :=
          max_lt (by norm_num) (lt_of_le_of_lt (min_le_left _ _) hneg)
        exact absurd hclamped hbelow.ne
      · exact hsame
      · have habove : 0 < max (-360) (min sweep 360) :=
          lt_max_of_lt_right (lt_min hpos (by norm_num))
        exact absurd hclamped habove.ne'
    · rintro rfl
      norm_num
  rw [arc, arc, hkept, clamp_turn, clamp_eq_self hwithin]

/-- Of every box, start and sweep: the arc follows the inscribed ellipse smoothly, swept the other way
from its end it is its own path backwards, it is the same for all choices of opposite corners, and it
ends after a full turn. -/
theorem arc_geometry (x₁ y₁ x₂ y₂ start : α) :
    (∀ sweep, sweep ≠ 0 → |sweep| ≤ 360 → ∃ path : CurvedPath α,
      arc x₁ y₁ x₂ y₂ start sweep = path.segments ∧
      Follows x₁ y₁ x₂ y₂ start sweep path ∧
      arc x₁ y₁ x₂ y₂ (start + sweep) (-sweep) = path.backwards.segments) ∧
    (∀ sweep, arc x₂ y₂ x₁ y₁ start sweep = arc x₁ y₁ x₂ y₂ start sweep ∧
      arc x₂ y₁ x₁ y₂ start sweep = arc x₁ y₁ x₂ y₂ start sweep ∧
      arc x₁ y₂ x₂ y₁ start sweep = arc x₁ y₁ x₂ y₂ start sweep) ∧
    ∀ sweep, arc x₁ y₁ x₂ y₂ start sweep =
      arc x₁ y₁ x₂ y₂ start (max (-360) (min sweep 360)) := by
  refine ⟨fun sweep hne hle => ?_, fun sweep => ⟨?_, ?_, ?_⟩, arc_clamp x₁ y₁ x₂ y₂ start⟩
  · exact ⟨_, arc_eq x₁ y₁ x₂ y₂ start hne hle, follows_path x₁ y₁ x₂ y₂ start hle _,
      arc_backwards x₁ y₁ x₂ y₂ start hne hle⟩
  · refine arc_congr start sweep ?_
    rw [inscribed_swap_across, inscribed_swap_down]
  · exact arc_congr start sweep (inscribed_swap_across x₁ y₁ x₂ y₂)
  · exact arc_congr start sweep (inscribed_swap_down x₁ y₁ x₂ y₂)

/-- Three quarters of a turn from the rightmost point end at the lowest one. -/
theorem arc_geometry_of_three_quarters :
    (270 : ℝ) ≠ 0 ∧ |(270 : ℝ)| ≤ 360 ∧ ∃ path : CurvedPath ℝ,
      arc (0 : ℝ) 0 200 100 0 270 = path.segments ∧
      3 ≤ path.curves.length ∧ path.IsSmooth ∧
      path.points[0]? = some (200, 50) ∧ path.points[path.curves.length]? = some (100, 0) ∧
      arc (200 : ℝ) 100 0 0 270 (-270) = path.backwards.segments := by
  have hne : (270 : ℝ) ≠ 0 := by norm_num
  have hle : |(270 : ℝ)| ≤ 360 := by norm_num
  obtain ⟨path, hpath, hfollows, hback⟩ := (arc_geometry (0 : ℝ) 0 200 100 0).1 270 hne hle
  obtain ⟨hopposite, -⟩ := (arc_geometry (0 : ℝ) 0 200 100 270).2.1 (-270)
  have hlength : (3 : ℝ) ≤ path.curves.length := by
    have hpos : (0 : ℝ) < path.curves.length := Nat.cast_pos.2 hfollows.one_le
    have hfragment := hfollows.fragment_le
    rw [abs_of_pos (by norm_num), div_le_iff₀ hpos] at hfragment
    linarith
  have hstart : inscribedPoint (0 : ℝ) 0 200 100 0 = (200, 50) := by
    have hzero : (0 : ℝ) * Circular.pi / 180 = 0 := by rw [zero_mul, zero_div]
    rw [inscribedPoint, hzero]
    show ((0 + 200) / 2 + |200 - 0| / 2 * Real.cos 0, (0 + 100) / 2 + |100 - 0| / 2 * Real.sin 0) =
      ((200 : ℝ), (50 : ℝ))
    norm_num
  have hend : inscribedPoint (0 : ℝ) 0 200 100 270 = (100, 0) := by
    have hangle : (270 : ℝ) * Circular.pi / 180 = Real.pi + Real.pi / 2 := by
      show 270 * Real.pi / 180 = _
      ring
    rw [inscribedPoint, hangle]
    show ((0 + 200) / 2 + |200 - 0| / 2 * Real.cos (Real.pi + Real.pi / 2),
      (0 + 100) / 2 + |100 - 0| / 2 * Real.sin (Real.pi + Real.pi / 2)) = ((100 : ℝ), (0 : ℝ))
    rw [Real.cos_add_pi_div_two, Real.sin_add_pi_div_two]
    norm_num
  obtain ⟨first, hfirst, rfl, -⟩ := hfollows.points 0 (Nat.zero_le _)
  obtain ⟨last, hlast, rfl, -⟩ := hfollows.points path.curves.length (le_refl _)
  refine ⟨hne, hle, path, hpath, by exact_mod_cast hlength, hfollows.smooth, ?_, ?_, ?_⟩
  · rwa [Nat.cast_zero, zero_mul, zero_div, add_zero, hstart] at hfirst
  · rwa [mul_div_cancel_left₀ _ (by linarith), zero_add, hend] at hlast
  · rwa [zero_add, ← hopposite] at hback

end Overprint.Geometry.Outline
