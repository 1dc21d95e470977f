import Overprint.Proofs.Geometry.Extent
import Overprint.Proofs.Number.Sine

/-!
# Arcs stay on the plane

The control points of an arc lie on its tangents, as far out as a quotient by the sine of half a
fragment says. A fragment is never so large that this sine is small again, and where it is very
small the cosine is one, so the quotient is zero. What remains is half a fragment that is rounded to
zero although the fragment is not: there zero is divided by zero, and the first control point is not
a number.
-/

namespace Overprint.Geometry

open Number Binary

-- Powers of natural numbers are those of core, whatever else is imported.
attribute [local instance (2000)] instPowNat

namespace Outline

/-- Half an angle in degrees, in radians. -/
def halfAngle (degrees : Double) : Double :=
  degrees * Trigonometric.pi / 360.0

/-- A sweep that is not zero, but half of which is rounded to zero. -/
def Degenerate (sweep : Double) : Prop :=
  sweep.equal 0.0 = false ∧ (halfAngle sweep).equal 0.0 = true

instance : DecidablePred Degenerate :=
  fun _ => inferInstanceAs (Decidable (_ ∧ _))

def tangentOf (half : Double) : Double :=
  4.0 / 3.0 * (1.0 - Trigonometry.cos half) / Trigonometry.sin half

theorem tangentLength_eq (fragment : Double) :
    tangentLength fragment =
      if Binary.less 0.0 fragment then (tangentOf (halfAngle fragment)).abs
      else -(tangentOf (halfAngle fragment)).abs :=
  rfl

/-- A quarter, in the least unit. -/
def quarter : Nat :=
  2 ^ (Format.double.scale - 2)

theorem four_mul_quarter : 4 * quarter = Format.double.one := by
  rw [quarter, Format.one, show 4 = 2 ^ (2 : Nat) from rfl, ← Nat.pow_add]
  congr 1

theorem two_pow_scale_sub :
    2 ^ (28 : Nat) * 2 ^ (Format.double.scale - 28) = Format.double.one := by
  rw [Format.one, ← Nat.pow_add]
  congr 1

theorem whole_le : 360 * Format.double.one ≤ 2 ^ (Format.double.scale + 9) := by
  rw [Format.one, Nat.add_comm, Nat.pow_add]
  exact Nat.mul_le_mul_right _ (by decide)

theorem representable_quarters :
    Format.double.Representable (1755 * quarter) ∧ Format.double.Representable (5 * quarter) := by
  decide +kernel

theorem pi_bounds : (Trigonometric.pi : Double).AtMost (13 * quarter) ∧
    (Trigonometric.pi : Double).AtLeast Format.double.one := by
  decide +kernel

theorem degree_within : (Trigonometric.pi / 180.0 : Double).Within 1 := by
  decide +kernel

theorem one_sub_one : (1.0 : Double) -
    finite false Format.double.one Trigonometry.representable_one = zero false := by
  decide +kernel

theorem fourThirds_within : (4.0 / 3.0 : Double).Within 1 := by
  decide +kernel

theorem turn_regular : ¬ Degenerate 360.0 := by
  decide +kernel

-- The powers behind these are too great to be computed on the way.
attribute [local irreducible] Binary.round Format.one quarter

section Constants

theorem representable_whole {n : Nat} (hlt : n < 2 ^ Format.double.precision) :
    Format.double.Representable (n * Format.double.one) :=
  Format.representable_mul_one hlt (by decide)

theorem whole_eq (n : Nat) (hlt : n < 2 ^ Format.double.precision) :
    (OfScientific.ofScientific (10 * n) true 1 : Double) =
      finite false (n * Format.double.one) (representable_whole hlt) :=
  literal_eq _

theorem zero_eq :
    (0.0 : Double) = finite false (0 * Format.double.one) (representable_whole (by decide)) :=
  whole_eq 0 (by decide)

theorem one_eq :
    (1.0 : Double) = finite false (1 * Format.double.one) (representable_whole (by decide)) :=
  whole_eq 1 (by decide)

theorem two_eq :
    (2.0 : Double) = finite false (2 * Format.double.one) (representable_whole (by decide)) :=
  whole_eq 2 (by decide)

theorem ninety_eq :
    (90.0 : Double) = finite false (90 * Format.double.one) (representable_whole (by decide)) :=
  whole_eq 90 (by decide)

theorem turn_eq :
    (360.0 : Double) = finite false (360 * Format.double.one) (representable_whole (by decide)) :=
  whole_eq 360 (by decide)

theorem toUnits?_zero : (0.0 : Double).toUnits? = some ((0 * Format.double.one : Nat) : Int) := by
  rw [zero_eq]
  rfl

theorem toUnits?_ninety :
    (90.0 : Double).toUnits? = some ((90 * Format.double.one : Nat) : Int) := by
  rw [ninety_eq]
  rfl

theorem toUnits?_turn :
    (360.0 : Double).toUnits? = some ((360 * Format.double.one : Nat) : Int) := by
  rw [turn_eq]
  rfl

theorem toUnits?_neg_turn :
    (-360.0 : Double).toUnits? = some (-((360 * Format.double.one : Nat) : Int)) := by
  rw [turn_eq]
  rfl

theorem zero_within : (0.0 : Double).Within 90 := by
  rw [zero_eq]
  exact whole_within _ (by decide)

theorem one_within : (1.0 : Double).Within 1 := by
  rw [one_eq]
  exact whole_within _ (by decide)

theorem two_atLeast : (2.0 : Double).AtLeast Format.double.one := by
  rw [two_eq]
  exact Nat.le_mul_of_pos_left _ (by decide)

theorem count_within {n : Nat} (hn : n < 5) : (Binary.ofNat n : Double).Within 3 :=
  ofNat_within (representable_whole (Nat.lt_trans hn (by decide))) (by omega)

theorem turn_atMost : (360.0 : Double).AtMost (360 * Format.double.one) := by
  rw [turn_eq]
  exact Nat.le_refl _

theorem turn_atLeast : (360.0 : Double).AtLeast (360 * Format.double.one) := by
  rw [turn_eq]
  exact Nat.le_refl _

theorem one_le_turn : (360.0 : Double).AtLeast Format.double.one :=
  turn_atLeast.mono (Nat.le_mul_of_pos_left _ (by decide))

theorem pi_within : (Trigonometric.pi : Double).Within 2 := by
  refine AtMost.mono pi_bounds.1 ?_
  rw [Nat.pow_add, ← Format.one, ← four_mul_quarter]
  omega

end Constants

section Tangent

theorem tangentOf_within {half : Double} (hsmall : half.AtMost (5 * quarter))
    (hhalf : half.AtLeast 1) : (tangentOf half).Within 31 := by
  cases half with
  | nan | infinite => exact hsmall.elim
  | finite negative units h =>
    have hunits : units ≤ 5 * quarter := hsmall
    have hzero : units ≠ 0 := Nat.ne_of_gt hhalf
    have hquarter := four_mul_quarter
    have hless : 4 * units ≤ 5 * Format.double.one := by omega
    have hsine : (Trigonometry.sin (finite negative units h)).AtLeast 1 :=
      Trigonometry.sin_atLeast_one hless hzero
    rw [tangentOf]
    by_cases htiny : 2 ^ (27 : Nat) * units ≤ Format.double.one
    · have hnothing : (zero false : Double).AtMost 0 := Nat.le_refl 0
      rw [Trigonometry.cos_eq_one htiny, one_sub_one]
      have hquotient := (AtMost.mul_zero fourThirds_within hnothing).zero_div hsine
      exact AtMost.mono hquotient (Nat.zero_le _)
    · have hbound : 3 * 2 ^ (Format.double.scale - 28) ≤ 2 * units := by
        have hone := two_pow_scale_sub
        omega
      have hgreat : (Trigonometry.sin (finite negative units h)).AtLeast
          (2 ^ (Format.double.scale - 28)) :=
        Trigonometry.sin_atLeast hless (Format.double.step_pow_dvd _) hbound hzero
      have hcosine := Trigonometry.cos_within (x := finite negative units h) rfl
      have hnumerator := fourThirds_within.mul (one_within.sub hcosine (by decide)) (by decide)
      exact (hnumerator.div_small hgreat (by decide) (by decide)).mono (by decide)

end Tangent

section Fragments

/-- How many quarter turns there are in a sweep, both in the least unit. -/
def quarterTurns (units : Nat) : Nat :=
  Format.double.nearest (units * Format.double.one) (90 * Format.double.one)

theorem ninety_pos : 0 < 90 * Format.double.one :=
  Nat.mul_pos (by decide) Format.double.one_pos

theorem quarterTurns_le {units : Nat} (hunits : units ≤ 360 * Format.double.one) :
    quarterTurns units ≤ 4 * Format.double.one := by
  refine Format.nearest_le ninety_pos (representable_whole (by decide)).2 ?_
  calc units * Format.double.one
    _ ≤ 360 * Format.double.one * Format.double.one := Nat.mul_le_mul_right _ hunits
    _ = 90 * Format.double.one * (4 * Format.double.one) := by
      rw [Nat.mul_mul_mul_comm, Nat.mul_assoc]

/-- Halves of quarter turns are exact, so a sweep of at least as much is not rounded below them. -/
theorem le_quarterTurns {units : Nat} (halves : Nat)
    (hhalves : halves < 2 ^ Format.double.precision)
    (hunits : halves * (45 * Format.double.one) ≤ units) :
    halves * 2 ^ (Format.double.scale - 1) ≤ quarterTurns units := by
  have hturn (one half : Nat) : 90 * one * (halves * half) = halves * (45 * (half * 2)) * one := by
    rw [show 90 = 45 * 2 from rfl]
    ac_rfl
  refine Format.le_nearest ninety_pos (Format.step_dvd_of_lt hhalves _) ?_
  rw [hturn, Trigonometry.half_mul_two]
  exact Nat.mul_le_mul_right _ hunits

theorem ceilNat_div_ninety {units : Nat} {h : Format.double.Representable units}
    (hunits : units ≤ 360 * Format.double.one) :
    Binary.ceilNat (finite false units h / 90.0) =
      (quarterTurns units + Format.double.one - 1) / Format.double.one := by
  have hwidth : Format.double.Representable (quarterTurns units) :=
    ⟨Nat.lt_of_le_of_lt (quarterTurns_le hunits) (representable_whole (by decide)).1,
      Format.double.step_dvd_nearest _ ninety_pos⟩
  rw [ninety_eq, div_finite (Nat.ne_of_gt ninety_pos)]
  show Binary.ceilNat (round false _ _) = _
  rw [round_of_nearest ninety_pos hwidth rfl, Binary.ceilNat]

/-- How many fragments make up a sweep of more than a quarter turn: as many quarter turns as there
are in it, rounded up, but not by more than a half too few. -/
theorem exists_count {units : Nat} {h : Format.double.Representable units}
    (hlow : 90 * Format.double.one < units) (hhigh : units ≤ 360 * Format.double.one) :
    ∃ count, Binary.ceilNat (finite false units h / 90.0) = count ∧ 1 ≤ count ∧ count ≤ 4 ∧
      units < (2 * count + 1) * (45 * Format.double.one) := by
  have hone := Format.double.one_pos
  have hhalf := Trigonometry.half_mul_two
  have hlower := le_quarterTurns 2 (by decide) (show 2 * (45 * Format.double.one) ≤ units by omega)
  have hupper := quarterTurns_le hhigh
  obtain ⟨count, hcount⟩ : ∃ count,
      (quarterTurns units + Format.double.one - 1) / Format.double.one = count := ⟨_, rfl⟩
  have hsplit := Nat.div_add_mod (quarterTurns units + Format.double.one - 1) Format.double.one
  have hrest := Nat.mod_lt (quarterTurns units + Format.double.one - 1) hone
  rw [hcount] at hsplit
  have hleast : 1 ≤ count := by
    rcases Nat.eq_zero_or_pos count with rfl | hcount
    · rw [Nat.mul_zero] at hsplit
      omega
    · exact hcount
  have hmost : count ≤ 4 := by
    refine Nat.le_of_lt_succ (Nat.lt_of_not_le fun hle => ?_)
    have hfive := Nat.mul_le_mul_left Format.double.one hle
    omega
  refine ⟨count, by rw [ceilNat_div_ninety hhigh, hcount], hleast, hmost,
    Nat.lt_of_not_le fun hmany => ?_⟩
  have hfar := le_quarterTurns _ (Nat.lt_of_le_of_lt (show 2 * count + 1 ≤ 9 by omega) (by decide))
    hmany
  rw [Nat.add_mul, Nat.one_mul, Nat.mul_right_comm, Nat.mul_comm 2, hhalf] at hfar
  omega

theorem halfAngle_atMost {degrees : Double} (hdegrees : degrees.AtMost (135 * Format.double.one)) :
    (halfAngle degrees).AtMost (5 * quarter) := by
  have hproduct : (degrees * Trigonometric.pi : Double).AtMost (1755 * quarter) := by
    refine hdegrees.mul pi_bounds.1 representable_quarters.1 (Nat.le_of_eq ?_)
    rw [Nat.mul_mul_mul_comm, Nat.mul_left_comm, ← Nat.mul_assoc]
  refine hproduct.div turn_atLeast ?_ representable_quarters.2 ?_
  · have hone := Format.double.one_pos
    omega
  · rw [Nat.mul_assoc, Nat.mul_mul_mul_comm, Nat.mul_comm quarter]
    exact Nat.mul_le_mul_right _ (by decide)

theorem halfAngle_isFinite {degrees : Double} (hdegrees : degrees.Within 90) :
    (halfAngle degrees).isFinite = true :=
  ((hdegrees.mul pi_within (by decide)).div one_le_turn (by decide)).isFinite

/-- Half of a degree is not rounded to zero, nor what is more. -/
theorem halfAngle_atLeast {degrees : Double} (hlow : degrees.AtLeast Format.double.one)
    (hhigh : degrees.Within 90) : (halfAngle degrees).AtLeast 1 := by
  have hproduct := hhigh.mul pi_within (by decide)
  have hgreat : (degrees * Trigonometric.pi : Double).AtLeast Format.double.one :=
    hlow.mul pi_bounds.2 hproduct.isFinite Trigonometry.representable_one.2 (Nat.le_refl _)
  have hhalf := halfAngle_isFinite hhigh
  have hone : Format.double.step 1 ∣ 1 := by decide
  have hpos := Format.double.one_pos
  refine hgreat.div turn_atMost (turn_atLeast.mono (by omega)) hhalf hone ?_
  rw [Nat.mul_one]
  exact Nat.mul_le_mul_right _ (by decide +kernel)

/-- A fragment that is not to be taken for zero. -/
structure IsFragment (fragment : Double) : Prop where
  atMost : fragment.AtMost (135 * Format.double.one)
  half : (halfAngle fragment).AtLeast 1

theorem IsFragment.tangentLength_within {fragment : Double} (hfragment : IsFragment fragment) :
    (tangentLength fragment).Within 31 := by
  have hlength := tangentOf_within (halfAngle_atMost hfragment.atMost) hfragment.half
  rw [tangentLength_eq]
  split
  · exact hlength.abs
  · exact hlength.abs.neg

theorem isFragment_div {negative : Bool} {units count : Nat} {h : Format.double.Representable units}
    (hlow : 90 * Format.double.one < units) (hleast : 1 ≤ count) (hmost : count ≤ 4)
    (hless : units < (2 * count + 1) * (45 * Format.double.one)) :
    IsFragment (finite negative units h / Binary.ofNat count) := by
  have hone := Format.double.one_pos
  have hwhole := representable_whole (n := count) (Nat.lt_of_le_of_lt hmost (by decide))
  have hpos : 0 < count * Format.double.one := Nat.mul_pos hleast hone
  have hupper : units ≤ count * (135 * Format.double.one) := by
    refine Nat.le_trans (Nat.le_of_lt hless) ?_
    rw [show 135 = 3 * 45 from rfl, Nat.mul_assoc 3, ← Nat.mul_assoc count]
    exact Nat.mul_le_mul_right _ (by omega)
  have hlower : count * Format.double.one ≤ units := by
    have hfour := Nat.mul_le_mul_right Format.double.one hmost
    omega
  have hdividend : (finite negative units h : Double).AtMost units := Nat.le_refl units
  have hdividend' : (finite negative units h : Double).AtLeast units := Nat.le_refl units
  have hdivisor : (Binary.ofNat count : Double).AtMost (count * Format.double.one) := by
    rw [ofNat_eq hwhole]
    exact Nat.le_refl _
  have hdivisor' : (Binary.ofNat count : Double).AtLeast (count * Format.double.one) := by
    rw [ofNat_eq hwhole]
    exact Nat.le_refl _
  have hfragment : (finite negative units h / Binary.ofNat count : Double).AtMost
      (135 * Format.double.one) := by
    refine hdividend.div hdivisor' hpos (representable_whole (by decide)) ?_
    rw [Nat.mul_right_comm]
    exact Nat.mul_le_mul_right _ hupper
  refine ⟨hfragment, halfAngle_atLeast ?_ (AtMost.mono hfragment ?_)⟩
  · exact hdividend'.div hdivisor (hdivisor'.mono hpos) hfragment.isFinite
      Trigonometry.representable_one.2 (Nat.mul_le_mul_right _ hlower)
  · have hbits : 2 ^ (Format.double.scale + 9) ≤ 2 ^ (Format.double.scale + 90) :=
      Nat.pow_le_pow_right (by decide) (by omega)
    have hturn := whole_le
    omega

theorem abs_lessEq_ninety_iff {negative : Bool} {units : Nat}
    {h : Format.double.Representable units} :
    Scalar.lessEq (Scalar.abs (finite negative units h : Double)) 90.0 = true ↔
      units ≤ 90 * Format.double.one := by
  have hunits : (finite false units h : Double).toUnits? = some (units : Int) := rfl
  show (Binary.less (finite false units h) 90.0 ||
    Binary.equal (finite false units h) 90.0) = true ↔ _
  rw [Bool.or_eq_true, less_iff hunits toUnits?_ninety, equal_iff hunits toUnits?_ninety]
  omega

/-- A sweep of up to a full turn is cut into four fragments at most. -/
theorem fragments_spec {sweep : Double} (hsweep : sweep.AtMost (360 * Format.double.one))
    (hhalf : sweep.AtMost (90 * Format.double.one) → (halfAngle sweep).AtLeast 1) :
    IsFragment (fragments sweep).1 ∧ (fragments sweep).2 ≤ 4 := by
  cases sweep with
  | nan | infinite => exact hsweep.elim
  | finite negative units h =>
    have hone := Format.double.one_pos
    rw [fragments]
    by_cases hle : units ≤ 90 * Format.double.one
    · rw [if_pos (abs_lessEq_ninety_iff.2 hle)]
      exact ⟨⟨Nat.le_trans hle (by omega), hhalf hle⟩, show 1 ≤ 4 by decide⟩
    · obtain ⟨count, hcount, hleast, hmost, hless⟩ := exists_count (h := h) (by omega) hsweep
      have hceil : Trigonometric.ceilNat (Scalar.abs (finite negative units h : Double) / 90.0) =
          count := hcount
      rw [if_neg fun hlessEq => hle (abs_lessEq_ninety_iff.1 hlessEq), hceil]
      exact ⟨isFragment_div (by omega) hleast hmost hless, hmost⟩

end Fragments

section Curve

variable {bits : Nat} {ellipse : Ellipse Double}

/-- No number of the ellipse is greater than `2 ^ bits`. -/
structure Ellipse.Within (bits : Nat) (ellipse : Ellipse Double) : Prop where
  x : ellipse.x.Within bits
  y : ellipse.y.Within bits
  across : ellipse.across.Within bits
  down : ellipse.down.Within bits

theorem inscribed_within {x₁ y₁ x₂ y₂ : Double} (hx₁ : x₁.Within bits) (hy₁ : y₁.Within bits)
    (hx₂ : x₂.Within bits) (hy₂ : y₂.Within bits) (hbits : bits < 1000) :
    (inscribed x₁ y₁ x₂ y₂).Within (bits + 1) := by
  have hroom := room_of_lt hbits
  have hdiv {z : Double} (hz : z.Within (bits + 1)) : (z / 2.0).Within (bits + 1) :=
    hz.div two_atLeast hroom
  have hswap {c : Prop} [Decidable c] {a b : Double} (ha : a.Within bits) (hb : b.Within bits) :
      (if c then (b, a) else (a, b)).1.Within bits ∧
        (if c then (b, a) else (a, b)).2.Within bits := by
    split
    · exact ⟨hb, ha⟩
    · exact ⟨ha, hb⟩
  obtain ⟨hleft, hright⟩ := hswap (c := Scalar.less x₂ x₁ = true) hx₁ hx₂
  obtain ⟨htop, hbottom⟩ := hswap (c := Scalar.less y₁ y₂ = true) hy₁ hy₂
  exact ⟨hdiv (hleft.add hright hroom), hdiv (htop.add hbottom hroom),
    hdiv (hright.sub hleft hroom), hdiv (hbottom.sub htop hroom)⟩

theorem Ellipse.Within.point {c s : Double} (hellipse : ellipse.Within 92) (hc : c.Within 33)
    (hs : s.Within 33) : (ellipse.point c s).1.Within 126 ∧ (ellipse.point c s).2.Within 126 := by
  have hacross := hellipse.across.mul hc (by decide)
  have hdown := hellipse.down.mul hs (by decide)
  exact ⟨(hellipse.x.mono (by decide)).add hacross (by decide),
    (hellipse.y.mono (by decide)).sub hdown (by decide)⟩

theorem radians_isFinite {degrees : Double} (hdegrees : degrees.Within 91) :
    (radians degrees).isFinite = true :=
  (hdegrees.mul degree_within (by decide)).isFinite

theorem Ellipse.Within.pointAt {degrees : Double} (hellipse : ellipse.Within 92)
    (hdegrees : degrees.Within 91) :
    (ellipse.pointAt degrees).1.Within 126 ∧ (ellipse.pointAt degrees).2.Within 126 :=
  hellipse.point ((Trigonometry.cos_within (radians_isFinite hdegrees)).mono (by decide))
    ((Trigonometry.sin_within (radians_isFinite hdegrees)).mono (by decide))

theorem Ellipse.Within.curve {k first last : Double} (hellipse : ellipse.Within 92)
    (hk : k.Within 31) (hfirst : first.Within 91) (hlast : last.Within 91) :
    (ellipse.curve k first last).Within 126 := by
  have hwide {z : Double} (hz : z.Within 1) : z.Within 33 := hz.mono (by decide)
  have hout {z : Double} (hz : z.Within 1) : (k * z).Within 32 :=
    (hk.mul hz (by decide)).mono (by decide)
  have hplus {z t : Double} (hz : z.Within 1) (ht : t.Within 1) : (z + k * t).Within 33 :=
    (hz.mono (by decide)).add (hout ht) (by decide)
  have hminus {z t : Double} (hz : z.Within 1) (ht : t.Within 1) : (z - k * t).Within 33 :=
    (hz.mono (by decide)).sub (hout ht) (by decide)
  have hsin₀ := Trigonometry.sin_within (radians_isFinite hfirst)
  have hcos₀ := Trigonometry.cos_within (radians_isFinite hfirst)
  have hsin₁ := Trigonometry.sin_within (radians_isFinite hlast)
  have hcos₁ := Trigonometry.cos_within (radians_isFinite hlast)
  obtain ⟨hx₁, hy₁⟩ := hellipse.point (hminus hcos₀ hsin₀) (hplus hsin₀ hcos₀)
  obtain ⟨hx₂, hy₂⟩ := hellipse.point (hplus hcos₁ hsin₁) (hminus hsin₁ hcos₁)
  obtain ⟨hx₃, hy₃⟩ := hellipse.point (hwide hcos₁) (hwide hsin₁)
  exact .curveTo hx₁ hy₁ hx₂ hy₂ hx₃ hy₃

end Curve

section Arc

variable {x₁ y₁ x₂ y₂ start sweep : Double}

theorem clamp_eq (sweep : Double) : Scalar.clamp sweep (-360.0) 360.0 =
    if Binary.less 360.0 (if Binary.less sweep (-360.0) then -360.0 else sweep) then 360.0
    else if Binary.less sweep (-360.0) then -360.0 else sweep :=
  rfl

theorem clamp_of_atMost (hsweep : sweep.AtMost (360 * Format.double.one)) :
    Scalar.clamp sweep (-360.0) 360.0 = sweep := by
  obtain ⟨i, hi, hbound⟩ := exists_toUnits? hsweep.isFinite
  have hsmall := (hbound _).1 hsweep
  have hlow : ¬ Binary.less sweep (-360.0) = true := by
    rw [less_iff hi toUnits?_neg_turn]
    omega
  have hhigh : ¬ Binary.less 360.0 sweep = true := by
    rw [less_iff toUnits?_turn hi]
    omega
  rw [clamp_eq, if_neg hlow, if_neg hhigh]

theorem clamp_of_not_atMost (hfinite : sweep.isFinite = true)
    (hsweep : ¬ sweep.AtMost (360 * Format.double.one)) :
    (Scalar.clamp sweep (-360.0) 360.0).AtMost (360 * Format.double.one) ∧
      (Scalar.clamp sweep (-360.0) 360.0).AtLeast (360 * Format.double.one) := by
  obtain ⟨i, hi, hbound⟩ := exists_toUnits? hfinite
  rw [clamp_eq]
  by_cases hlow : Binary.less sweep (-360.0) = true
  · have hhigh : ¬ Binary.less (360.0 : Double) (-360.0) = true := by
      rw [less_iff toUnits?_turn toUnits?_neg_turn]
      omega
    rw [if_pos hlow, if_neg hhigh]
    exact ⟨turn_atMost.neg, turn_atLeast.neg⟩
  · rw [if_neg hlow]
    by_cases hhigh : Binary.less 360.0 sweep = true
    · rw [if_pos hhigh]
      exact ⟨turn_atMost, turn_atLeast⟩
    · rw [less_iff hi toUnits?_neg_turn] at hlow
      rw [less_iff toUnits?_turn hi] at hhigh
      exact absurd ((hbound _).2 (by omega)) hsweep

theorem equal_zero_iff {x : Double} (hx : x.isFinite = true) : x.equal 0.0 = true ↔ x.AtMost 0 := by
  obtain ⟨i, hi, hbound⟩ := exists_toUnits? hx
  rw [equal_iff hi toUnits?_zero, hbound]
  omega

/-- Half of a small sweep is not rounded to zero unless the sweep is degenerate. -/
theorem halfAngle_atLeast_one (hzero : sweep.equal 0.0 = false) (hsweep : sweep.Within 90)
    (hregular : ¬ Degenerate sweep) : (halfAngle sweep).AtLeast 1 := by
  have hfinite := halfAngle_isFinite hsweep
  exact .of_not_atMost hfinite fun hhalf => hregular ⟨hzero, (equal_zero_iff hfinite).2 hhalf⟩

/-- What a sweep is cut into, once it is moved to a full turn at most. -/
theorem fragments_clamp_spec (hzero : sweep.equal 0.0 = false) (hsweep : sweep.isFinite = true)
    (hregular : ¬ Degenerate sweep) :
    IsFragment (fragments (Scalar.clamp sweep (-360.0) 360.0)).1 ∧
      (fragments (Scalar.clamp sweep (-360.0) 360.0)).2 ≤ 4 := by
  by_cases hmost : sweep.AtMost (360 * Format.double.one)
  · rw [clamp_of_atMost hmost]
    refine fragments_spec hmost fun _ => ?_
    have hwithin : sweep.Within 9 := AtMost.mono hmost whole_le
    exact halfAngle_atLeast_one hzero (hwithin.mono (by decide)) hregular
  · obtain ⟨hturn, hgreat⟩ := clamp_of_not_atMost hsweep hmost
    refine fragments_spec hturn fun hsmall => ?_
    have hle := hgreat.le_of_atMost hsmall
    have hone := Format.double.one_pos
    omega

theorem angle_within {fragment : Double} {i : Nat} (hstart : start.Within 90)
    (hfragment : fragment.Within 9) (hi : i < 5) :
    (start + Binary.ofNat i * fragment).Within 91 :=
  hstart.add (((count_within hi).mul hfragment (by decide)).mono (by decide)) (by decide)

/-- The numbers of an arc are not great, if its sweep is not degenerate. -/
theorem arc_within (hx₁ : x₁.Within 91) (hy₁ : y₁.Within 91) (hx₂ : x₂.Within 91)
    (hy₂ : y₂.Within 91) (hstart : start.Within 90) (hsweep : sweep.isFinite = true)
    (hregular : ¬ Degenerate sweep) :
    ∀ segment ∈ arc x₁ y₁ x₂ y₂ start sweep, segment.Within 126 := by
  have hellipse := inscribed_within hx₁ hy₁ hx₂ hy₂ (by decide)
  intro segment hmem
  rw [arc] at hmem
  split at hmem
  · cases hmem
  next hzero =>
    obtain ⟨hfragment, hcount⟩ :=
      fragments_clamp_spec (Bool.eq_false_iff.2 hzero) hsweep hregular
    generalize fragments (Scalar.clamp sweep (-360.0) 360.0) = pieces at *
    obtain ⟨fragment, count⟩ := pieces
    have hk := hfragment.tangentLength_within
    have hwithin : fragment.Within 9 :=
      AtMost.mono hfragment.atMost (Nat.le_trans (Nat.mul_le_mul_right _ (by decide)) whole_le)
    have hangle {i : Nat} (hi : i < 5) := angle_within hstart hwithin hi
    dsimp only at hmem
    split at hmem
    · cases hmem
    · rcases List.mem_cons.1 hmem with rfl | hmem
      · obtain ⟨hx, hy⟩ := hellipse.pointAt (hangle (show 0 < 5 by decide))
        exact .moveTo hx hy
      · obtain ⟨i, hi, rfl⟩ := List.mem_map.1 hmem
        have hless := List.mem_range.1 hi
        exact hellipse.curve hk (hangle (by omega)) (hangle (by omega))

theorem Degenerate.half (hdegenerate : Degenerate sweep) (hsweep : sweep.Within 90) :
    (halfAngle sweep).AtMost 0 :=
  (equal_zero_iff (halfAngle_isFinite hsweep)).1 hdegenerate.2

theorem Degenerate.atMost (hdegenerate : Degenerate sweep) (hsweep : sweep.Within 90) :
    sweep.AtMost Format.double.one := by
  refine Decidable.byContradiction fun hgreat => ?_
  have hmore := AtLeast.of_not_atMost hsweep.isFinite hgreat
  have hhalf := halfAngle_atLeast (hmore.mono (Nat.le_succ _)) hsweep
  exact Nat.not_succ_le_zero 0 (hhalf.le_of_atMost (hdegenerate.half hsweep))

/-- Half of a degenerate sweep is zero, and one less its cosine is zero as well. -/
theorem tangentLength_of_degenerate (hdegenerate : Degenerate sweep) (hsweep : sweep.Within 90) :
    tangentLength sweep = nan := by
  have hhalf := hdegenerate.half hsweep
  have htangent : tangentOf (halfAngle sweep) = nan := by
    generalize halfAngle sweep = half at *
    cases half with
    | nan | infinite => exact hhalf.elim
    | finite negative units h =>
      obtain rfl := Nat.le_zero.1 hhalf
      have hnothing : (zero false : Double).AtMost 0 := Nat.le_refl 0
      have hsine : (Trigonometry.sin (finite negative 0 h)).AtMost 0 := by
        rw [Trigonometry.sin, if_pos rfl]
        exact Nat.le_refl 0
      rw [tangentOf, Trigonometry.cos_eq_one (Nat.zero_le _), one_sub_one]
      exact zero_div_zero (AtMost.mul_zero fourThirds_within hnothing) hsine
  rw [tangentLength_eq, htangent]
  split <;> rfl

theorem nan_mem_curve (ellipse : Ellipse Double) (first last : Double) :
    nan ∈ (ellipse.curve nan first last).numbers := by
  have hpoint (c s : Double) : ellipse.x + ellipse.across * (c - nan * s) = nan := by
    rw [nan_mul, sub_nan, mul_nan, add_nan]
  exact List.mem_cons.2 (.inl (hpoint _ _).symm)

/-- An arc of a degenerate sweep has a control point that is not a number. -/
theorem exists_nan_arc (x₁ y₁ x₂ y₂ start : Double) (hdegenerate : Degenerate sweep)
    (hsweep : sweep.Within 90) :
    ∃ segment ∈ arc x₁ y₁ x₂ y₂ start sweep, nan ∈ segment.numbers := by
  have hsmall := hdegenerate.atMost hsweep
  have hone := Format.double.one_pos
  have hzero : ¬ Scalar.equal sweep 0.0 = true := Bool.eq_false_iff.1 hdegenerate.1
  have hfragments : fragments sweep = (sweep, 1) := by
    cases sweep with
    | nan | infinite => exact hsmall.elim
    | finite negative units h =>
      rw [fragments, if_pos (abs_lessEq_ninety_iff.2 (Nat.le_trans hsmall (by omega)))]
  rw [arc, if_neg hzero, clamp_of_atMost (hsmall.mono (by omega)), hfragments]
  dsimp only
  rw [if_neg (by decide), tangentLength_of_degenerate hdegenerate hsweep]
  exact ⟨_, List.mem_cons_of_mem _ List.mem_cons_self, nan_mem_curve _ _ _⟩

theorem ellipse_within (hx₁ : x₁.Within 91) (hy₁ : y₁.Within 91) (hx₂ : x₂.Within 91)
    (hy₂ : y₂.Within 91) : ∀ segment ∈ ellipse x₁ y₁ x₂ y₂, segment.Within 126 :=
  arc_within hx₁ hy₁ hx₂ hy₂ zero_within turn_atMost.isFinite turn_regular

end Arc

end Outline

end Overprint.Geometry
