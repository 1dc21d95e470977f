import Overprint.Number.Trigonometry
import Overprint.Proofs.Number.Magnitude

/-!
# How great sines and cosines are

The terms of both series fall, so a sum that starts with a term lies between zero and that term.
Sine and cosine of any angle are therefore at most two. The sine of an angle of up to five quarters
is at least two thirds of the angle, which keeps it from zero, and the cosine of a very small angle
is rounded to one.
-/

namespace Overprint.Number.Trigonometry

-- Powers of natural numbers are those of core, whatever else is imported.
attribute [local instance (2000)] instPowNat

theorem lt_quarterTurn : 5 * 2 ^ places < 4 * quarterTurn := by
  decide +kernel

theorem quarterTurn_le : quarterTurn ≤ 2 * 2 ^ places := by
  decide +kernel

theorem square_quarterTurn_le : quarterTurn * quarterTurn ≤ 3 * 2 ^ (2 * places) := by
  decide +kernel

theorem half_mul_two : 2 ^ (Format.double.scale - 1) * 2 = Format.double.one :=
  Nat.two_pow_pred_mul_two (by decide)

theorem scale_le_places : Format.double.scale ≤ places := by
  decide

-- The powers below are too great to be computed on the way.
attribute [local irreducible] places

def nextTerm (square degree term : Nat) : Nat :=
  term * square / 2 ^ (2 * places) / ((degree + 1) * (degree + 2))

variable {square degree share scale : Nat}

theorem mul_nextTerm_le (degree term : Nat) (hsquare : square * scale ≤ share * 2 ^ (2 * places)) :
    (degree + 1) * (degree + 2) * scale * nextTerm square degree term ≤ share * term := by
  have hpos : 0 < 2 ^ (2 * places) := Nat.two_pow_pos _
  have hfactor := Nat.mul_div_le (term * square / 2 ^ (2 * places)) ((degree + 1) * (degree + 2))
  refine Nat.le_of_mul_le_mul_right ?_ hpos
  calc (degree + 1) * (degree + 2) * scale * nextTerm square degree term * 2 ^ (2 * places)
    _ = (degree + 1) * (degree + 2) * nextTerm square degree term * (2 ^ (2 * places) * scale) := by
      ac_rfl
    _ ≤ term * square / 2 ^ (2 * places) * (2 ^ (2 * places) * scale) :=
      Nat.mul_le_mul_right _ hfactor
    _ = term * square / 2 ^ (2 * places) * 2 ^ (2 * places) * scale := by ac_rfl
    _ ≤ term * square * scale := Nat.mul_le_mul_right _ (Nat.div_mul_le_self _ _)
    _ = term * (square * scale) := Nat.mul_assoc ..
    _ ≤ term * (share * 2 ^ (2 * places)) := Nat.mul_le_mul_left _ hsquare
    _ = share * term * 2 ^ (2 * places) := by ac_rfl

theorem series_succ (square terms degree term : Nat) :
    series square (terms + 1) degree term =
      term - series square terms (degree + 2) (nextTerm square degree term) :=
  rfl

/-- A sum whose terms fall lies between zero and its first term. -/
theorem series_bounds (terms term : Nat)
    (hsquare : square ≤ (degree + 1) * (degree + 2) * 2 ^ (2 * places)) :
    0 ≤ series square terms degree term ∧ series square terms degree term ≤ term := by
  induction terms generalizing degree term with
  | zero => exact ⟨Int.le_refl 0, Int.natCast_nonneg term⟩
  | succ terms ih =>
    rw [← Nat.mul_one square] at hsquare
    have hnext := mul_nextTerm_le degree term hsquare
    have hpos : 0 < (degree + 1) * (degree + 2) := Nat.mul_pos (by omega) (by omega)
    rw [Nat.mul_one] at hnext hsquare
    have hle := Nat.le_of_mul_le_mul_left hnext hpos
    have hgrows : (degree + 1) * (degree + 2) ≤ (degree + 2 + 1) * (degree + 2 + 2) :=
      Nat.mul_le_mul (by omega) (by omega)
    have hrest := ih (nextTerm square degree term)
      (Nat.le_trans hsquare (Nat.mul_le_mul_right _ hgrows))
    rw [series_succ]
    omega

section First

variable {terms factor : Nat} (term : Nat) (hterms : 0 < terms)
  (hfalls : square ≤ (degree + 3) * (degree + 4) * 2 ^ (2 * places))

include hterms hfalls

theorem series_le : series square terms degree term ≤ term := by
  obtain ⟨rest, rfl⟩ := Nat.exists_eq_add_one.2 hterms
  have hrest := (series_bounds rest (nextTerm square degree term) hfalls).1
  rw [series_succ]
  omega

/-- How far a sum can lie below its first term. -/
theorem le_series (hfactor : (degree + 1) * (degree + 2) * scale = factor)
    (hsquare : square * scale ≤ share * 2 ^ (2 * places)) :
    (factor : Int) * term ≤ factor * series square terms degree term + share * term := by
  obtain ⟨rest, rfl⟩ := Nat.exists_eq_add_one.2 hterms
  have hnext := mul_nextTerm_le degree term hsquare
  have hle := (series_bounds rest (nextTerm square degree term) hfalls).2
  rw [hfactor] at hnext
  have hscaled := Int.mul_le_mul_of_nonneg_left hle (Int.natCast_nonneg factor)
  have hcast : (factor : Int) * (nextTerm square degree term : Int) ≤ share * term := by
    exact_mod_cast hnext
  rw [series_succ, Int.mul_sub]
  omega

end First

section Angle

variable {angle : Nat}

theorem sineSeries_bounds (hangle : angle * angle ≤ 3 * 2 ^ (2 * places)) :
    0 ≤ sineSeries angle ∧ sineSeries angle ≤ angle :=
  series_bounds 240 angle (by omega)

theorem le_sineSeries (hangle : angle * angle ≤ 2 * 2 ^ (2 * places)) :
    2 * (angle : Int) ≤ 3 * sineSeries angle := by
  have hterms : 0 < 240 := by decide
  have hfalls : angle * angle ≤ (1 + 3) * (1 + 4) * 2 ^ (2 * places) := by omega
  have hfactor : (1 + 1) * (1 + 2) * 1 = 6 := rfl
  have hsquare : angle * angle * 1 ≤ 2 * 2 ^ (2 * places) := by omega
  have hle := le_series angle hterms hfalls hfactor hsquare
  rw [sineSeries]
  omega

theorem cosineSeries_bounds (hangle : angle * angle ≤ 3 * 2 ^ (2 * places)) :
    -((2 ^ places : Nat) : Int) ≤ 2 * cosineSeries angle ∧
      cosineSeries angle ≤ (2 ^ places : Nat) := by
  have hterms : 0 < 240 := by decide
  have hfalls : angle * angle ≤ (0 + 3) * (0 + 4) * 2 ^ (2 * places) := by omega
  have hfactor : (0 + 1) * (0 + 2) * 1 = 2 := rfl
  have hsquare : angle * angle * 1 ≤ 3 * 2 ^ (2 * places) := by omega
  have hupper := series_le (2 ^ places) hterms hfalls
  have hlower := le_series (2 ^ places) hterms hfalls hfactor hsquare
  rw [cosineSeries]
  omega

/-- The cosine of a small angle differs from one by half the square of the angle at most. -/
theorem le_cosineSeries (hangle : angle * angle * scale ≤ 2 ^ (2 * places)) (hscale : 0 < scale) :
    ((scale * 2 : Nat) : Int) * (2 ^ places : Nat) ≤
      (scale * 2 : Nat) * cosineSeries angle + (2 ^ places : Nat) := by
  have hterms : 0 < 240 := by decide
  have hsquare : angle * angle * scale ≤ 1 * 2 ^ (2 * places) := by omega
  have hfalls : angle * angle ≤ (0 + 3) * (0 + 4) * 2 ^ (2 * places) := by
    have hle := Nat.le_mul_of_pos_right (angle * angle) hscale
    omega
  have hfactor : (0 + 1) * (0 + 2) * scale = scale * 2 := Nat.mul_comm ..
  have hle := le_series (2 ^ places) hterms hfalls hfactor hsquare
  rwa [Int.natCast_one, Int.one_mul] at hle

theorem natAbs_shiftedSine_le (magnitude quarters : Nat) :
    (shiftedSine magnitude quarters).natAbs ≤ 2 * 2 ^ places := by
  have hturn := lt_quarterTurn
  have hbound := quarterTurn_le
  have hless : magnitude % quarterTurn < quarterTurn := Nat.mod_lt _ (by omega)
  rw [shiftedSine]
  generalize magnitude % quarterTurn = angle at *
  have hsquare : angle * angle ≤ 3 * 2 ^ (2 * places) :=
    Nat.le_trans (Nat.mul_le_mul (Nat.le_of_lt hless) (Nat.le_of_lt hless))
      square_quarterTurn_le
  have hsine := sineSeries_bounds hsquare
  have hcosine := cosineSeries_bounds hsquare
  split <;> omega

theorem shiftedSine_zero (hless : angle < quarterTurn) :
    shiftedSine angle 0 = sineSeries angle := by
  rw [shiftedSine, Nat.div_eq_of_lt hless, Nat.mod_eq_of_lt hless]
  rfl

theorem shiftedSine_one (hless : angle < quarterTurn) :
    shiftedSine angle 1 = cosineSeries angle := by
  rw [shiftedSine, Nat.div_eq_of_lt hless, Nat.mod_eq_of_lt hless]
  rfl

end Angle

section Rounded

open Binary

variable {x : Double} {units : Nat} {negative : Bool}

theorem ofPlaces_within {value : Int} (hvalue : value.natAbs ≤ 2 * 2 ^ places) :
    (ofPlaces value : Double).Within 1 := by
  refine round_atMost (Nat.two_pow_pos _) (Format.representable_two_pow (by decide)) ?_
  rw [Nat.pow_succ, Nat.mul_comm _ 2, ← Nat.mul_assoc, Nat.mul_comm _ 2]
  exact Nat.mul_le_mul_right _ hvalue

theorem sin_within (hx : x.isFinite = true) : (sin x).Within 1 := by
  cases x with
  | nan | infinite => cases hx
  | finite negative units h =>
    have hvalue := natAbs_shiftedSine_le (toPlaces .double units) 0
    rw [sin]
    split
    next hzero =>
      subst hzero
      exact Nat.zero_le _
    next => exact ofPlaces_within (by split <;> omega)

theorem cos_within (hx : x.isFinite = true) : (cos x).Within 1 := by
  cases x with
  | nan | infinite => cases hx
  | finite negative units h => exact ofPlaces_within (natAbs_shiftedSine_le _ _)

theorem toPlaces_mul_one (units : Nat) :
    toPlaces .double units * Format.double.one = units * 2 ^ places := by
  have hdvd : Format.double.one ∣ 2 ^ places := Nat.pow_dvd_pow 2 scale_le_places
  exact Nat.div_mul_cancel (Nat.dvd_mul_left_of_dvd hdvd units)

section Small

variable (hsmall : 4 * units ≤ 5 * Format.double.one)

include hsmall

theorem toPlaces_le : 4 * toPlaces .double units ≤ 5 * 2 ^ places := by
  refine Nat.le_of_mul_le_mul_right ?_ Format.double.one_pos
  rw [Nat.mul_assoc, toPlaces_mul_one, Nat.mul_right_comm 5, ← Nat.mul_assoc]
  exact Nat.mul_le_mul_right _ hsmall

theorem toPlaces_lt_quarterTurn : toPlaces .double units < quarterTurn := by
  have hle := toPlaces_le hsmall
  have hlt := lt_quarterTurn
  omega

theorem square_toPlaces_le :
    toPlaces .double units * toPlaces .double units ≤ 2 * 2 ^ (2 * places) := by
  have hle := toPlaces_le hsmall
  have hsquare := Nat.mul_le_mul hle hle
  rw [Nat.mul_mul_mul_comm, Nat.mul_mul_mul_comm 5, ← Nat.pow_two (2 ^ places), ← Nat.pow_mul,
    Nat.mul_comm places] at hsquare
  omega

/-- Before it is rounded, a sine lies between two thirds of its angle and the angle. -/
theorem sin_eq_round (hzero : units ≠ 0) (negative : Bool)
    (h : Format.double.Representable units) :
    ∃ sign value, sin (finite negative units h) =
        round sign (value * Format.double.one) (2 ^ places) ∧
      2 * (2 ^ places * units) ≤ 3 * (value * Format.double.one) ∧
      value * Format.double.one ≤ 2 ^ places * units := by
  have hsquare := square_toPlaces_le hsmall
  have hlower := le_sineSeries hsquare
  obtain ⟨hnonneg, hupper⟩ := sineSeries_bounds (Nat.le_trans hsquare (by omega))
  have hplaces := toPlaces_mul_one units
  obtain ⟨value, hvalue⟩ := Int.eq_ofNat_of_zero_le hnonneg
  have hlow : 2 * toPlaces .double units ≤ 3 * value := by omega
  have hhigh : value ≤ toPlaces .double units := by omega
  refine ⟨decide ((if negative then -(value : Int) else value) < 0), value, ?_, ?_, ?_⟩
  · have habs : (if negative then -(value : Int) else value).natAbs = value := by split <;> omega
    rw [sin, if_neg hzero, shiftedSine_zero (toPlaces_lt_quarterTurn hsmall), hvalue]
    show round _ (Int.natAbs _ * _) _ = _
    rw [habs]
  · have hscaled := Nat.mul_le_mul_right Format.double.one hlow
    rwa [Nat.mul_assoc, hplaces, Nat.mul_comm units, Nat.mul_assoc] at hscaled
  · have hscaled := Nat.mul_le_mul_right Format.double.one hhigh
    rwa [hplaces, Nat.mul_comm units] at hscaled

theorem sin_atLeast {h : Format.double.Representable units} {bound : Nat}
    (hbound : Format.double.step bound ∣ bound) (hle : 3 * bound ≤ 2 * units) (hzero : units ≠ 0) :
    (sin (finite negative units h)).AtLeast bound := by
  obtain ⟨sign, value, hsin, hlow, hhigh⟩ := sin_eq_round hsmall hzero negative h
  have hpos := Nat.two_pow_pos places
  have hscaled := Nat.mul_le_mul_left (2 ^ places) hle
  rw [hsin]
  refine round_atLeast (round_atMost hpos h hhigh).isFinite (Format.le_nearest hpos hbound ?_)
  rw [Nat.mul_left_comm, Nat.mul_left_comm _ 2] at hscaled
  omega

theorem sin_atLeast_one {h : Format.double.Representable units} (hzero : units ≠ 0) :
    (sin (finite negative units h)).AtLeast 1 := by
  obtain ⟨sign, value, hsin, hlow, hhigh⟩ := sin_eq_round hsmall hzero negative h
  have hpos := Nat.two_pow_pos places
  have hscaled := Nat.le_mul_of_pos_right (2 ^ places) (Nat.pos_of_ne_zero hzero)
  rw [hsin]
  exact round_atLeast (round_atMost hpos h hhigh).isFinite
    (Format.one_le_nearest hpos (by omega))

end Small

theorem representable_one : Format.double.Representable Format.double.one :=
  Format.representable_two_pow (by decide)

/-- From a half up the representable numbers lie as close as just below one. -/
theorem one_le_step_mul {units : Nat} (hhalf : Format.double.one ≤ 2 * units) :
    Format.double.one ≤ Format.double.step units * 2 ^ (53 : Nat) := by
  have hhalves := half_mul_two
  have hpos := Format.double.one_pos
  have hlog : Format.double.scale - 1 ≤ units.log2 := (Nat.le_log2 (by omega)).2 (by omega)
  have hprecision : Format.double.precision = 53 := rfl
  rw [Format.one, Format.step, ← Nat.pow_add]
  exact Nat.pow_le_pow_right (by decide) (by omega)

/-- What is less than a quarter of a step below one is rounded to one. -/
theorem nearest_eq_one {value : Nat} (hle : value ≤ 2 ^ places)
    (hnear : 2 ^ (55 : Nat) * 2 ^ places ≤ 2 ^ (55 : Nat) * value + 2 ^ places) :
    Format.double.nearest (value * Format.double.one) (2 ^ places) = Format.double.one := by
  have hpos := Nat.two_pow_pos places
  have hupper : value * Format.double.one ≤ 2 ^ places * Format.double.one :=
    Nat.mul_le_mul_right _ hle
  have hwhole : value * Format.double.one / 2 ^ places ≤ Format.double.one :=
    Nat.div_le_of_le_mul hupper
  have hhalf : Format.double.one ≤ 2 * (value * Format.double.one / 2 ^ places) := by
    have hvalue : 2 ^ places ≤ value * 2 := by omega
    have hmul := Nat.mul_le_mul_left (2 ^ (Format.double.scale - 1)) hvalue
    rw [Nat.mul_left_comm, half_mul_two] at hmul
    have hdiv := (Nat.le_div_iff_mul_le hpos).2 hmul
    have hhalves := half_mul_two
    omega
  have hstep := one_le_step_mul hhalf
  refine Nat.le_antisymm (Format.nearest_le hpos representable_one.2 hupper) ?_
  refine Format.le_nearest_of_lt hpos ?_ ?_
  · exact Nat.dvd_trans (Format.step_dvd_of_le (Format.log2_le_of_le hwhole)) representable_one.2
  · have hgap := Nat.mul_le_mul_right Format.double.one hnear
    have hwide := Nat.mul_le_mul_left (2 ^ places) hstep
    have hpositive :=
      Nat.mul_pos hpos (Format.double.step_pos (value * Format.double.one / 2 ^ places))
    rw [Nat.add_mul, Nat.mul_assoc, Nat.mul_assoc] at hgap
    rw [← Nat.mul_assoc] at hwide
    omega

theorem cos_eq_one {h : Format.double.Representable units}
    (htiny : 2 ^ (27 : Nat) * units ≤ Format.double.one) :
    cos (finite negative units h) = finite false Format.double.one representable_one := by
  have hpos := Nat.two_pow_pos places
  have hone := Format.double.one_pos
  have hsmall : 4 * units ≤ 5 * Format.double.one := by omega
  have hless := toPlaces_lt_quarterTurn hsmall
  have hplaces := toPlaces_mul_one units
  rw [cos, shiftedSine_one hless]
  generalize toPlaces .double units = angle at *
  have hangle : 2 ^ (27 : Nat) * angle ≤ 2 ^ places := by
    refine Nat.le_of_mul_le_mul_right ?_ Format.double.one_pos
    rw [Nat.mul_assoc, hplaces, ← Nat.mul_assoc, Nat.mul_comm _ Format.double.one]
    exact Nat.mul_le_mul_right _ htiny
  have hsquare : angle * angle * 2 ^ (54 : Nat) ≤ 2 ^ (2 * places) := by
    have hmul := Nat.mul_le_mul hangle hangle
    rw [Nat.mul_mul_mul_comm, ← Nat.pow_two (2 ^ places), ← Nat.pow_mul, Nat.mul_comm places,
      Nat.mul_comm] at hmul
    exact hmul
  have hfalls : angle * angle ≤ 3 * 2 ^ (2 * places) := by omega
  have hlower := le_cosineSeries hsquare (Nat.two_pow_pos 54)
  have hupper := (cosineSeries_bounds hfalls).2
  have hnonneg : 0 ≤ cosineSeries angle := by omega
  obtain ⟨value, hvalue⟩ := Int.eq_ofNat_of_zero_le hnonneg
  rw [hvalue] at hlower hupper ⊢
  have hnearest : Format.double.nearest (value * Format.double.one) (2 ^ places) =
      Format.double.one := nearest_eq_one (by omega) (by omega)
  exact round_of_nearest hpos representable_one hnearest

end Rounded

end Overprint.Number.Trigonometry
