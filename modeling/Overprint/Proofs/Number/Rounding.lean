import Overprint.Number.Binary

/-!
# Rounding keeps to bounds

Whatever lies below a representable magnitude is rounded to a number that does, too, and whatever
lies above it to one that lies above. So a bound that is a power of two passes through every
operation, and what is representable is not changed.
-/

namespace Overprint.Number

-- Powers of natural numbers are those of core, whatever else is imported.
attribute [local instance (2000)] instPowNat

variable {numerator denominator bound : Nat}

theorem halfEven_le_of_le (hpos : 0 < denominator) (hle : numerator ≤ denominator * bound) :
    halfEven numerator denominator ≤ bound := by
  rcases Nat.lt_or_eq_of_le hle with hlt | rfl
  · exact halfEven_le hlt
  · simp [halfEven, hpos]

theorem le_halfEven (hpos : 0 < denominator) (hle : denominator * bound ≤ numerator) :
    bound ≤ halfEven numerator denominator := by
  have hdiv : bound ≤ numerator / denominator := (Nat.le_div_iff_mul_le hpos).2 (by
    rwa [Nat.mul_comm])
  simp only [halfEven]
  split <;> omega

theorem le_halfEven_of_lt (hpos : 0 < denominator)
    (hlt : 2 * (denominator * bound) < 2 * numerator + denominator) :
    bound ≤ halfEven numerator denominator := by
  have hsplit := Nat.div_add_mod numerator denominator
  have hmod := Nat.mod_lt numerator hpos
  rw [halfEven]
  generalize numerator / denominator = whole at *
  generalize numerator % denominator = rest at *
  rcases Nat.lt_or_ge (whole + 1) bound with hfar | hnear
  · have hle := Nat.mul_le_mul_left denominator hfar
    rw [Nat.mul_succ, Nat.mul_succ] at hle
    omega
  · rcases Nat.eq_or_lt_of_le hnear with rfl | hle
    · rw [Nat.mul_succ] at hlt
      refine Nat.le_of_eq ?_
      rw [if_neg (by omega)]
    · split <;> omega

namespace Format

variable {F : Format}

theorem step_pos (F : Format) (units : Nat) : 0 < F.step units :=
  Nat.two_pow_pos _

theorem step_eq_of_log2 {units other : Nat} (hlog : units.log2 = other.log2) :
    F.step units = F.step other := by
  rw [step, step, hlog]

theorem step_eq_one {units : Nat} (hlt : units < 2 ^ F.precision) : F.step units = 1 := by
  have hprecision := F.precision_pos
  have hlog : units.log2 < F.precision := by
    by_cases hzero : units = 0
    · rwa [hzero, Nat.log2_zero]
    · exact (Nat.log2_lt hzero).2 hlt
  rw [step, show units.log2 + 1 - F.precision = 0 by omega, Nat.pow_zero]

theorem step_dvd_mul_two_pow {G : Format} {units : Nat} (hunits : F.step units ∣ units)
    (hprecision : F.precision ≤ G.precision) (bits : Nat) :
    G.step (units * 2 ^ bits) ∣ units * 2 ^ bits := by
  by_cases hzero : units = 0
  · rw [hzero, Nat.zero_mul]
    exact Nat.dvd_zero _
  · have hpos : units * 2 ^ bits ≠ 0 := Nat.mul_ne_zero hzero (Nat.ne_of_gt (Nat.two_pow_pos bits))
    have hlog : (units * 2 ^ bits).log2 = units.log2 + bits := by
      refine (Nat.log2_eq_iff hpos).2 ⟨?_, ?_⟩
      · rw [Nat.pow_add]
        exact Nat.mul_le_mul_right _ (Nat.log2_self_le hzero)
      · rw [show units.log2 + bits + 1 = units.log2 + 1 + bits by omega, Nat.pow_add]
        exact Nat.mul_lt_mul_of_pos_right Nat.lt_log2_self (Nat.two_pow_pos bits)
    have hstep : G.step (units * 2 ^ bits) ∣ F.step units * 2 ^ bits := by
      rw [step, step, hlog, ← Nat.pow_add]
      exact Nat.pow_dvd_pow 2 (by omega)
    exact Nat.dvd_trans hstep (Nat.mul_dvd_mul_right hunits _)

theorem log2_le_of_le {low high : Nat} (hle : low ≤ high) : low.log2 ≤ high.log2 := by
  by_cases hzero : low = 0
  · rw [hzero, Nat.log2_zero]
    exact Nat.zero_le _
  · have hhigh : high ≠ 0 := by omega
    exact (Nat.le_log2 hhigh).2 (Nat.le_trans (Nat.log2_self_le hzero) hle)

section Steps

variable (hpos : 0 < denominator) (hdvd : F.step (numerator / denominator) ∣ bound)

include hpos hdvd

theorem nearest_le_of_dvd (hle : numerator ≤ denominator * bound) :
    F.nearest numerator denominator ≤ bound := by
  obtain ⟨count, hcount⟩ := hdvd
  have hstep := F.step_pos (numerator / denominator)
  rw [hcount, ← Nat.mul_assoc] at hle
  rw [nearest, hcount, Nat.mul_comm]
  exact Nat.mul_le_mul_left _ (halfEven_le_of_le (Nat.mul_pos hpos hstep) hle)

theorem le_nearest_of_dvd (hle : denominator * bound ≤ numerator) :
    bound ≤ F.nearest numerator denominator := by
  obtain ⟨count, hcount⟩ := hdvd
  have hstep := F.step_pos (numerator / denominator)
  rw [hcount, ← Nat.mul_assoc] at hle
  rw [nearest, hcount, Nat.mul_comm _ (F.step _)]
  exact Nat.mul_le_mul_left _ (le_halfEven (Nat.mul_pos hpos hstep) hle)

theorem le_nearest_of_lt (hlt : 2 * (denominator * bound) <
    2 * numerator + denominator * F.step (numerator / denominator)) :
    bound ≤ F.nearest numerator denominator := by
  obtain ⟨count, hcount⟩ := hdvd
  have hstep := F.step_pos (numerator / denominator)
  rw [hcount, ← Nat.mul_assoc denominator] at hlt
  rw [nearest, hcount, Nat.mul_comm _ (F.step _)]
  exact Nat.mul_le_mul_left _ (le_halfEven_of_lt (Nat.mul_pos hpos hstep) hlt)

end Steps

/-- Rounding does not pass a representable magnitude from below. -/
theorem nearest_le (hpos : 0 < denominator) (hbound : F.step bound ∣ bound)
    (hle : numerator ≤ denominator * bound) : F.nearest numerator denominator ≤ bound := by
  have hwhole : numerator / denominator ≤ bound := Nat.div_le_of_le_mul hle
  have hstep := step_dvd_of_le (F := F) (log2_le_of_le hwhole)
  exact nearest_le_of_dvd hpos (Nat.dvd_trans hstep hbound) hle

/-- Rounding does not pass a representable magnitude from above. -/
theorem le_nearest (hpos : 0 < denominator) (hbound : F.step bound ∣ bound)
    (hle : denominator * bound ≤ numerator) : bound ≤ F.nearest numerator denominator := by
  let whole := numerator / denominator
  have hwhole : bound ≤ whole := (Nat.le_div_iff_mul_le hpos).2 (by rwa [Nat.mul_comm])
  rcases Nat.lt_or_eq_of_le (log2_le_of_le hwhole) with hlog | hlog
  · have hne : whole ≠ 0 := by
      intro hzero
      rw [hzero, Nat.log2_zero] at hlog
      omega
    have hstep : F.step whole ∣ 2 ^ whole.log2 := by
      rw [step_eq_of_log2 (Nat.log2_two_pow (n := whole.log2)).symm]
      exact F.step_pow_dvd _
    have hpower : 2 ^ whole.log2 ≤ whole := Nat.log2_self_le hne
    have hmiddle : bound ≤ 2 ^ whole.log2 := by
      have hlt : bound < 2 ^ (bound.log2 + 1) := Nat.lt_log2_self
      exact Nat.le_trans (Nat.le_of_lt hlt) (Nat.pow_le_pow_right (by decide) hlog)
    have hnumerator : denominator * 2 ^ whole.log2 ≤ numerator :=
      Nat.le_trans (Nat.mul_le_mul_left _ hpower) (Nat.mul_div_le _ _)
    exact Nat.le_trans hmiddle (le_nearest_of_dvd hpos hstep hnumerator)
  · refine le_nearest_of_dvd hpos ?_ hle
    rwa [show F.step (numerator / denominator) = F.step bound from step_eq_of_log2 hlog.symm]

theorem one_le_nearest (hpos : 0 < denominator) (hlt : denominator < 2 * numerator) :
    1 ≤ F.nearest numerator denominator := by
  rcases Nat.lt_or_ge numerator denominator with hless | hle
  · have hstep : F.step (numerator / denominator) = 1 := by
      rw [Nat.div_eq_of_lt hless]
      exact step_eq_one (Nat.two_pow_pos _)
    have hone : F.step (numerator / denominator) ∣ 1 := ⟨1, by rw [hstep]⟩
    refine le_nearest_of_lt hpos hone ?_
    rw [hstep]
    omega
  · have hlt : 1 < 2 ^ F.precision := Nat.one_lt_two_pow (Nat.ne_of_gt F.precision_pos)
    have hone : F.step 1 ∣ 1 := ⟨1, by rw [step_eq_one hlt]⟩
    exact le_nearest hpos hone (by omega)

theorem nearest_mul (hpos : 0 < denominator) (hbound : F.step bound ∣ bound) :
    F.nearest (denominator * bound) denominator = bound :=
  Nat.le_antisymm (nearest_le hpos hbound (Nat.le_refl _)) (le_nearest hpos hbound (Nat.le_refl _))

end Format

end Overprint.Number
