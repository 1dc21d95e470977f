import Overprint.Number.Scalar
import Overprint.Proofs.Number.Rounding

/-!
# Magnitudes

How great a number can be, counted in the least unit of its format. A bound on the operands of an
operation gives one on its result, as long as that is representable; then nothing becomes infinite
on the way, and nothing is divided by zero.
-/

namespace Overprint.Number

-- Powers of natural numbers are those of core, whatever else is imported.
attribute [local instance (2000)] instPowNat

namespace Format

variable {F : Format}

theorem one_pos (F : Format) : 0 < F.one :=
  Nat.two_pow_pos _

theorem step_dvd_of_lt {units : Nat} (hlt : units < 2 ^ F.precision) (bits : Nat) :
    F.step (units * 2 ^ bits) ∣ units * 2 ^ bits :=
  step_dvd_mul_two_pow (F := F) ⟨units, by rw [step_eq_one hlt, Nat.one_mul]⟩ (Nat.le_refl _) bits

/-- A format of a usual shape has the whole numbers that its precision is enough for. -/
theorem representable_mul_one {n : Nat} (hlt : n < 2 ^ F.precision)
    (hroom : F.precision + F.scale ≤ F.width) : F.Representable (n * F.one) := by
  refine ⟨?_, step_dvd_of_lt hlt F.scale⟩
  calc n * F.one
    _ < 2 ^ F.precision * F.one := Nat.mul_lt_mul_of_pos_right hlt F.one_pos
    _ = 2 ^ (F.precision + F.scale) := (Nat.pow_add ..).symm
    _ ≤ 2 ^ F.width := Nat.pow_le_pow_right (by decide) hroom

theorem representable_two_pow {bits : Nat} (hbits : bits < F.width) : F.Representable (2 ^ bits) :=
  ⟨Nat.pow_lt_pow_right (by decide) hbits, F.step_pow_dvd bits⟩

/-- A wider format has the magnitudes of another one with more bits below. -/
theorem Representable.mul_two_pow {G : Format} {units bits : Nat} (h : F.Representable units)
    (hprecision : F.precision ≤ G.precision) (hwidth : F.width + bits ≤ G.width) :
    G.Representable (units * 2 ^ bits) := by
  refine ⟨?_, step_dvd_mul_two_pow h.2 hprecision bits⟩
  calc units * 2 ^ bits
    _ < 2 ^ F.width * 2 ^ bits := Nat.mul_lt_mul_of_pos_right h.1 (Nat.two_pow_pos bits)
    _ = 2 ^ (F.width + bits) := (Nat.pow_add ..).symm
    _ ≤ 2 ^ G.width := Nat.pow_le_pow_right (by decide) hwidth

end Format

namespace Binary

variable {F : Format} {x y : Binary F} {bound left right : Nat}

def AtMost (bound : Nat) : Binary F → Prop
  | finite _ units _ => units ≤ bound
  | _ => False

def AtLeast (bound : Nat) : Binary F → Prop
  | finite _ units _ => bound ≤ units
  | _ => False

instance (bound : Nat) : DecidablePred (AtMost bound : Binary F → Prop)
  | finite _ units _ => inferInstanceAs (Decidable (units ≤ bound))
  | nan => .isFalse id
  | infinite _ => .isFalse id

instance (bound : Nat) : DecidablePred (AtLeast bound : Binary F → Prop)
  | finite _ units _ => inferInstanceAs (Decidable (bound ≤ units))
  | nan => .isFalse id
  | infinite _ => .isFalse id

theorem AtMost.exists_eq (hx : x.AtMost bound) :
    ∃ negative units h, x = finite negative units h ∧ units ≤ bound := by
  cases x with
  | finite negative units h => exact ⟨negative, units, h, rfl, hx⟩
  | nan | infinite => exact hx.elim

theorem AtMost.mono (hx : x.AtMost left) (hle : left ≤ right) : x.AtMost right := by
  cases x with
  | finite negative units h => exact Nat.le_trans hx hle
  | nan | infinite => exact hx

theorem AtLeast.exists_eq (hx : x.AtLeast bound) :
    ∃ negative units h, x = finite negative units h ∧ bound ≤ units := by
  cases x with
  | finite negative units h => exact ⟨negative, units, h, rfl, hx⟩
  | nan | infinite => exact hx.elim

theorem AtMost.isFinite (hx : x.AtMost bound) : x.isFinite = true := by
  obtain ⟨negative, units, h, rfl, -⟩ := hx.exists_eq
  rfl

section Rounding

variable {negative : Bool} {numerator denominator : Nat}

theorem round_atMost (hpos : 0 < denominator) (hbound : F.Representable bound)
    (hle : numerator ≤ denominator * bound) :
    (round negative numerator denominator : Binary F).AtMost bound := by
  have hnearest := Format.nearest_le hpos hbound.2 hle
  rw [round, dif_pos hpos, dif_pos (Nat.lt_of_le_of_lt hnearest hbound.1)]
  exact hnearest

theorem round_of_nearest (hpos : 0 < denominator) (h : F.Representable bound)
    (hnearest : F.nearest numerator denominator = bound) :
    (round negative numerator denominator : Binary F) = finite negative bound h := by
  subst hnearest
  rw [round, dif_pos hpos, dif_pos h.1]

theorem round_mul (hpos : 0 < denominator) (h : F.Representable bound) :
    (round negative (denominator * bound) denominator : Binary F) = finite negative bound h :=
  round_of_nearest hpos h (Format.nearest_mul hpos h.2)

theorem round_atLeast (hfinite : (round negative numerator denominator : Binary F).isFinite = true)
    (hnearest : bound ≤ F.nearest numerator denominator) :
    (round negative numerator denominator : Binary F).AtLeast bound := by
  rw [round] at hfinite ⊢
  split
  next hpos =>
    rw [dif_pos hpos] at hfinite
    split
    next => exact hnearest
    next hwidth =>
      rw [dif_neg hwidth] at hfinite
      cases hfinite
  next hpos =>
    rw [dif_neg hpos] at hfinite
    cases hfinite

theorem ofNat_eq {n : Nat} (h : F.Representable (n * F.one)) :
    (ofNat n : Binary F) = finite false (n * F.one) h := by
  have hround : (round false (1 * (n * F.one)) 1 : Binary F) = finite false (n * F.one) h :=
    round_mul Nat.one_pos h
  rwa [Nat.one_mul] at hround

theorem div_finite {a b : Bool} {m n : Nat} {hm : F.Representable m} {hn : F.Representable n}
    (hzero : n ≠ 0) :
    (finite a m hm / finite b n hn : Binary F) = round (a != b) (m * F.one) n := by
  show Binary.div _ _ = _
  rw [Binary.div, if_neg hzero, ofQuotient]

end Rounding

namespace AtMost

theorem neg (hx : x.AtMost bound) : (-x).AtMost bound := by
  obtain ⟨negative, units, h, rfl, hle⟩ := hx.exists_eq
  exact hle

theorem abs (hx : x.AtMost bound) : x.abs.AtMost bound := by
  obtain ⟨negative, units, h, rfl, hle⟩ := hx.exists_eq
  exact hle

theorem add (hx : x.AtMost left) (hy : y.AtMost right) (hbound : F.Representable bound)
    (hle : left + right ≤ bound) : (x + y).AtMost bound := by
  obtain ⟨a, m, hm, rfl, hleft⟩ := hx.exists_eq
  obtain ⟨b, n, hn, rfl, hright⟩ := hy.exists_eq
  show (Binary.add (finite a m hm) (finite b n hn)).AtMost bound
  rw [Binary.add]
  split
  · exact round_atMost (by decide) hbound (by omega)
  · split
    · exact round_atMost (by decide) hbound (by omega)
    · split
      · exact round_atMost (by decide) hbound (by omega)
      · exact Nat.zero_le _

theorem mul (hx : x.AtMost left) (hy : y.AtMost right) (hbound : F.Representable bound)
    (hle : left * right ≤ F.one * bound) : (x * y).AtMost bound := by
  obtain ⟨a, m, hm, rfl, hleft⟩ := hx.exists_eq
  obtain ⟨b, n, hn, rfl, hright⟩ := hy.exists_eq
  exact round_atMost F.one_pos hbound (Nat.le_trans (Nat.mul_le_mul hleft hright) hle)

theorem div (hx : x.AtMost left) (hy : y.AtLeast right) (hpos : 0 < right)
    (hbound : F.Representable bound) (hle : left * F.one ≤ right * bound) :
    (x / y).AtMost bound := by
  obtain ⟨a, m, hm, rfl, hleft⟩ := hx.exists_eq
  obtain ⟨b, n, hn, rfl, hright⟩ := hy.exists_eq
  rw [div_finite (by omega)]
  refine round_atMost (by omega) hbound ?_
  calc m * F.one
    _ ≤ left * F.one := Nat.mul_le_mul_right _ hleft
    _ ≤ right * bound := hle
    _ ≤ n * bound := Nat.mul_le_mul_right _ hright

theorem mul_zero (hx : x.AtMost left) (hy : y.AtMost 0) : (x * y).AtMost 0 :=
  hx.mul hy ⟨Nat.two_pow_pos _, Nat.dvd_zero _⟩ (Nat.le_refl _)

theorem zero_div (hx : x.AtMost 0) (hy : y.AtLeast 1) : (x / y).AtMost 0 :=
  hx.div hy Nat.one_pos ⟨Nat.two_pow_pos _, Nat.dvd_zero _⟩ (Nat.le_of_eq (Nat.zero_mul _))

end AtMost

namespace AtLeast

theorem le_of_atMost (hx : x.AtLeast left) (hx' : x.AtMost right) : left ≤ right := by
  obtain ⟨negative, units, h, rfl, hle⟩ := hx.exists_eq
  exact Nat.le_trans hle hx'

theorem of_not_atMost (hfinite : x.isFinite = true) (hx : ¬ x.AtMost bound) :
    x.AtLeast (bound + 1) := by
  cases x with
  | nan | infinite => cases hfinite
  | finite negative units h => exact Nat.lt_of_not_le hx

theorem neg (hx : x.AtLeast bound) : (-x).AtLeast bound := by
  obtain ⟨negative, units, h, rfl, hle⟩ := hx.exists_eq
  exact hle

theorem mono (hx : x.AtLeast left) (hle : right ≤ left) : x.AtLeast right := by
  obtain ⟨negative, units, h, rfl, hunits⟩ := hx.exists_eq
  exact Nat.le_trans hle hunits

theorem mul (hx : x.AtLeast left) (hy : y.AtLeast right) (hfinite : (x * y).isFinite = true)
    (hbound : F.step bound ∣ bound) (hle : F.one * bound ≤ left * right) :
    (x * y).AtLeast bound := by
  obtain ⟨a, m, hm, rfl, hleft⟩ := hx.exists_eq
  obtain ⟨b, n, hn, rfl, hright⟩ := hy.exists_eq
  refine round_atLeast hfinite (Format.le_nearest F.one_pos hbound ?_)
  exact Nat.le_trans hle (Nat.mul_le_mul hleft hright)

theorem div (hx : x.AtLeast left) (hy : y.AtMost right) (hzero : y.AtLeast 1)
    (hfinite : (x / y).isFinite = true) (hbound : F.step bound ∣ bound)
    (hle : right * bound ≤ left * F.one) : (x / y).AtLeast bound := by
  obtain ⟨a, m, hm, rfl, hleft⟩ := hx.exists_eq
  obtain ⟨b, n, hn, rfl, hright⟩ := hy.exists_eq
  have hpos : 0 < n := hzero
  rw [div_finite (Nat.ne_of_gt hpos)] at hfinite ⊢
  refine round_atLeast hfinite (Format.le_nearest hpos hbound ?_)
  calc n * bound
    _ ≤ right * bound := Nat.mul_le_mul_right _ hright
    _ ≤ left * F.one := hle
    _ ≤ m * F.one := Nat.mul_le_mul_right _ hleft

end AtLeast

/-- A finite number of at most `2 ^ bits`. -/
def Within (bits : Nat) (x : Binary F) : Prop :=
  x.AtMost (2 ^ (F.scale + bits))

instance (bits : Nat) : DecidablePred (Within bits : Binary F → Prop) :=
  fun x => inferInstanceAs (Decidable (x.AtMost _))

namespace Within

variable {bits wider : Nat}

theorem mono (hx : x.Within bits) (hle : bits ≤ wider) : x.Within wider :=
  AtMost.mono hx (Nat.pow_le_pow_right (by decide) (by omega))

theorem neg (hx : x.Within bits) : (-x).Within bits :=
  AtMost.neg hx

theorem abs (hx : x.Within bits) : x.abs.Within bits :=
  AtMost.abs hx

theorem add (hx : x.Within bits) (hy : y.Within bits) (hroom : F.scale + (bits + 1) < F.width) :
    (x + y).Within (bits + 1) := by
  refine AtMost.add hx hy (Format.representable_two_pow hroom) ?_
  rw [← Nat.add_assoc, Nat.pow_succ]
  omega

theorem sub (hx : x.Within bits) (hy : y.Within bits) (hroom : F.scale + (bits + 1) < F.width) :
    (x - y).Within (bits + 1) :=
  hx.add hy.neg hroom

theorem mul (hx : x.Within left) (hy : y.Within right)
    (hroom : F.scale + (left + right) < F.width) :
    (x * y).Within (left + right) := by
  refine AtMost.mul hx hy (Format.representable_two_pow hroom) (Nat.le_of_eq ?_)
  rw [Format.one, ← Nat.pow_add, ← Nat.pow_add]
  congr 1
  omega

/-- A quotient is as much greater as the divisor is smaller than one. -/
theorem div_small {low : Nat} (hx : x.Within bits) (hy : y.AtLeast (2 ^ (F.scale - low)))
    (hlow : low ≤ F.scale) (hroom : F.scale + (bits + low) < F.width) :
    (x / y).Within (bits + low) := by
  refine AtMost.div hx hy (Nat.two_pow_pos _) (Format.representable_two_pow hroom) ?_
  refine Nat.le_of_eq ?_
  rw [Format.one, ← Nat.pow_add, ← Nat.pow_add]
  congr 1
  omega

theorem div (hx : x.Within bits) (hy : y.AtLeast F.one) (hroom : F.scale + bits < F.width) :
    (x / y).Within bits :=
  div_small hx (show y.AtLeast (2 ^ (F.scale - 0)) from hy) (Nat.zero_le _) hroom

end Within

section Whole

variable {n bits : Nat} (h : F.Representable (n * F.one))

include h

theorem whole_within {negative : Bool} (hle : n ≤ 2 ^ bits) :
    (finite negative (n * F.one) h).Within bits := by
  have hscaled := Nat.mul_le_mul_right F.one hle
  rwa [Format.one, ← Nat.pow_add, Nat.add_comm bits] at hscaled

/-- A whole number as it is written, with a zero behind the point. -/
theorem literal_eq :
    (OfScientific.ofScientific (10 * n) true 1 : Binary F) = finite false (n * F.one) h := by
  show ofQuotient false (10 * n) (10 ^ 1) = _
  rw [ofQuotient, Nat.pow_one, Nat.mul_assoc]
  exact round_mul (by decide) h

theorem ofNat_within (hle : n ≤ 2 ^ bits) : (ofNat n : Binary F).Within bits := by
  rw [ofNat_eq h]
  exact whole_within h hle

theorem ofNat_atLeast (hpos : 0 < n) : (ofNat n : Binary F).AtLeast F.one := by
  rw [ofNat_eq h]
  exact Nat.le_mul_of_pos_left _ hpos

end Whole

section Convert

variable {G : Format} {bits spare units : Nat} {negative : Bool}

theorem Within.convert (hx : x.Within bits) (hroom : G.scale + bits < G.width) :
    (x.convert : Binary G).Within bits := by
  obtain ⟨negative, units, h, rfl, hle⟩ := AtMost.exists_eq hx
  refine round_atMost F.one_pos (Format.representable_two_pow hroom) ?_
  refine Nat.le_trans (Nat.mul_le_mul_right _ hle) (Nat.le_of_eq ?_)
  rw [Format.one, Format.one, ← Nat.pow_add, ← Nat.pow_add]
  congr 1
  omega

/-- A number that is too great for the other format is not finite there. -/
theorem isFinite_convert_of_atLeast (hx : x.AtLeast (2 ^ (F.scale + bits)))
    (hgreat : G.width ≤ G.scale + bits) : (x.convert : Binary G).isFinite = false := by
  obtain ⟨negative, units, h, rfl, hle⟩ := AtLeast.exists_eq hx
  have hscaled : F.one * 2 ^ (G.scale + bits) ≤ units * G.one := by
    refine Nat.le_trans (Nat.le_of_eq ?_) (Nat.mul_le_mul_right _ hle)
    rw [Format.one, Format.one, ← Nat.pow_add, ← Nat.pow_add]
    congr 1
    omega
  have hnearest := Format.le_nearest F.one_pos (G.step_pow_dvd _) hscaled
  have hwidth : ¬ G.nearest (units * G.one) F.one < 2 ^ G.width :=
    Nat.not_lt_of_le (Nat.le_trans (Nat.pow_le_pow_right (by decide) hgreat) hnearest)
  rw [convert, ofQuotient, round, dif_pos F.one_pos, dif_neg hwidth]
  rfl

theorem convert_to_finer (hscale : G.scale = F.scale + spare) {h : F.Representable units}
    (h' : G.Representable (units * 2 ^ spare)) :
    ((finite negative units h).convert : Binary G) = finite negative (units * 2 ^ spare) h' := by
  have hone : units * G.one = F.one * (units * 2 ^ spare) := by
    rw [Format.one, Format.one, hscale, Nat.pow_add, Nat.mul_left_comm]
  rw [convert, ofQuotient, hone, round_mul F.one_pos]

theorem convert_to_coarser (hscale : F.scale = G.scale + spare)
    {h : F.Representable (units * 2 ^ spare)} (h' : G.Representable units) :
    ((finite negative (units * 2 ^ spare) h).convert : Binary G) = finite negative units h' := by
  have hone : units * 2 ^ spare * G.one = F.one * units := by
    rw [Format.one, Format.one, hscale, Nat.pow_add, Nat.mul_assoc, Nat.mul_comm,
      Nat.mul_comm (2 ^ spare)]
  rw [convert, ofQuotient, hone, round_mul F.one_pos]

/-- A format that is finer and wider has every number of the other one. -/
theorem convert_convert (hscale : G.scale = F.scale + spare)
    (hprecision : F.precision ≤ G.precision)
    (hwidth : F.width + spare ≤ G.width) (hx : x.isFinite = true) :
    ((x.convert : Binary G).convert : Binary F) = x := by
  cases x with
  | nan | infinite => cases hx
  | finite negative units h =>
    have hfiner : G.Representable (units * 2 ^ spare) := h.mul_two_pow hprecision hwidth
    rw [convert_to_finer hscale hfiner, convert_to_coarser hscale h]

end Convert

section Comparison

variable {i j : Int}

theorem exists_toUnits? (hx : x.isFinite = true) :
    ∃ i : Int, x.toUnits? = some i ∧ ∀ bound, x.AtMost bound ↔ i.natAbs ≤ bound := by
  cases x with
  | nan | infinite => cases hx
  | finite negative units h =>
    cases negative
    · exact ⟨units, rfl, fun _ => .rfl⟩
    · refine ⟨-units, rfl, fun bound => ?_⟩
      rw [Int.natAbs_neg]
      rfl

theorem compare?_of_units (hx : x.toUnits? = some i) (hy : y.toUnits? = some j) :
    x.compare? y = some (compare i j) := by
  cases x with
  | nan | infinite => cases hx
  | finite a m hm =>
    cases y with
    | nan | infinite => cases hy
    | finite b n hn => cases a <;> cases b <;> cases hx <;> cases hy <;> rfl

theorem less_iff (hx : x.toUnits? = some i) (hy : y.toUnits? = some j) :
    x.less y = true ↔ i < j := by
  rw [less, compare?_of_units hx hy, beq_iff_eq, Option.some.injEq, Int.compare_eq_lt]

theorem equal_iff (hx : x.toUnits? = some i) (hy : y.toUnits? = some j) :
    x.equal y = true ↔ i = j := by
  rw [equal, compare?_of_units hx hy, beq_iff_eq, Option.some.injEq, Int.compare_eq_eq]

end Comparison

section Nan

theorem nan_mul (x : Binary F) : nan * x = nan := by cases x <;> rfl

theorem mul_nan (x : Binary F) : x * nan = nan := by cases x <;> rfl

theorem zero_div_zero (hx : x.AtMost 0) (hy : y.AtMost 0) : x / y = nan := by
  obtain ⟨a, m, hm, rfl, hleft⟩ := hx.exists_eq
  obtain ⟨b, n, hn, rfl, hright⟩ := hy.exists_eq
  obtain rfl := Nat.le_zero.1 hleft
  obtain rfl := Nat.le_zero.1 hright
  rfl

theorem add_nan (x : Binary F) : x + nan = nan := by cases x <;> rfl

theorem sub_nan (x : Binary F) : x - nan = nan := add_nan x

end Nan

end Binary

end Overprint.Number
