/-!
# Binary floating-point numbers

A finite number of a format is a whole number of the format's least unit, `2 ^ -scale`, with a sign.
In a binade the representable magnitudes lie `step` units apart, so that `precision` bits suffice.
Every operation computes the exact result as a quotient of natural numbers and rounds it once, to
the nearest representable magnitude and to the even one of two; `step_dvd_nearest` is why the result
is representable again, and only a magnitude past the format's width becomes infinite.
-/

namespace Overprint.Number

-- Powers of natural numbers are those of core, whatever else is imported.
attribute [local instance (2000)] instPowNat

/-- The shape of a binary format: significant bits, the exponent of the least unit negated, and the
bits of the greatest magnitude counted in that unit. -/
structure Format where
  precision : Nat
  scale : Nat
  width : Nat
  precision_pos : 0 < precision := by decide

namespace Format

def double : Format where
  precision := 53
  scale := 1074
  width := 2098

def single : Format where
  precision := 24
  scale := 149
  width := 277

/-- One, counted in units of the format. -/
def one (F : Format) : Nat :=
  2 ^ F.scale

/-- The distance of representable magnitudes in the binade of `units`. -/
def step (F : Format) (units : Nat) : Nat :=
  2 ^ (units.log2 + 1 - F.precision)

def Representable (F : Format) (units : Nat) : Prop :=
  units < 2 ^ F.width ∧ F.step units ∣ units

instance (F : Format) (units : Nat) : Decidable (F.Representable units) :=
  inferInstanceAs (Decidable (_ ∧ _))

end Format

/-- The quotient rounded to a whole number, a half going to the even neighbour. -/
def halfEven (numerator denominator : Nat) : Nat :=
  let whole := numerator / denominator
  let rest := numerator % denominator
  if 2 * rest < denominator ∨ (2 * rest = denominator ∧ whole % 2 = 0) then whole else whole + 1

theorem halfEven_le {numerator denominator bound : Nat} (hlt : numerator < denominator * bound) :
    halfEven numerator denominator ≤ bound := by
  have hdiv : numerator / denominator < bound := Nat.div_lt_of_lt_mul hlt
  simp only [halfEven]
  split <;> omega

namespace Format

/-- The representable magnitude nearest to a quotient, the even one of two, if the width of the
format allowed any magnitude. -/
def nearest (F : Format) (numerator denominator : Nat) : Nat :=
  let step := F.step (numerator / denominator)
  halfEven numerator (denominator * step) * step

theorem step_dvd_of_le {F : Format} {low high : Nat} (hle : low.log2 ≤ high.log2) :
    F.step low ∣ F.step high :=
  Nat.pow_dvd_pow 2 (by omega)

theorem step_pow_dvd (F : Format) (bits : Nat) : F.step (2 ^ bits) ∣ 2 ^ bits := by
  have := F.precision_pos
  unfold step
  rw [Nat.log2_two_pow]
  exact Nat.pow_dvd_pow 2 (by omega)

theorem step_dvd_nearest (F : Format) (numerator : Nat) {denominator : Nat}
    (hpos : 0 < denominator) :
    F.step (F.nearest numerator denominator) ∣ F.nearest numerator denominator := by
  let whole := numerator / denominator
  let binade := whole.log2 + 1
  have hwhole : whole < 2 ^ binade := Nat.lt_log2_self
  have hnum : numerator < denominator * 2 ^ binade := by
    rw [Nat.mul_comm]; exact (Nat.div_lt_iff_lt_mul hpos).1 hwhole
  have hbound : F.nearest numerator denominator ≤ 2 ^ binade := by
    have hsplit : 2 ^ binade = 2 ^ min binade F.precision * F.step whole := by
      unfold step; rw [← Nat.pow_add]; congr 1; omega
    have hle : halfEven numerator (denominator * F.step whole) ≤ 2 ^ min binade F.precision := by
      apply halfEven_le
      rw [Nat.mul_assoc, Nat.mul_comm (F.step whole), ← hsplit]
      exact hnum
    rw [hsplit]
    exact Nat.mul_le_mul_right _ hle
  rcases Nat.lt_or_eq_of_le hbound with hlt | heq
  · refine Nat.dvd_trans ?_ (Nat.dvd_mul_left _ _)
    apply step_dvd_of_le
    by_cases hzero : F.nearest numerator denominator = 0
    · rw [hzero, Nat.log2_zero]; exact Nat.zero_le _
    · exact Nat.le_of_lt_succ ((Nat.log2_lt hzero).2 hlt)
  · rw [heq]; exact F.step_pow_dvd binade

end Format

/-- A number of a binary format. Zero has a sign. -/
inductive Binary (F : Format) where
  | nan
  | infinite (negative : Bool)
  | finite (negative : Bool) (units : Nat) (representable : F.Representable units)
deriving DecidableEq

abbrev Double := Binary .double
abbrev Single := Binary .single

namespace Binary

variable {F : Format}

/-- The number nearest to a quotient counted in units of the format. -/
def round (negative : Bool) (numerator denominator : Nat) : Binary F :=
  if hpos : 0 < denominator then
    if hwidth : F.nearest numerator denominator < 2 ^ F.width then
      finite negative (F.nearest numerator denominator) ⟨hwidth, F.step_dvd_nearest _ hpos⟩
    else infinite negative
  else nan

def ofQuotient (negative : Bool) (numerator denominator : Nat) : Binary F :=
  round negative (numerator * F.one) denominator

def zero (negative : Bool) : Binary F :=
  finite negative 0 ⟨Nat.two_pow_pos _, Nat.dvd_zero _⟩

def ofNat (n : Nat) : Binary F :=
  ofQuotient false n 1

def ofInt (i : Int) : Binary F :=
  ofQuotient (i < 0) i.natAbs 1

/-- The same number in another format, rounded if it has no room there. -/
def convert {G : Format} : Binary F → Binary G
  | nan => nan
  | infinite negative => infinite negative
  | finite negative units _ => ofQuotient negative units F.one

def isFinite : Binary F → Bool
  | finite .. => true
  | _ => false

def isNegative : Binary F → Bool
  | nan => false
  | infinite negative => negative
  | finite negative .. => negative

/-- The value of a finite number, in units of the format. -/
def toUnits? : Binary F → Option Int
  | finite true units _ => some (-units)
  | finite false units _ => some units
  | _ => none

def neg : Binary F → Binary F
  | nan => nan
  | infinite negative => infinite !negative
  | finite negative units h => finite (!negative) units h

def abs : Binary F → Binary F
  | nan => nan
  | infinite _ => infinite false
  | finite _ units h => finite false units h

/-- The sum, exact before it is rounded. Two zeros add to the negative zero only if both are it, and
an exact cancellation gives the positive one. -/
def add : Binary F → Binary F → Binary F
  | nan, _ | _, nan => nan
  | infinite a, infinite b => if a = b then infinite a else nan
  | infinite a, finite .. => infinite a
  | finite .., infinite b => infinite b
  | finite a m _, finite b n _ =>
    if a = b then round a (m + n) 1
    else if n < m then round a (m - n) 1
    else if m < n then round b (n - m) 1
    else zero false

def sub (x y : Binary F) : Binary F :=
  add x (neg y)

def mul : Binary F → Binary F → Binary F
  | nan, _ | _, nan => nan
  | infinite a, infinite b => infinite (a != b)
  | infinite a, finite b n _ => if n = 0 then nan else infinite (a != b)
  | finite a m _, infinite b => if m = 0 then nan else infinite (a != b)
  | finite a m _, finite b n _ => round (a != b) (m * n) F.one

def div : Binary F → Binary F → Binary F
  | nan, _ | _, nan => nan
  | infinite _, infinite _ => nan
  | infinite a, finite b .. => infinite (a != b)
  | finite a .., infinite b => zero (a != b)
  | finite a m _, finite b n _ =>
    if n = 0 then if m = 0 then nan else infinite (a != b)
    else ofQuotient (a != b) m n

/-- How two numbers compare; not at all if one is not a number. The two zeros are equal. -/
def compare? : Binary F → Binary F → Option Ordering
  | nan, _ | _, nan => none
  | infinite a, infinite b => some (compare b a)
  | infinite a, finite .. => some (if a then .lt else .gt)
  | finite .., infinite b => some (if b then .gt else .lt)
  | finite a m _, finite b n _ =>
    let left : Int := if a then -m else m
    let right : Int := if b then -n else n
    some (compare left right)

/-- Numeric equality: what `compare?` calls equal. -/
def equal (x y : Binary F) : Bool :=
  x.compare? y == some .eq

def less (x y : Binary F) : Bool :=
  x.compare? y == some .lt

/-- The least whole number not below, at least zero; zero for what is not a number. -/
def ceilNat : Binary F → Nat
  | finite false units _ => (units + F.one - 1) / F.one
  | _ => 0

/-- The whole number that is left of a finite number without its fraction. -/
def truncate? (x : Binary F) : Option Int :=
  x.toUnits?.map (·.tdiv F.one)

instance : Add (Binary F) := ⟨add⟩
instance : Sub (Binary F) := ⟨sub⟩
instance : Mul (Binary F) := ⟨mul⟩
instance : Div (Binary F) := ⟨div⟩
instance : Neg (Binary F) := ⟨neg⟩

instance : OfScientific (Binary F) where
  ofScientific mantissa down places :=
    if down then ofQuotient false mantissa (10 ^ places)
    else ofQuotient false (mantissa * 10 ^ places) 1

end Binary

end Overprint.Number
