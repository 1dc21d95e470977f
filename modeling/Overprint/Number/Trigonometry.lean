import Overprint.Number.Binary

/-!
# Sine and cosine

Both are computed on whole numbers that count a unit far below the least number of the format: the
angle is reduced by a quarter turn known to as many places as the largest angle needs, the power
series is summed, and the sum is rounded once. The spare places are so many that the rounding is
that of the exact value, unless that value agrees with a midpoint of two numbers in some hundred
bits.
-/

namespace Overprint.Number.Trigonometry

-- Powers of natural numbers are those of core, whatever else is imported.
attribute [local instance (2000)] instPowNat

/-- The places after the binary point of every quantity below. -/
def places : Nat := 2560

/-- The alternating series of the inverse cotangent of `x`, from its term number `k` on. -/
def arcCotangent (x : Nat) : (terms k power : Nat) → Int
  | 0, _, _ => 0
  | terms + 1, k, power =>
    (power / (2 * k + 1) : Nat) - arcCotangent x terms (k + 1) (power / (x * x))

/-- More places while a quarter turn is computed. -/
def sparePlaces : Nat := 32

/-- A quarter turn, `pi / 2`, by Machin's formula. -/
def quarterTurn : Nat :=
  let one : Nat := 2 ^ (places + sparePlaces)
  let quarterPi := 4 * arcCotangent 5 600 0 (one / 5) - arcCotangent 239 200 0 (one / 239)
  let spare : Nat := 2 ^ sparePlaces
  (2 * quarterPi).toNat / spare

/-- The alternating power series whose next term is `term`, with the exponent `degree`; the
successor of a term is the term times the square of the angle over the next two whole numbers. -/
def series (square : Nat) : (terms degree term : Nat) → Int
  | 0, _, _ => 0
  | terms + 1, degree, term =>
    term - series square terms (degree + 2)
      (term * square / 2 ^ (2 * places) / ((degree + 1) * (degree + 2)))

def sineSeries (angle : Nat) : Int :=
  series (angle * angle) 240 1 angle

def cosineSeries (angle : Nat) : Int :=
  series (angle * angle) 240 0 (2 ^ places)

/-- Sine of a magnitude moved on by some quarter turns. -/
def shiftedSine (magnitude quarters : Nat) : Int :=
  let turns := magnitude / quarterTurn
  let angle := magnitude % quarterTurn
  match (turns + quarters) % 4 with
  | 0 => sineSeries angle
  | 1 => cosineSeries angle
  | 2 => -sineSeries angle
  | _ => -cosineSeries angle

variable {F : Format}

/-- The number nearest to a count of the unit `2 ^ -places`. -/
def ofPlaces (value : Int) : Binary F :=
  Binary.ofQuotient (value < 0) value.natAbs (2 ^ places)

/-- A magnitude of the format counted in the unit `2 ^ -places`. -/
def toPlaces (F : Format) (units : Nat) : Nat :=
  units * 2 ^ places / F.one

def sin : Binary F → Binary F
  | .finite negative units h =>
    if units = 0 then .finite negative units h
    else
      let value := shiftedSine (toPlaces F units) 0
      ofPlaces (if negative then -value else value)
  | _ => .nan

def cos : Binary F → Binary F
  | .finite _ units _ => ofPlaces (shiftedSine (toPlaces F units) 1)
  | _ => .nan

end Overprint.Number.Trigonometry
