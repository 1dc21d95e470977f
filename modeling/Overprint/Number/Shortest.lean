import Overprint.Number.Binary

/-!
# The shortest text of a number

A number is written with the fewest decimal digits that read back as it, the nearest such number if
there are several, and the greater of two equally near. All digits are written in place: there is
never a power of ten.

Counted in units of `10 ^ -scale`, a finite number of a format is the whole number
`units * 5 ^ scale`, so the search for the digits is one over grids of whole numbers, from the
coarsest to the grid of ones, which contains the number itself.
-/

namespace Overprint.Number

-- Powers of natural numbers are those of core, whatever else is imported.
attribute [local instance (2000)] instPowNat

/-- The numbers that round to a magnitude, as an interval, all in quarters of the unit
`10 ^ -scale`. The ends belong to it if the magnitude is an even multiple of its step. -/
structure Basin where
  centre : Nat
  low : Nat
  high : Nat
  closed : Bool

namespace Basin

def contains (basin : Basin) (quarters : Nat) : Bool :=
  if basin.closed then basin.low ≤ quarters && quarters ≤ basin.high
  else basin.low < quarters && quarters < basin.high

/-- The basin of a positive magnitude. Below a power of two the neighbour is half as far, unless
the powers of two end there. -/
def ofUnits (F : Format) (units : Nat) : Basin :=
  let step := F.step units
  let below := if units = 2 ^ units.log2 ∧ F.precision ≤ units.log2 then step else 2 * step
  let ten := 5 ^ F.scale
  { centre := 4 * units * ten
    low := (4 * units - below) * ten
    high := (4 * units + 2 * step) * ten
    closed := units / step % 2 = 0 }

/-- The digits of the coarsest grid `10 ^ place` with a point in the basin, from the given place
down, and that place. -/
def search (basin : Basin) : Nat → Nat × Nat
  | 0 => (basin.centre / 4, 0)
  | place + 1 =>
    let grid := 4 * 10 ^ (place + 1)
    let down := basin.centre / grid
    let up := down + 1
    match basin.contains (down * grid), basin.contains (up * grid) with
    | true, true =>
      if up * grid - basin.centre ≤ basin.centre - down * grid then (up, place + 1)
      else (down, place + 1)
    | true, false => (down, place + 1)
    | false, true => (up, place + 1)
    | false, false => basin.search place

end Basin

/-- Decimal digits with the point so many places from their end. -/
def positional (digits : Nat) (places : Nat) : List Char :=
  let written := Nat.toDigits 10 digits
  if places = 0 then written
  else
    let padded := List.replicate (places + 1 - written.length) '0' ++ written
    let whole := padded.length - places
    padded.take whole ++ '.' :: padded.drop whole

def magnitudeText (F : Format) (units : Nat) : List Char :=
  if units = 0 then ['0']
  else
    let basin := Basin.ofUnits F units
    let (digits, place) := basin.search (Nat.toDigits 10 basin.centre).length
    if F.scale ≤ place then positional (digits * 10 ^ (place - F.scale)) 0
    else positional digits (F.scale - place)

namespace Binary

variable {F : Format}

def text : Binary F → String
  | nan => "NaN"
  | infinite negative => if negative then "-inf" else "inf"
  | finite negative units _ =>
    String.ofList ((if negative then ['-'] else []) ++ magnitudeText F units)

instance : ToString (Binary F) := ⟨text⟩

end Binary

end Overprint.Number
