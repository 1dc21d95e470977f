import Overprint.Number.Binary

/-!
# Numbers as they are written

A numeral is an optional sign, decimal digits with at most one point among or beside them, and an
optional power of ten; or the word for infinity or for what is not a number, in any case. Reading
keeps it exact, and rounding it to a binary format is a step of its own.
-/

namespace Overprint.Number

-- Powers of natural numbers are those of core, whatever else is imported.
attribute [local instance (2000)] instPowNat

/-- A written number: `digits * 10 ^ exponent` with a sign, or one of the words. -/
inductive Numeral where
  | nan
  | infinite (negative : Bool)
  | decimal (negative : Bool) (digits : Nat) (exponent : Int)
deriving DecidableEq

namespace Numeral

def splitSign : List Char → Bool × List Char
  | '-' :: rest => (true, rest)
  | '+' :: rest => (false, rest)
  | rest => (false, rest)

def digitsValue (cs : List Char) : Nat :=
  cs.foldl (fun value c => value * 10 + (c.toNat - '0'.toNat)) 0

/-- A nonempty list of decimal digits and nothing else. -/
def natural? (cs : List Char) : Option Nat :=
  if cs ≠ [] ∧ cs.all Char.isDigit then some (digitsValue cs) else none

/-- A whole number with an optional sign. -/
def integer? (cs : List Char) : Option Int :=
  let (negative, rest) := splitSign cs
  (natural? rest).map fun value => if negative then -(value : Int) else value

def hexDigit? (c : Char) : Option Nat :=
  if c.isDigit then some (c.toNat - '0'.toNat)
  else if 'a' ≤ c ∧ c ≤ 'f' then some (c.toNat - 'a'.toNat + 10)
  else if 'A' ≤ c ∧ c ≤ 'F' then some (c.toNat - 'A'.toNat + 10)
  else none

/-- What may follow the digits: nothing, or a power of ten. -/
def exponent? : List Char → Option Int
  | [] => some 0
  | mark :: rest => if mark = 'e' ∨ mark = 'E' then integer? rest else none

def unsigned? (negative : Bool) (cs : List Char) : Option Numeral :=
  let word := cs.map Char.toLower
  if word = "nan".toList then some nan
  else if word = "inf".toList ∨ word = "infinity".toList then some (infinite negative)
  else
    let whole := cs.takeWhile Char.isDigit
    let rest := cs.dropWhile Char.isDigit
    let (fraction, tail) := match rest with
      | '.' :: after => (after.takeWhile Char.isDigit, after.dropWhile Char.isDigit)
      | _ => ([], rest)
    if whole = [] ∧ fraction = [] then none
    else (exponent? tail).map fun exponent =>
      decimal negative (digitsValue (whole ++ fraction)) (exponent - fraction.length)

/-- The numeral that the characters spell, blanks not allowed. -/
def read? (cs : List Char) : Option Numeral :=
  let (negative, rest) := splitSign cs
  unsigned? negative rest

end Numeral

namespace Binary

variable {F : Format}

/-- The number nearest to a numeral. As ten is more than three doublings, a power of ten far out of
the format's range decides the result before it is computed. -/
def ofNumeral : Numeral → Binary F
  | .nan => nan
  | .infinite negative => infinite negative
  | .decimal negative digits exponent =>
    if digits = 0 then zero negative
    else if 0 ≤ exponent then
      if F.width ≤ digits.log2 + 3 * exponent.natAbs then infinite negative
      else ofQuotient negative (digits * 10 ^ exponent.natAbs) 1
    else if digits.log2 + F.scale + 2 ≤ 3 * exponent.natAbs then zero negative
    else ofQuotient negative digits (10 ^ exponent.natAbs)

/-- The number that the characters spell, if they are a numeral. -/
def read? (cs : List Char) : Option (Binary F) :=
  (Numeral.read? cs).map ofNumeral

end Binary

end Overprint.Number
