import Overprint.Failure
import Overprint.Number.Numeral

/-!
# Numbers in JSON texts

A number without point and exponent is whole if it fits in sixty-four bits. Any other becomes a
double: as many of its digits as fit in sixty-four bits, rounded, times or over a power of ten, and
rounded again. A number beyond the range of doubles is refused.
-/

namespace Overprint.Notation

open Number

-- Powers of natural numbers are those of core, whatever else is imported.
attribute [local instance (2000)] instPowNat

/-- A number of a JSON text. -/
inductive Numeric where
  | natural (value : Nat)
  | negative (value : Int)
  | double (value : Double)
deriving DecidableEq

namespace Numeric

/-- Takes up digits while the value fits in sixty-four bits; also says how many were taken. -/
def absorb (significand : Nat) : List Char → Nat × Nat
  | [] => (significand, 0)
  | digit :: digits =>
    let next := significand * 10 + (digit.toNat - '0'.toNat)
    if next < 0x10000000000000000 then
      let (significand, taken) := absorb next digits
      (significand, taken + 1)
    else (significand, 0)

/-- The greatest power of ten that is divided or multiplied by at once. -/
def greatestPower : Nat := 308

/-- A number over a power of ten. -/
def scaleDown (number : Double) (places : Nat) : Double :=
  if _h : places ≤ greatestPower then number / .ofNat (10 ^ places)
  else if number.equal 0.0 then number
  else scaleDown (number / .ofNat (10 ^ greatestPower)) (places - greatestPower)
termination_by places
decreasing_by
  simp only [greatestPower] at *
  omega

/-- A number times a power of ten, if that is finite. -/
def scale? (significand : Nat) (exponent : Int) : Option Double :=
  let number : Double := .ofNat significand
  if exponent < 0 then some (scaleDown number exponent.natAbs)
  else if exponent.natAbs ≤ greatestPower then
    let scaled := number * .ofNat (10 ^ exponent.natAbs)
    if scaled.isFinite then some scaled else none
  else if significand = 0 then some number
  else none

def signed (negative : Bool) (number : Double) : Double :=
  if negative then -number else number

def ofParts (negative : Bool) (significand : Nat) (exponent : Int) :
    Except NotationFault Numeric :=
  match scale? significand exponent with
  | some number => .ok (double (signed negative number))
  | none => .error .malformed

/-- The whole number of a significand, as a double if it is out of range or the negative zero. -/
def ofWhole (negative : Bool) (significand : Nat) : Numeric :=
  if !negative then natural significand
  else if 0 < significand ∧ significand ≤ 0x8000000000000000 then .negative (-significand)
  else double (-(.ofNat significand))

/-- What is missing where a digit has to stand. -/
def faultAt (cs : List Char) : NotationFault :=
  if cs = [] then .unfinished else .malformed

/-- How large a written exponent is taken as it is. -/
def exponentBound : Nat := 0x80000000

/-- The number with the exponent that starts after its mark. -/
def withExponent (negative : Bool) (significand : Nat) (exponent : Int) (cs : List Char) :
    Except NotationFault (Numeric × List Char) :=
  let (down, cs) := Numeral.splitSign cs
  let digits := cs.takeWhile Char.isDigit
  let rest := cs.dropWhile Char.isDigit
  if digits = [] then .error (faultAt cs)
  else
    let written := Numeral.digitsValue digits
    if written < exponentBound then do
      let total := if down then exponent - written else exponent + written
      return (← ofParts negative significand total, rest)
    else if significand ≠ 0 ∧ !down then .error .malformed
    else .ok (double (signed negative 0.0), rest)

/-- The number with what follows its digits before the point. -/
def afterWhole (negative : Bool) (significand skipped : Nat) (cs : List Char) :
    Except NotationFault (Numeric × List Char) :=
  let exponentOr (significand : Nat) (exponent : Int) (plain : Except NotationFault Numeric)
      (cs : List Char) : Except NotationFault (Numeric × List Char) :=
    match cs with
    | mark :: rest =>
      if mark = 'e' ∨ mark = 'E' then withExponent negative significand exponent rest
      else do return (← plain, cs)
    | [] => do return (← plain, cs)
  match cs with
  | '.' :: rest =>
    let digits := rest.takeWhile Char.isDigit
    let rest := rest.dropWhile Char.isDigit
    if digits = [] then .error (faultAt rest)
    else
      let (significand, taken) := absorb significand digits
      let exponent : Int := (skipped : Int) - taken
      exponentOr significand exponent (ofParts negative significand exponent) rest
  | _ =>
    let plain :=
      if skipped = 0 then .ok (ofWhole negative significand)
      else ofParts negative significand skipped
    exponentOr significand skipped plain cs

/-- The number at the start of a text after its sign, and what follows it. -/
def read (negative : Bool) (cs : List Char) : Except NotationFault (Numeric × List Char) :=
  let digits := cs.takeWhile Char.isDigit
  let rest := cs.dropWhile Char.isDigit
  match digits with
  | [] => .error (faultAt cs)
  | '0' :: _ :: _ => .error .malformed
  | _ =>
    let (significand, taken) := absorb 0 digits
    afterWhole negative significand (digits.length - taken) rest

end Numeric

end Overprint.Notation
