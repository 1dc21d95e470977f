import Overprint.BitCode
import Overprint.Bytes

/-!
# Tables of JPEG files

A decoder works with two sorts of tables: divisors for the coefficients of a block, and codes for
symbols. A segment defines one table after the other. Of the divisors only where they are defined
matters here.
-/

namespace Overprint.Jpeg

open Bytes

-- Powers of natural numbers are those of core, whatever else is imported.
attribute [local instance (2000)] instPowNat

def tableLimit : Nat := 4

/-- The half bytes of a number below 256. -/
def halves (byte : Nat) : Nat × Nat :=
  (byte / 0x10, byte % 0x10)

/-- The positions of the tables of divisors in a segment from a place on; at most so many. A table is
64 numbers of one or two bytes each. -/
def divisors? (body : ByteArray) : (bound start : Nat) → Option (List Nat)
  | 0, _ => none
  | bound + 1, start => do
    if body.size ≤ start then return []
    let (width, position) := halves (← byte? body start)
    let stop := start + 1 + 64 * (width + 1)
    if 1 < width ∨ tableLimit ≤ position ∨ body.size < stop then none
    return position :: (← divisors? body bound stop)

/-- Whether so many codes of each length, from one on, leave the code of ones free at every length.
The codes of a length go on where those of the one before ended. -/
def leavesCode (length code : Nat) : List Nat → Bool
  | [] => true
  | count :: rest =>
    let next := 2 * code + count
    next < 2 ^ length && leavesCode (length + 1) next rest

/-- What a code is for. -/
inductive CodeUse where
  | direct
  | alternating
deriving DecidableEq

def CodeUse.symbolLimit : CodeUse → Nat
  | direct => 15
  | alternating => 255

def codeUse? : Nat → Option CodeUse
  | 0 => some .direct
  | 1 => some .alternating
  | _ => none

def lengthCount : Nat := 16

def symbolCount : Nat := 256

/-- The codes in a segment from a place on, with their uses and positions; at most so many. A code is
given by the number of its symbols of each length, and by its symbols. -/
def codes? (body : ByteArray) : (bound start : Nat) → Option (List ((CodeUse × Nat) × BitCode))
  | 0, _ => none
  | bound + 1, start => do
    if body.size ≤ start then return []
    let (use, position) := halves (← byte? body start)
    let use ← codeUse? use
    let counts ← (List.range lengthCount).mapM fun index => byte? body (start + 1 + index)
    let first := start + 1 + lengthCount
    let size := counts.sum
    let symbols ← (List.range size).mapM fun index => byte? body (first + index)
    if tableLimit ≤ position ∨ symbolCount < size ∨ !leavesCode 1 0 counts ∨
        symbols.any (use.symbolLimit < ·) then none
    return ((use, position), .ofCounts counts symbols) :: (← codes? body bound (first + size))

end Overprint.Jpeg
