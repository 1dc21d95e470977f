import Overprint.BitCode

/-!
# Reading packed bits

Packed data is read bit by bit. Numbers start with their least significant bit, the strings of a code
do not.
-/

namespace Overprint.Pdf

/-- Why packed data cannot be read on: there is no more of it, or it makes no sense. -/
inductive PackingFault where
  | exhausted
  | malformed
deriving DecidableEq

/-- Reads from the front of a string of bits. -/
abbrev BitReader := StateT (List Bool) (Except PackingFault)

namespace BitReader

def bitsOf (byte : UInt8) : List Bool :=
  (List.range 8).map byte.toNat.testBit

def bit : BitReader Bool := do
  match ← get with
  | [] => throw .exhausted
  | first :: rest =>
    set rest
    return first

def number : Nat → BitReader Nat
  | 0 => return 0
  | count + 1 => do
    let first ← bit
    return first.toNat + 2 * (← number count)

/-- Passes over what is left of the byte that was begun. -/
def skipToByte : BitReader Unit :=
  modify fun data => data.drop (data.length % 8)

def symbol (code : BitCode) : BitReader Nat :=
  code.symbol bit (throw .malformed)

end BitReader

end Overprint.Pdf
