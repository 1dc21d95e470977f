import Overprint.Bytes
import Overprint.Number.Numeral

/-!
# Settings of compact outlines

Settings are written as operands with an operator after them. Operands are whole numbers in one to
five bytes, or decimal numbers in half bytes, of which only the whole part matters here.
-/

namespace Overprint.Sfnt.Compact

open Bytes Number

/-- A setting. There are no operands if one of them cannot be read. -/
structure Setting where
  operator : Nat
  operands? : Option (List Int)
deriving DecidableEq

namespace Setting

/-- What a half byte of a decimal number stands for. -/
def mark? (half : Nat) : Option (List Char) :=
  if half ≤ 9 then some [Nat.digitChar half]
  else if half = 10 then some ['.']
  else if half = 11 then some ['E']
  else if half = 12 then some ['E', '-']
  else if half = 14 then some ['-']
  else none

/-- How many characters a decimal number may have. -/
def decimalLimit : Nat := 64

/-- A number without what follows its point. -/
def wholePart : Double → Int
  | .nan => 0
  | .infinite negative => if negative then -0x80000000 else 0x7fffffff
  | .finite negative units _ =>
    let whole : Int := units / Format.double.one
    if negative then -whole else whole

/-- The whole part of a decimal number, whose half bytes go up to one with all bits set. -/
def decimal? (halves : List Nat) : Option Int := do
  let characters := (← (halves.takeWhile (· ≠ 15)).mapM mark?).flatten
  if decimalLimit < characters.length then none
  return wholePart (← Binary.read? characters)

/-- How many bytes a decimal number has, up to a bound. -/
def decimalSize (data : ByteArray) (start : Nat) : Nat → Nat
  | 0 => 0
  | bound + 1 =>
    match byte? data start with
    | none => 0
    | some byte =>
      if byte / 16 = 15 ∨ byte % 16 = 15 then 1 else decimalSize data (start + 1) bound + 1

/-- How many bytes the operand has that starts with a byte; none if the byte is an operator. -/
def operandSize? (data : ByteArray) (start first : Nat) : Option Nat :=
  if first = 28 then some 3
  else if first = 29 then some 5
  else if first = 30 then some (1 + decimalSize data (start + 1) data.size)
  else if 32 ≤ first ∧ first ≤ 246 then some 1
  else if 247 ≤ first ∧ first ≤ 254 then some 2
  else none

def operand? (bytes : ByteArray) : Option Int := do
  let first ← byte? bytes 0
  if first = 28 then signed16? bytes 1
  else if first = 29 then signed 0x100000000 <$> word32? bytes 1
  else if first = 30 then
    decimal? ((bytes.toList.drop 1).flatMap fun byte => [byte.toNat / 16, byte.toNat % 16])
  else if first ≤ 246 then some (first - 139)
  else
    let next ← byte? bytes 1
    if first ≤ 250 then some ((first - 247) * 256 + next + 108)
    else some (-((first - 251) * 256 + next + 108))

def operandLimit : Nat := 48

/-- The settings from a place on, with the operands so far; at most so many numbers and operators are
passed. Settings that are cut off are not there. -/
def readFrom (data : ByteArray) : (steps start : Nat) → (operands : List ByteArray) → List Setting
  | 0, _, _ => []
  | steps + 1, start, operands =>
    match byte? data start with
    | none => []
    | some first =>
      match operandSize? data start first with
      | some size => readFrom data steps (start + size)
          (data.extract start (start + size) :: operands)
      | none =>
        let operands? := (operands.reverse.take operandLimit).mapM operand?
        if first ≠ 12 then { operator := first, operands? } :: readFrom data steps (start + 1) []
        else
          match byte? data (start + 1) with
          | none => []
          | some second =>
            { operator := 1200 + second, operands? } :: readFrom data steps (start + 2) []

/-- The settings in some bytes. An operator of two bytes, the first of which is twelve, counts from
1200. -/
def readAll (data : ByteArray) : List Setting :=
  readFrom data (data.size + 1) 0 []

def place? (setting : Setting) : Option Nat := do
  match ← setting.operands? with
  | [place] => if place < 0 then none else some place.toNat
  | _ => none

/-- The size and the place that a setting gives by its two operands. -/
def range? (setting : Setting) : Option (Nat × Nat) := do
  match ← setting.operands? with
  | [size, place] => if size < 0 ∨ place < 0 then none else some (size.toNat, place.toNat)
  | _ => none

def withOperator (settings : List Setting) (operator : Nat) : List Setting :=
  (settings.filter (·.operator = operator)).reverse

def lastPlace? (settings : List Setting) (operator : Nat) : Option Nat := do
  (← (withOperator settings operator).head?).place?

end Setting

end Overprint.Sfnt.Compact
