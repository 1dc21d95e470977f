/-!
# Numbers in bytes

Reading whole numbers from the bytes of a file, the most significant byte first. A number that
reaches past the end is not there.
-/

namespace Overprint.Bytes

/-- Bytes as the characters with their numbers. -/
def characters (bytes : List UInt8) : List Char :=
  bytes.map fun byte => Char.ofNat byte.toNat

def byte? (data : ByteArray) (start : Nat) : Option Nat :=
  if h : start < data.size then some data[start].toNat else none

def word16? (data : ByteArray) (start : Nat) : Option Nat := do
  return (← byte? data start) * 0x100 + (← byte? data (start + 1))

def word32? (data : ByteArray) (start : Nat) : Option Nat := do
  return (← word16? data start) * 0x10000 + (← word16? data (start + 2))

/-- The number with a sign that a number stands for, counted modulo a bound. -/
def signed (bound value : Nat) : Int :=
  (value : Int).bmod bound

def signed8? (data : ByteArray) (start : Nat) : Option Int :=
  signed 0x100 <$> byte? data start

def signed16? (data : ByteArray) (start : Nat) : Option Int :=
  signed 0x10000 <$> word16? data start

def number? (data : ByteArray) (start width : Nat) : Option Nat := do
  let digits ← (List.range width).mapM fun index => byte? data (start + index)
  return digits.foldl (fun value digit => value * 0x100 + digit) 0

/-- So many bytes from a place on, if they are all there. -/
def slice? (data : ByteArray) (start length : Nat) : Option ByteArray :=
  if start + length ≤ data.size then some (data.extract start (start + length)) else none

/-- The bytes from a place on, if the place is in the data or at its end. -/
def from? (data : ByteArray) (start : Nat) : Option ByteArray :=
  if start ≤ data.size then some (data.extract start data.size) else none

def ofWord16 (value : Nat) : List UInt8 :=
  [.ofNat (value / 0x100), .ofNat value]

end Overprint.Bytes
