import Overprint.Bytes

/-!
# Bytes as digits

A text may stand for bytes: five digits of base 85 for four bytes, with one letter for four zero
bytes. Blanks do not matter, and an end mark ends the text.
-/

namespace Overprint.Pdf.Radix85

/-- The least and the largest digit, and the shorthand for a group of zero bytes. -/
def leastDigit : UInt8 := 33

def largestDigit : UInt8 := 117

def zeroGroup : UInt8 := 122

def endMark : UInt8 := 126

def groupSize : Nat := 5

def isBlank (byte : UInt8) : Bool :=
  byte = 9 || byte = 10 || byte = 12 || byte = 13 || byte = 32

/-- The bytes that a group of digits stands for, if they are digits and their number fits. A short
group is filled up with the largest digit, and stands for a byte less than it has digits. -/
def group? (digits : List UInt8) : Option (List UInt8) :=
  if digits.any fun digit => digit < leastDigit || largestDigit < digit then none
  else
    let filled := digits ++ List.replicate (groupSize - digits.length) largestDigit
    let value := filled.foldl
      (fun value digit => value * 85 + (digit.toNat - leastDigit.toNat)) 0
    if 0x100000000 ≤ value then none
    else some ((Bytes.ofWord16 (value / 0x10000) ++ Bytes.ofWord16 value).take (digits.length - 1))

def groups? (digits : List UInt8) : Option (List UInt8) :=
  match digits with
  | [] => some []
  | first :: rest =>
    if first = zeroGroup then (groups? rest).map ([0, 0, 0, 0] ++ ·)
    else do
      let bytes ← group? (first :: rest.take (groupSize - 1))
      return bytes ++ (← groups? (rest.drop (groupSize - 1)))
termination_by digits.length

/-- The bytes that a text stands for, up to the end mark if there is one. -/
def decode? (text : List UInt8) : Option (List UInt8) :=
  groups? ((text.takeWhile (· ≠ endMark)).filter (!isBlank ·))

end Overprint.Pdf.Radix85
