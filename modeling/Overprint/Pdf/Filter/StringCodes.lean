/-!
# Codes for strings

Bytes may be kept as codes: of single bytes, and of strings that occurred before, each of which is
the string of the code before it with one more byte. Codes are as wide as the number of codes in use
asks for. A code that makes no sense ends the data, and what came behind the last reset is lost.
-/

namespace Overprint.Pdf.StringCodes

/-- The code that forgets all strings, and the code that ends the data. The codes below stand for
single bytes. -/
def reset : Nat := 256

def stop : Nat := 257

/-- The first code for a string that occurred before. -/
def firstString : Nat := 258

/-- How many bits a code has while so many codes are in use. -/
def width (count : Nat) : Nat :=
  if count < 512 then 9 else if count < 1024 then 10 else if count < 2048 then 11 else 12

def codeLimit : Nat := 4096

/-- The number in so many bits from a place on, the most significant bit first. -/
def bits? (data : List Bool) (count : Nat) : Option Nat :=
  let bits := data.take count
  if bits.length < count then none
  else some (bits.foldl (fun value bit => 2 * value + bit.toNat) 0)

/-- The bits of a byte, the most significant one first. -/
def bitsOf (byte : UInt8) : List Bool :=
  (List.range 8).map fun place => byte.toNat.testBit (7 - place)

/-- The string of a code: a byte, one that was kept, or the last one with its first byte again. -/
def string? (strings : Array (List UInt8)) (last : List UInt8) (code : Nat) :
    Option (List UInt8) :=
  if code < reset then some [.ofNat code]
  else if code < firstString then none
  else if code = firstString + strings.size then
    if last = [] then none else some (last ++ last.take 1)
  else strings[code - firstString]?

/-- The bytes that codes stand for, behind those before the last reset and those since then; at most
so many codes. Codes get wider when their number is reached, or `early` codes before. -/
def expand (early : Nat) : (steps : Nat) → (data : List Bool) → (strings : Array (List UInt8)) →
    (last : List UInt8) → (settled recent : Array UInt8) → Array UInt8
  | 0, _, _, _, settled, recent => settled ++ recent
  | steps + 1, data, strings, last, settled, recent =>
    let size := width (firstString + strings.size + early)
    match bits? data size with
    | none => settled ++ recent
    | some code =>
      let rest := data.drop size
      if code = reset then expand early steps rest #[] [] (settled ++ recent) #[]
      else if code = stop then settled ++ recent
      else
        match string? strings last code with
        | none => settled
        | some bytes =>
          let strings := if last = [] ∨ codeLimit ≤ firstString + strings.size then strings
            else strings.push (last ++ bytes.take 1)
          expand early steps rest strings bytes settled (recent ++ bytes)

def decode (early : Nat) (data : List UInt8) : List UInt8 :=
  (expand early data.length (data.flatMap bitsOf) #[] [] #[] #[]).toList

end Overprint.Pdf.StringCodes
