import Overprint.Codec.Picture.Jpeg.Header

/-!
# Coded data of JPEG files

The data of a scan is a string of bits up to a marker. A byte of ones in it is followed by a zero byte,
for a marker is a byte of ones and another byte. Behind the data come zeros, as many as are asked for.
Bits are fetched in groups of 32 as soon as fewer than that are left, and a marker is noticed when a
group reaches it.
-/

namespace Overprint.Jpeg

open Bytes

/-- Coded data: its bytes, and the marker that ends it with the place behind that, unless the file
ends. -/
structure Stretch where
  bytes : Array UInt8
  ending? : Option (Nat × Nat)

namespace Stretch

/-- The data from a place on, behind the given bytes and maybe a byte of ones that is not settled yet;
at most so many bytes. -/
def readFrom (data : ByteArray) : (bound place : Nat) → (ones : Bool) → (bytes : Array UInt8) → Stretch
  | 0, _, ones, bytes => ⟨if ones then bytes.push 0xff else bytes, none⟩
  | bound + 1, place, ones, bytes =>
    match byte? data place with
    | none => ⟨if ones then bytes.push 0xff else bytes, none⟩
    | some 0xff => readFrom data bound (place + 1) true bytes
    | some byte =>
      if !ones then readFrom data bound (place + 1) false (bytes.push (.ofNat byte))
      else if byte = 0 then readFrom data bound (place + 1) false (bytes.push 0xff)
      else ⟨bytes, some (byte, place + 1)⟩

def read (data : ByteArray) (place : Nat) : Stretch :=
  readFrom data (data.size - place) place false #[]

end Stretch

/-- Coded data as it is read: how many bits were used and how many fetched, and how many blocks to come
are known to have no more coefficients. -/
structure Supply where
  bytes : Array UInt8
  used : Nat := 0
  fetched : Nat := 0
  emptyBlocks : Nat := 0

namespace Supply

def size (supply : Supply) : Nat :=
  8 * supply.bytes.size

/-- A bit of the data, the most significant one of a byte first. -/
def bitAt (supply : Supply) (index : Nat) : Bool :=
  supply.bytes[index / 8]?.any (·.toNat.testBit (7 - index % 8))

/-- Fetches a group of bits if fewer than so many are left. -/
def fetch (least : Nat) (supply : Supply) : Supply :=
  if supply.fetched < supply.used + least then { supply with fetched := supply.fetched + 32 }
  else supply

/-- Whether nothing is left but zeros. -/
def isSpent (supply : Supply) : Bool :=
  supply.size ≤ supply.used && supply.emptyBlocks = 0

/-- Whether what ends the data was noticed. -/
def noticesEnding (supply : Supply) : Bool :=
  supply.size < supply.fetched

end Supply

/-- Reads coded data, which may hold a string of bits that stands for no symbol. -/
abbrev CodedReader := StateT Supply Option

namespace CodedReader

def bit : CodedReader Bool :=
  modifyGet fun supply => (supply.bitAt supply.used, { supply with used := supply.used + 1 })

/-- A number of so many bits, the most significant one first. -/
def number (count : Nat) : CodedReader Nat :=
  (List.range count).foldlM (fun value _ => do return 2 * value + (← bit).toNat) 0

def symbol (code : BitCode) : CodedReader Nat := do
  modify (Supply.fetch 32)
  code.symbol bit failure

/-- The first coefficient of a block, or how it differs from the one before. -/
def direct (code : BitCode) : CodedReader Unit := do
  discard <| number (← symbol code)

/-- The bit that is missing of a first coefficient. -/
def refinement : CodedReader Unit := do
  modify (Supply.fetch 1)
  discard bit

/-- At most so many coefficients of a block. A symbol says how many zeros come first and how many bits
the coefficient behind them has; without bits, it stands for sixteen zeros or for `ended`. -/
def alternating (code : BitCode) (ended : (exponent : Nat) → CodedReader Unit) (left : Nat) :
    CodedReader Unit := do
  if _h : left = 0 then return
  else
    let (zeros, bits) := halves (← symbol code)
    if bits ≠ 0 then
      discard <| number bits
      alternating code ended (left - zeros - 1)
    else if zeros = 15 then alternating code ended (left - 16)
    else ended zeros
termination_by left

def block (directCode alternatingCode : BitCode) : CodedReader Unit := do
  direct directCode
  alternating alternatingCode (fun _ => return) 63

/-- A range of coefficients of a block. Its end may say how many blocks have none at all. -/
def range (code : BitCode) (first last : Nat) : CodedReader Unit := do
  let supply ← get
  if supply.emptyBlocks = 0 then
    alternating code (fun exponent => do
      let more ← number exponent
      modify ({ · with emptyBlocks := 1 <<< exponent + more - 1 })) (max 1 (last + 1 - first))
  else set { supply with emptyBlocks := supply.emptyBlocks - 1 }

/-- So many units. When nothing but zeros is left, all further ones are like the next. -/
def units (unit : CodedReader Unit) : (count : Nat) → CodedReader Unit
  | 0 => return
  | count + 1 => do
    let spent := (← get).isSpent
    unit
    if !spent then units unit count

end CodedReader

/-- What came behind the data of a scan, and whether it was noticed while the data was read. -/
structure Passage where
  ending? : Option (Nat × Nat)
  noticed : Bool

namespace Passage

/-- Reads so many units from a place on. If there is an interval, a marker comes after so many units
each time, at which reading starts afresh. At most so many intervals. -/
def read? (unit : CodedReader Unit) (interval : Nat) (data : ByteArray) :
    (bound count place : Nat) → Option Passage
  | 0, _, _ => none
  | bound + 1, count, place => do
    let stretch := Stretch.read data place
    let restarts := interval ≠ 0 && interval ≤ count
    let units := CodedReader.units unit (if restarts then interval else count)
    let (_, supply) ← units.run { bytes := stretch.bytes }
    if restarts then
      let (marker, next) ← stretch.ending?
      match Segment.ofMarker marker with
      | .restart => read? unit interval data bound (count - interval) next
      | .finish => some ⟨stretch.ending?, true⟩
      | _ => none
    else some ⟨stretch.ending?, supply.noticesEnding⟩

end Passage

end Overprint.Jpeg
