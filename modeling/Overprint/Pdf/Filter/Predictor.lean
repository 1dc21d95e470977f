import Overprint.Pdf.Object

/-!
# Rows of differences

Before data is packed, its bytes may be replaced by how they differ from a guess, made of the bytes
around them. The data is seen as rows of pixels. Each row has a byte in front that says how its bytes
are guessed, and the guesses use bytes that were restored before.
-/

namespace Overprint.Pdf

/-- What the bytes of a row are guessed from: nothing, the byte of the pixel on the left, the one
above, both of them, or the one of three neighbours that fits best. -/
inductive Guess where
  | nothing
  | left
  | above
  | leftAndAbove
  | nearest
deriving DecidableEq

namespace Guess

/-- The guess that a byte in front of a row says. -/
def ofByte? (byte : UInt8) : Option Guess :=
  [nothing, left, above, leftAndAbove, nearest][byte.toNat]?

/-- The neighbour that is nearest to what the other two would add up to; the first of them if several
are. -/
def nearestOf (left above corner : UInt8) : UInt8 :=
  let sum : Int := left.toNat + above.toNat - corner.toNat
  let distance (byte : UInt8) : Nat := (sum - byte.toNat).natAbs
  if distance left ≤ distance above ∧ distance left ≤ distance corner then left
  else if distance above ≤ distance corner then above
  else corner

/-- The guess for a byte, by its neighbours on the left, above, and above on the left. Of left and
above, the first counts in full and the second half. -/
def value (guess : Guess) (left above corner : UInt8) : UInt8 :=
  match guess with
  | .nothing => 0
  | .left => left
  | .above => above
  | .leftAndAbove => left + above / 2
  | .nearest => nearestOf left above corner

end Guess

/-- How many bytes a pixel has, and how many pixels a row. -/
structure RowLayout where
  pixelSize : Nat
  pixelCount : Nat
deriving DecidableEq

namespace RowLayout

def rowSize (layout : RowLayout) : Nat :=
  layout.pixelSize * layout.pixelCount

/-- The bytes of a row, by how they differ from guesses and by the row above. What lies outside counts
as zero. -/
def restoreRow (layout : RowLayout) (guess : Guess) (above : Array UInt8) (differences : List UInt8) :
    Array UInt8 :=
  differences.foldl
    (fun row difference =>
      let index := row.size
      let before (bytes : Array UInt8) : UInt8 :=
        if index < layout.pixelSize then 0 else bytes.getD (index - layout.pixelSize) 0
      row.push (difference + guess.value (before row) (above.getD index 0) (before above))) #[]

/-- The bytes of all rows, below the row `above`, behind those that were restored before. No row may be
short, and none may be guessed in another way. -/
def restoreRows? (layout : RowLayout) (above restored : Array UInt8) (data : List UInt8) :
    Option (Array UInt8) :=
  match data with
  | [] => some restored
  | first :: rest => do
    let guess ← Guess.ofByte? first
    let differences := rest.take layout.rowSize
    if differences.length < layout.rowSize then none
    let row := layout.restoreRow guess above differences
    layout.restoreRows? row (restored ++ row) (rest.drop layout.rowSize)
termination_by data.length

/-- The layout that parameters give. Colours have one to four parts of eight to sixteen bits. -/
def ofParameters (parameters : Dictionary) : RowLayout :=
  let number (name : String) (usual : Int) : Int :=
    match Dictionary.get? name parameters with
    | some (.integer value) => value
    | _ => usual
  let parts := min 4 (max 1 (number "Colors" 1))
  let bits := min 16 (max 8 (number "BitsPerComponent" 8))
  { pixelSize := (parts * bits / 8).toNat
    pixelCount := (max 1 (number "Columns" 1)).toNat }

end RowLayout

def hasDifferences (parameters : Dictionary) : Bool :=
  match Dictionary.get? "Predictor" parameters with
  | some (.integer kind) => 10 ≤ kind && kind ≤ 15
  | _ => false

/-- The bytes of unpacked data, restored if they are differences. -/
def restored? (parameters : Dictionary) (data : List UInt8) : Option (List UInt8) :=
  if hasDifferences parameters then
    ((RowLayout.ofParameters parameters).restoreRows? #[] #[] data).map Array.toList
  else some data

end Overprint.Pdf
