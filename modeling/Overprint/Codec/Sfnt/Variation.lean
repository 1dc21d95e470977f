import Overprint.Codec.Sfnt.Metrics
import Overprint.Codec.Sfnt.Variation.DeltaStore

/-!
# Measures of a variable font

A font with axes (`fvar`) may change its widths (`HVAR`) and its heights (`MVAR`) with the design. The
default design is no exception: what its regions add there counts as well. Changes are added as
numbers of single precision and fractions are cut off again.
-/

namespace Overprint.Sfnt

open Bytes Number

def variationVersion : Nat := 0x00010000

/-- How many axes of a font are looked at. -/
def maxAxes : Nat := 64

def axisCount? (table : ByteArray) : Option Nat := do
  if (← word32? table 0) ≠ variationVersion then none
  let place ← word16? table 4
  let count ← word16? table 8
  if count = 0 ∨ table.size < place + 20 * count then none
  return min maxAxes count

/-- Changes of widths: a store, and where a list starts that says where in the store the change of a
glyph is, zero if there is no such list. -/
structure WidthDeltas where
  store : DeltaStore
  list : Nat
  table : ByteArray

namespace WidthDeltas

def read? (axes : Nat) (table : ByteArray) : Option WidthDeltas := do
  if (← word32? table 0) ≠ variationVersion then none
  let store ← DeltaStore.read? axes (← from? table (← word32? table 4))
  let list ← word32? table 8
  if table.size < 20 then none
  return { store, list, table }

/-- The part of the store and the item in it for a glyph, by an entry of the list. An entry holds both
in the bytes of one number, and glyphs past the last entry share it. -/
def listedItem? (table : ByteArray) (list glyph : Nat) : Option (Nat × Nat) := do
  let form ← word16? table list
  let count ← word16? table (list + 2)
  if count = 0 then none
  let width := form / 0x10 % 4 + 1
  let entry ← number? table (list + 4 + width * min glyph (count - 1)) width
  let bits := form % 0x10 + 1
  let part := entry >>> bits
  if 0x10000 ≤ part then none else some (part, entry % (1 <<< bits))

/-- The change for a glyph. Without a list, glyphs are the items of the first part. -/
def delta? (deltas : WidthDeltas) (glyph : Nat) : Option Single := do
  let (part, item) ←
    if deltas.list = 0 then some (0, glyph) else listedItem? deltas.table deltas.list glyph
  deltas.store.delta? part item

/-- The width of a glyph with its change, rounded to a whole number, if that fits. Without a change the
width stays as it is. -/
def applied? (deltas : WidthDeltas) (glyph width : Nat) : Option Nat :=
  match deltas.delta? glyph with
  | none => some width
  | some delta => do
    let changed ← (.ofNat width + (delta + 0.5) : Single).truncate?
    if 0 ≤ changed ∧ changed < 0x10000 then some changed.toNat else none

end WidthDeltas

/-- Changes of heights: a store, and for each tag the part of the store and the item in it. -/
structure HeightDeltas where
  store : DeltaStore
  records : Array (Nat × Nat × Nat)

namespace HeightDeltas

def read? (axes : Nat) (table : ByteArray) : Option HeightDeltas := do
  if (← word32? table 0) ≠ variationVersion then none
  let size ← word16? table 6
  let count ← word16? table 8
  let place ← word16? table 10
  if size ≠ 8 ∨ count = 0 ∨ place = 0 then none
  let records ← (List.range count).mapM fun index => do
    let start := 12 + 8 * index
    return (← word32? table start, ← word16? table (start + 4), ← word16? table (start + 6))
  return { store := ← DeltaStore.read? axes (← from? table place), records := records.toArray }

/-- The change for a tag. Tags are listed in order. -/
def delta? (deltas : HeightDeltas) (tag : String) : Option Single := do
  let key? (index : Nat) : Option Nat := Prod.fst <$> deltas.records[index]?
  let code := Directory.tagCode tag
  let (found, part, item) ← deltas.records[← lastUpTo? key? code 0 deltas.records.size]?
  if found = code then deltas.store.delta? part item else none

/-- A height with its change. It stays as it is if it would not fit. -/
def apply (deltas : HeightDeltas) (height : Height) : Int :=
  match height.tag?.bind deltas.delta? with
  | none => height.value
  | some delta =>
    match (.ofInt height.value + delta : Single).truncate? with
    | none => height.value
    | some changed =>
      if -0x8000 ≤ changed ∧ changed < 0x8000 then changed else height.value

end HeightDeltas

end Overprint.Sfnt
