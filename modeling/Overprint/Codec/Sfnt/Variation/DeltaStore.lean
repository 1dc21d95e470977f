import Overprint.Number.Binary
import Overprint.Codec.Sfnt.Directory

/-!
# Changes kept for a variable font

A variable font is a space of designs with an axis for each property that varies. What it says of its
measures holds for one design, and a store keeps, in rows of numbers, how much each measure changes
elsewhere: one number for each region of the space. Text is shown in the default design, which lies
at the origin of every axis, so that a region counts there in full or not at all.
-/

namespace Overprint.Sfnt

open Bytes Number

/-- Where a region lies on one axis: it counts in full at the peak and less towards its two ends. -/
structure AxisInterval where
  start : Int
  peak : Int
  stop : Int

namespace AxisInterval

def read? (data : ByteArray) (start : Nat) : Option AxisInterval := do
  return {
    start := ← signed16? data start
    peak := ← signed16? data (start + 2)
    stop := ← signed16? data (start + 4) }

/-- Whether the interval lets its region count at the origin. It does not restrict its region if its
three places are out of order or if it reaches to both sides of the origin. -/
def admitsOrigin (interval : AxisInterval) : Bool :=
  interval.peak < interval.start || interval.stop < interval.peak || interval.peak = 0 ||
    (interval.start < 0 && 0 < interval.stop)

end AxisInterval

/-- A store of changes: the places of its parts, and the regions, which have one interval for each of
`regionAxes` axes. Only the first `axes` axes of a font are looked at. -/
structure DeltaStore where
  axes : Nat
  places : Array Nat
  regionAxes : Nat
  intervals : Array AxisInterval
  data : ByteArray

namespace DeltaStore

def read? (axes : Nat) (data : ByteArray) : Option DeltaStore := do
  if (← word16? data 0) ≠ 1 then none
  let regions ← word32? data 2
  let count ← word16? data 6
  let places ← (List.range count).mapM fun index => word32? data (8 + 4 * index)
  let regionAxes ← word16? data regions
  let total := regionAxes * (← word16? data (regions + 2))
  if 0x10000 ≤ total then none
  let intervals ← (List.range total).mapM fun index => AxisInterval.read? data (regions + 4 + 6 * index)
  return { axes, places := places.toArray, regionAxes, intervals := intervals.toArray, data }

/-- Whether a region counts in the default design. On an axis that the regions do not know, none
does. Intervals are counted in 16 bits. -/
def counts (store : DeltaStore) (region : Nat) : Bool :=
  (List.range store.axes).all fun axis =>
    store.intervals[(region * store.regionAxes + axis) % 0x10000]?.any AxisInterval.admitsOrigin

/-- The numbers of a row that starts at a place. The first `wide` of so many numbers take two bytes
each, the others one. -/
def row? (data : ByteArray) (start wide count : Nat) : Option (List Int) :=
  (List.range count).mapM fun index =>
    if index < wide then signed16? data (start + 2 * index)
    else signed8? data (start + wide + index)

/-- The change of an item, as its part of the store gives it. The length of a row is a number of 16
bits. -/
def delta? (store : DeltaStore) (part item : Nat) : Option Single := do
  let place ← store.places[part]?
  let items ← word16? store.data place
  let wide ← word16? store.data (place + 2)
  let count ← word16? store.data (place + 4)
  let regions ← (List.range count).mapM fun index => word16? store.data (place + 6 + 2 * index)
  if items ≤ item ∨ count < wide then none
  let length := (wide + count) % 0x10000
  let row ← row? store.data (place + 6 + 2 * count + item * length) wide count
  let deltas := (regions.zip row).filter fun (region, _) => store.counts region
  return deltas.foldl (fun sum (_, delta) => sum + .ofInt delta) (.zero false)

end DeltaStore

end Overprint.Sfnt
