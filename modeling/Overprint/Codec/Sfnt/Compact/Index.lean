import Overprint.Bytes

/-!
# Lists of byte strings

Compact outlines keep byte strings in lists: the number of the strings, the width of an offset, an
offset for the start of each string and one for the end of the last, and then the strings. Offsets
are counted from the byte before the strings. A list without strings consists of its number alone.
-/

namespace Overprint.Sfnt.Compact

open Bytes

structure Index where
  size : Nat
  width : Nat
  offsets : Nat
  stop : Nat
deriving DecidableEq

namespace Index

def body (index : Index) : Nat :=
  index.offsets + index.width * (index.size + 1)

/-- The list at a place, of which the strings themselves need not be there. If the last offset points
before the strings, there are none. -/
def read? (table : ByteArray) (start : Nat) : Option Index := do
  let size ← word16? table start
  if size = 0 then return { size, width := 0, offsets := start + 2, stop := start + 2 }
  let width ← byte? table (start + 2)
  if width = 0 ∨ 4 < width then none
  let offsets := start + 3
  let body := offsets + width * (size + 1)
  match ← number? table (offsets + width * size) width with
  | 0 => return { size := 0, width, offsets, stop := body }
  | last + 1 => return { size, width, offsets, stop := body + last }

/-- The list at a place, if all of it is there. -/
def whole? (table : ByteArray) (start : Nat) : Option Index := do
  let index ← read? table start
  if table.size < index.stop then none else some index

def offset? (table : ByteArray) (index : Index) (entry : Nat) : Option Nat := do
  let offset ← number? table (index.offsets + index.width * entry) index.width
  if offset = 0 then none else some (offset - 1)

def head? (table : ByteArray) (index : Index) : Option ByteArray := do
  if index.size = 0 then none
  let start ← index.offset? table 0
  let stop ← index.offset? table 1
  if stop < start ∨ index.stop < index.body + stop then none
  slice? table (index.body + start) (stop - start)

end Index

end Overprint.Sfnt.Compact
