import Overprint.Codec.Sfnt.Directory

/-!
# The texts of a font

The table `name` holds many texts. They are read if they are in Unicode.
-/

namespace Overprint.Sfnt

open Bytes

/-- A text of the table, with what it is and how it is written. -/
structure NameRecord where
  platform : Nat
  encoding : Nat
  subject : Nat
  text : ByteArray

namespace NameRecord

def isUnicode (record : NameRecord) : Bool :=
  record.platform = 0 || (record.platform = 3 && record.encoding ≤ 1)

/-- Sixteen-bit units as characters; pairs of surrogates are one character, others are refused. -/
def ofUnits? : List Nat → Option (List Char)
  | [] => some []
  | unit :: rest =>
    if unit < 0xd800 ∨ 0xdfff < unit then (ofUnits? rest).map (Char.ofNat unit :: ·)
    else
      match rest with
      | low :: rest =>
        if unit < 0xdc00 ∧ 0xdc00 ≤ low ∧ low ≤ 0xdfff then
          let c := Char.ofNat (0x10000 + (unit - 0xd800) * 0x400 + (low - 0xdc00))
          (ofUnits? rest).map (c :: ·)
        else none
      | [] => none

def toText? (record : NameRecord) : Option String := do
  if !record.isUnicode then none
  let units ← (List.range (record.text.size / 2)).mapM fun index => word16? record.text (2 * index)
  return String.ofList (← ofUnits? units)

/-- The record at a place of the table, with its text out of the storage. -/
def read? (table storage : ByteArray) (start : Nat) : Option NameRecord := do
  let platform ← word16? table start
  let encoding ← word16? table (start + 2)
  let subject ← word16? table (start + 6)
  let length ← word16? table (start + 8)
  let offset ← word16? table (start + 10)
  if 4 < platform then none
  return { platform, encoding, subject, text := ← slice? storage offset length }

/-- Where the records of a table start. Its second version has a list of language tags in front of
them, four bytes each and fewer than 65536 bytes in all. -/
def recordsPlace? (table : ByteArray) : Option Nat := do
  match ← word16? table 0 with
  | 0 => return 6
  | 1 =>
    let tags ← word16? table 6
    if 0x10000 ≤ 4 * tags then none else some (8 + 4 * tags)
  | _ => none

/-- The texts of a table, up to the first one that cannot be read. -/
def readAll (table : ByteArray) : List NameRecord :=
  (do
    let count ← word16? table 2
    let offset ← word16? table 4
    let place ← recordsPlace? table
    let stop := place + 12 * count
    if table.size < stop then none
    let storage ← from? table (max offset stop)
    return leading (fun index => read? table storage (place + 12 * index)) 0 count).getD []

end NameRecord

def names (table : ByteArray) : List (Nat × Option String) :=
  (NameRecord.readAll table).map fun record => (record.subject, record.toText?)

end Overprint.Sfnt
