import Overprint.Bytes

/-!
# The tables of a font file

A font starts with a directory of tables, each with a tag of four letters and a place in the file. A
table that reaches past the end of the file is not there, and of two tables with one tag the later
one counts. A file may be a collection of fonts, of which the first one is read.
-/

namespace Overprint.Sfnt

open Bytes

/-- What makes a font program unusable. -/
inductive FontFault where
  | unknownMagic
  | malformed
  | noSuchFace
  | headTable
  | hheaTable
  | maxpTable

def FontFault.phrase : FontFault → String
  | unknownMagic => "unknown magic"
  | malformed => "malformed font"
  | noSuchFace => "the face index is larger than the number of faces in the font"
  | headTable => "the head table is missing or malformed"
  | hheaTable => "the hhea table is missing or malformed"
  | maxpTable => "the maxp table is missing or malformed"

/-- The values of a function from a place on, so many of them, up to the first place where it has
none. -/
def leading {α : Type} (f : Nat → Option α) (start : Nat) : Nat → List α
  | 0 => []
  | count + 1 =>
    match f start with
    | none => []
    | some value => value :: leading f (start + 1) count

/-- Halves the so many places from `base` on for the last one with a key up to the given one, where
keys grow. -/
def lastUpTo? (key? : Nat → Option Nat) (key base size : Nat) : Option Nat := do
  if _h : 1 < size then
    let half := size / 2
    if key < (← key? (base + half)) then lastUpTo? key? key base (size - half)
    else lastUpTo? key? key (base + half) (size - half)
  else if size = 1 then some base
  else none
termination_by size

/-- Tables by their tags, in the order of the file. -/
structure Directory where
  tables : List (Nat × Option ByteArray)

namespace Directory

/-- The number that four letters of a tag stand for. -/
def tagCode (tag : String) : Nat :=
  tag.toList.foldl (fun code c => code * 0x100 + c.toNat) 0

/-- What a file with outlines of one of the two kinds starts with. -/
def magics : List Nat :=
  [0x00010000, tagCode "true", tagCode "OTTO"]

/-- The tag and the table of a record of the directory. -/
def record? (data : ByteArray) (start : Nat) : Option (Nat × Option ByteArray) := do
  let tag ← word32? data start
  let offset ← word32? data (start + 8)
  let length ← word32? data (start + 12)
  return (tag, slice? data offset length)

def collectionMagic : Nat := tagCode "ttcf"

/-- Where the first font of a collection starts. The places of the fonts are listed behind the magic
and a version, and no font starts before the end of the list. -/
def firstFont (data : ByteArray) : Except FontFault Nat :=
  match word32? data 8 with
  | none => .error .malformed
  | some count =>
    let stop := 12 + 4 * count
    if data.size < stop then .error .malformed
    else if count = 0 then .error .noSuchFace
    else
      match word32? data 12 with
      | none => .error .malformed
      | some place => if place < stop ∨ data.size < place then .error .malformed else .ok place

/-- The directory at a place of a file. The places of tables are counted from the start of the
file. -/
def readAt (data : ByteArray) (start : Nat) : Except FontFault Directory :=
  match word32? data start with
  | none => .error .unknownMagic
  | some magic =>
    if magic ∉ magics then .error .unknownMagic
    else
      let records := do
        let count ← word16? data (start + 4)
        if data.size < start + 12 then none
        (List.range count).mapM fun index => record? data (start + 12 + 16 * index)
      match records with
      | none => .error .malformed
      | some tables => .ok ⟨tables⟩

/-- The directory of a file; of a collection, that of its first font. -/
def read (data : ByteArray) : Except FontFault Directory := do
  if word32? data 0 = some collectionMagic then readAt data (← firstFont data)
  else readAt data 0

def table? (directory : Directory) (tag : String) : Option ByteArray :=
  (directory.tables.reverse.lookup (tagCode tag)).join

end Directory

end Overprint.Sfnt
