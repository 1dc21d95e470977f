import Overprint.Codec.Sfnt.Directory

/-!
# From characters to glyphs

The table `cmap` holds several maps, of which those for Unicode are used. A map has one of several
forms: a glyph for each of 256 codes, ranges of low bytes under each high byte, segments of codes
with a difference to their glyphs, a list for consecutive codes, and groups of codes, with
consecutive glyphs or with one glyph for all of them.
-/

namespace Overprint.Sfnt

open Bytes

/-- How a map is kept. -/
inductive MapForm where
  | bytes
  | ranges (count : Nat)
  | segments (count : Nat)
  | list (first count place : Nat)
  | groups (count : Nat)
  | sharedGroups (count : Nat)
  | silent
deriving DecidableEq

/-- A map with the bytes it is kept in, which are known to be there. -/
structure CharacterMap where
  platform : Nat
  encoding : Nat
  form : MapForm
  data : ByteArray

namespace CharacterMap

/-- Where the ranges of a map with high bytes start: behind a key for each high byte. -/
def rangesPlace : Nat := 6 + 2 * 256

def rangeIndex? (data : ByteArray) (high : Nat) : Option Nat :=
  (· / 8) <$> word16? data (6 + 2 * high)

/-- The form of a map, if all of it is there. -/
def form? (data : ByteArray) : Option MapForm := do
  let covering (form : MapForm) (size : Nat) : Option MapForm :=
    if size ≤ data.size then some form else none
  match ← word16? data 0 with
  | 0 => covering .bytes (6 + 256)
  | 2 =>
    let indices ← (List.range 256).mapM (rangeIndex? data)
    let count := indices.foldl max 0 + 1
    covering (.ranges count) (rangesPlace + 8 * count)
  | 4 =>
    let doubled ← word16? data 6
    let count := doubled / 2
    if doubled < 2 then none
    covering (.segments count) (16 + 8 * count)
  | 6 =>
    let first ← word16? data 6
    let count ← word16? data 8
    covering (.list first (min count (0x10000 - first)) 10) (10 + 2 * count)
  | 8 => return .silent
  | 10 =>
    let first ← word32? data 12
    let count ← word32? data 16
    covering (.list first count 20) (20 + 2 * count)
  | 12 =>
    let count ← word32? data 12
    covering (.groups count) (16 + 12 * count)
  | 13 =>
    let count ← word32? data 12
    covering (.sharedGroups count) (16 + 12 * count)
  | 14 =>
    let count ← word32? data 6
    covering .silent (10 + 11 * count)
  | _ => none

/-- Whether a map may cover more than the first plane of Unicode. -/
def isGrouped (map : CharacterMap) : Bool :=
  match map.form with
  | .groups _ | .sharedGroups _ => true
  | _ => false

def isUnicode (map : CharacterMap) : Bool :=
  map.platform = 0 ||
    (map.platform = 3 && (map.encoding = 1 || (map.encoding = 10 && map.isGrouped)))

def record? (table : ByteArray) (index : Nat) : Option CharacterMap := do
  let platform ← word16? table (4 + 8 * index)
  let encoding ← word16? table (6 + 8 * index)
  let offset ← word32? table (8 + 8 * index)
  if 4 < platform then none
  let data ← from? table offset
  return { platform, encoding, form := ← form? data, data }

/-- The maps of a table, up to the first one that cannot be read. -/
def readAll (table : ByteArray) : List CharacterMap :=
  match word16? table 2 with
  | none => []
  | some count =>
    if table.size < 4 + 8 * count then [] else leading (record? table) 0 count

/-- The glyph of a code by ranges of low bytes, so many of them. The first range is also for codes
of one byte. -/
def rangeGlyph? (data : ByteArray) (count code : Nat) : Option Nat := do
  let index ← if code < 0xff then pure 0 else rangeIndex? data (code / 0x100)
  if count ≤ index then none
  let place := rangesPlace + 8 * index
  let first ← word16? data place
  let size ← word16? data (place + 2)
  let difference ← signed16? data (place + 4)
  let offset ← word16? data (place + 6)
  let low := code % 0x100
  if 0x10000 ≤ first + size ∨ low < first ∨ first + size ≤ low then none
  let entry ← word16? data (place + 6 + offset + 2 * (low - first))
  let glyph := (entry + difference).tmod 0x10000
  if entry = 0 ∨ glyph < 0 then none else some glyph.toNat

section Segments

variable (data : ByteArray) (count : Nat)

def segmentEnd? (index : Nat) : Option Nat := word16? data (14 + 2 * index)

def segmentStart? (index : Nat) : Option Nat := word16? data (16 + 2 * count + 2 * index)

def segmentDifference? (index : Nat) : Option Nat := word16? data (16 + 4 * count + 2 * index)

/-- Where the entry is kept that leads from a segment to its list of glyphs. -/
def listPlace (index : Nat) : Nat := 16 + 6 * count + 2 * index

/-- The glyph of a code in a segment that covers it. -/
def segmentGlyph? (code index : Nat) : Option Nat := do
  let difference ← segmentDifference? data count index
  let offset ← word16? data (listPlace count index)
  if offset = 0 then some ((code + difference) % 0x10000)
  else if offset = 0xffff then none
  else
    let start ← segmentStart? data count index
    let distance := (code - start) * 2
    if 0x10000 ≤ distance then none
    let entry ← word16? data ((listPlace count index + distance + offset) % 0x10000)
    let glyph := (entry + difference) % 0x10000
    if entry = 0 ∨ 0x8000 ≤ glyph then none else some glyph

/-- Halves the segments `first` to `last` until one covers the code. -/
def findSegment? (code first last : Nat) : Option Nat := do
  if _h : first < last then
    let middle := (first + last) / 2
    if (← segmentEnd? data middle) < code then findSegment? code (middle + 1) last
    else if code < (← segmentStart? data count middle) then findSegment? code first middle
    else some middle
  else none
termination_by last - first

end Segments

section Groups

variable (data : ByteArray)

def groupStart? (index : Nat) : Option Nat := word32? data (16 + 12 * index)

def groupEnd? (index : Nat) : Option Nat := word32? data (20 + 12 * index)

def groupGlyph? (index : Nat) : Option Nat := word32? data (24 + 12 * index)

/-- The glyph of a code in a group with consecutive glyphs, if the group covers it. -/
def consecutiveGlyph? (code index : Nat) : Option Nat := do
  let first ← groupStart? data index
  let last ← groupEnd? data index
  let glyph ← groupGlyph? data index
  if code < first ∨ last < code ∨ 0x100000000 ≤ glyph + code then none
  let glyph := glyph + code - first
  if glyph < 0x10000 then some glyph else none

def groupCovers (code index : Nat) : Bool :=
  (groupStart? data index).any (· ≤ code) && (groupEnd? data index).any (code ≤ ·)

/-- The glyph of all codes of the first of so many groups that covers a code. -/
def sharedGlyph? (code count : Nat) : Option Nat := do
  let index ← (List.range count).find? (groupCovers data code)
  let glyph ← groupGlyph? data index
  if glyph < 0x10000 then some glyph else none

end Groups

/-- The glyph of a character. Where a map lists glyphs by byte, by range or for a segment, a zero in
the list means that there is none. -/
def glyph? (map : CharacterMap) (c : Char) : Option Nat := do
  let code := c.toNat
  match map.form with
  | .bytes =>
    if 0x100 ≤ code then none
    let glyph ← byte? map.data (6 + code)
    if glyph = 0 then none else some glyph
  | .ranges count => if 0x10000 ≤ code then none else rangeGlyph? map.data count code
  | .segments count =>
    if 0x10000 ≤ code then none
    let index ← findSegment? map.data count code 0 count
    segmentGlyph? map.data count code index
  | .list first count place =>
    if code < first ∨ first + count ≤ code then none
    else word16? map.data (place + 2 * (code - first))
  | .groups count =>
    let index ← lastUpTo? (groupStart? map.data) code 0 count
    consecutiveGlyph? map.data code index
  | .sharedGroups count => sharedGlyph? map.data code count
  | .silent => none

end CharacterMap

end Overprint.Sfnt
