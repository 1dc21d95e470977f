import Overprint.Codec.Sfnt.Directory
import Overprint.Font.Face

/-!
# Metrics of a font

The tables with the measures of a font: its grid (`head`), the horizontal header (`hhea`), the number
of glyphs (`maxp`), the widths of the glyphs (`hmtx`), and what `OS/2` and `post` add. A reader gives
nothing for a table that is cut off or out of range.
-/

namespace Overprint.Sfnt

open Bytes Number

def grid? (table : ByteArray) : Option Grid := do
  if table.size < 54 then none
  let unitsPerEm ← word16? table 18
  let locationFormat ← word16? table 50
  if unitsPerEm < 16 ∨ 16384 < unitsPerEm ∨ 1 < locationFormat then none
  return {
    unitsPerEm
    left := ← signed16? table 36
    bottom := ← signed16? table 38
    right := ← signed16? table 40
    top := ← signed16? table 42 }

/-- The horizontal header: the usual heights, and how many glyphs have widths of their own. -/
structure HorizontalHeader where
  ascender : Int
  descender : Int
  widthCount : Nat

def HorizontalHeader.read? (table : ByteArray) : Option HorizontalHeader := do
  if table.size < 36 then none
  return {
    ascender := ← signed16? table 4
    descender := ← signed16? table 6
    widthCount := ← word16? table 34 }

def glyphCount? (table : ByteArray) : Option Nat := do
  let version ← word32? table 0
  let count ← word16? table 4
  if (version = 0x00005000 ∨ version = 0x00010000) ∧ count ≠ 0 then some count else none

/-- The widths of the glyphs. Glyphs past the listed ones are as wide as the last of them. -/
structure Widths where
  listed : Array Nat
  glyphCount : Nat

namespace Widths

def read? (table : ByteArray) (header : HorizontalHeader) (glyphCount : Nat) : Option Widths := do
  if header.widthCount = 0 then none
  if table.size < 4 * header.widthCount then none
  let listed ← (List.range header.widthCount).mapM fun index => word16? table (4 * index)
  return ⟨listed.toArray, max header.widthCount glyphCount⟩

def width? (widths : Widths) (glyph : Nat) : Option Nat :=
  if glyph < widths.glyphCount then widths.listed[glyph]? <|> widths.listed.back? else none

end Widths

/-- A height, with the tag under which a variable font keeps its changes. -/
structure Height where
  value : Int
  tag? : Option String

/-- What the table `OS/2` says about heights. -/
structure Heights where
  preferred : Bool
  ascender : Int
  descender : Int
  clipAscender : Int
  clipDescender : Int
  capHeight? : Option Int

namespace Heights

def lengths : List Nat := [78, 86, 96, 96, 96, 100]

def read? (table : ByteArray) : Option Heights := do
  let version ← word16? table 0
  let length ← lengths[version]?
  if table.size < length then none
  let selection ← word16? table 62
  return {
    preferred := 4 ≤ version && selection.testBit 7
    ascender := ← signed16? table 68
    descender := ← signed16? table 70
    clipAscender := ← signed16? table 74
    clipDescender := (-(← signed16? table 76)).bmod 0x10000
    capHeight? := if version < 2 then none else signed16? table 88 }

/-- The first of three heights that is not zero: the one of the horizontal header, the one given
here, and the one at which glyphs may be clipped. If this table is preferred, its own counts. -/
def choose (heights? : Option Heights) (header : Int) (own clip : Heights → Height) : Height :=
  match heights? with
  | none => ⟨header, none⟩
  | some heights =>
    if heights.preferred then own heights
    else if header ≠ 0 then ⟨header, none⟩
    else if (own heights).value ≠ 0 then own heights
    else clip heights

/-- How high letters reach. -/
def upper (heights? : Option Heights) (header : HorizontalHeader) : Height :=
  choose heights? header.ascender (⟨·.ascender, "hasc"⟩) (⟨·.clipAscender, "hcla"⟩)

/-- How low letters reach. -/
def lower (heights? : Option Heights) (header : HorizontalHeader) : Height :=
  choose heights? header.descender (⟨·.descender, "hdsc"⟩) (⟨·.clipDescender, "hcld"⟩)

/-- How high capitals are. -/
def capital? (heights : Heights) : Option Height :=
  heights.capHeight?.map (⟨·, "cpht"⟩)

end Heights

/-- The versions of the table `post`. -/
def slantVersions : List Nat :=
  [0x00010000, 0x00020000, 0x00025000, 0x00030000, 0x00040000]

/-- A number in 16 bits before and 16 bits after the binary point. -/
def ofFixed (value : Nat) : Single :=
  let value := signed 0x100000000 value
  .ofQuotient (value < 0) value.natAbs 0x10000

def slant? (table : ByteArray) : Option Slant := do
  let version ← word32? table 0
  if table.size < 32 ∨ version ∉ slantVersions then none
  if version = 0x00020000 then
    let count ← word16? table 32
    if table.size < 34 + 2 * count then none
  return ⟨ofFixed (← word32? table 4), (← word32? table 12) ≠ 0⟩

end Overprint.Sfnt
