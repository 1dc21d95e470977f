import Overprint.Number.Binary

/-!
# What a font file says

Font files are read by a parser that is no part of this. What it gives of a file is all that is
looked at: lengths in units of a grid, names, the glyphs of characters and how far each advances.
-/

namespace Overprint

open Number

/-- How many units an em has, and the box around all glyphs. -/
structure Grid where
  unitsPerEm : Nat
  left : Int
  bottom : Int
  right : Int
  top : Int
deriving DecidableEq

/-- The slant in degrees, and whether all glyphs are equally wide. -/
structure Slant where
  angle : Single
  fixedPitch : Bool
deriving DecidableEq

/-- A parsed font. A text of the name table has a subject and is missing if it cannot be decoded. -/
structure Face where
  grid : Grid
  ascender : Int
  descender : Int
  capHeight? : Option Int := none
  angle? : Option Single := none
  fixedPitch : Bool := false
  /-- Whether the outlines are those of a `CFF` table. -/
  compact : Bool := false
  names : List (Nat × Option String) := []
  glyph? : Char → Option UInt16
  advance? : Nat → Option Nat

namespace Face

/-- A font that does not say how it slants is upright. -/
def slant (face : Face) : Slant where
  angle := face.angle?.getD (.zero false)
  fixedPitch := face.fixedPitch

def capHeight (face : Face) : Int :=
  face.capHeight?.getD face.ascender

/-- The subject of the name in documents. -/
def documentName : Nat := 6

/-- The name in documents that the font gives first. -/
def name? (face : Face) : Option String :=
  face.names.findSome? fun (subject, text?) => if subject = documentName then text? else none

/-- The glyph of a character, zero if the font has none. -/
def glyph (face : Face) (c : Char) : Nat :=
  ((face.glyph? c).getD 0).toNat

/-- How far a glyph advances, zero if the font does not say. -/
def advance (face : Face) (glyph : Nat) : Nat :=
  (face.advance? glyph).getD 0

end Face

end Overprint
