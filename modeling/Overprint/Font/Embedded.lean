import Overprint.Bytes
import Overprint.Failure
import Overprint.Font.Face
import Overprint.Text.Path

/-!
# Embedded fonts

A font program that is put into the document. Its lengths are scaled to a thousand units per em,
fractions cut off, and text is shown by the two-byte numbers of its glyphs.
-/

namespace Overprint

/-- A font file, where it came from and what it says. -/
structure EmbeddedFont where
  path : String
  data : ByteArray
  face : Face

namespace EmbeddedFont

/-- The font of a file's bytes, if a parser accepts them. -/
def parse (face : ByteArray → Except String Face) (path : String) (data : ByteArray) :
    Outcome EmbeddedFont :=
  match face data with
  | .ok face => .ok { path, data, face }
  | .error reason => .error (.asset path (.unusableFont reason))

/-- Whether a character may stand in the name of a font. -/
def isNameChar (c : Char) : Bool :=
  c.isAlphanum || c = '-' || c = '_'

/-- The name in documents: the font's own or else the file's, without the characters that cannot
stand in one. -/
def name (font : EmbeddedFont) : String :=
  let given := font.face.name?.getD ((Text.Path.fileStem? font.path).getD "")
  match given.toList.filter isNameChar with
  | [] => "EmbeddedFont"
  | cs => String.ofList cs

def em (font : EmbeddedFont) : Nat :=
  max font.face.grid.unitsPerEm 1

/-- A length of the font in thousandths of an em. -/
def scale (font : EmbeddedFont) (length : Int) : Int :=
  (length * 1000).tdiv font.em

def ascent (font : EmbeddedFont) : Int := font.scale font.face.ascender

def descent (font : EmbeddedFont) : Int := font.scale font.face.descender

def capHeight (font : EmbeddedFont) : Int := font.scale font.face.capHeight

/-- The box around all glyphs: left, bottom, right and top. -/
def box (font : EmbeddedFont) : List Int :=
  let grid := font.face.grid
  [grid.left, grid.bottom, grid.right, grid.top].map font.scale

def glyph (font : EmbeddedFont) (c : Char) : Nat :=
  font.face.glyph c

def width (font : EmbeddedFont) (glyph : Nat) : Nat :=
  font.face.advance glyph * 1000 / font.em

def encode (font : EmbeddedFont) (text : String) : List UInt8 :=
  text.toList.flatMap fun c => Bytes.ofWord16 (font.glyph c)

end EmbeddedFont

end Overprint
