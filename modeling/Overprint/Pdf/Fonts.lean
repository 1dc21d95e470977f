import Overprint.Font
import Overprint.Pdf.Document
import Overprint.Pdf.Written

/-!
# Fonts in a document

A standard font is one dictionary. An embedded font is a composite one that shows text by glyph
numbers: its program, a descriptor, the widths of the glyphs that were used, and a map that leads from
those glyphs back to characters, so that text can be copied out of the document.
-/

namespace Overprint.Pdf

open Number

def standardFont (font : StandardFont) : Dictionary :=
  [("Type", .name "Font"), ("Subtype", .name "Type1"), ("BaseFont", .name font.name)] ++
  if font.isLatin then [("Encoding", .name "WinAnsiEncoding")] else []

/-- What is remembered of a glyph: the first character that it showed, and its width. -/
structure GlyphUse where
  character : Char
  width : Nat
deriving DecidableEq

abbrev GlyphUses := SortedMap Nat GlyphUse

/-- The glyphs used so far and those that a text uses. -/
def GlyphUses.note (uses : GlyphUses) (font : EmbeddedFont) (text : String) : GlyphUses :=
  text.toList.foldl
    (fun uses c =>
      let glyph := font.glyph c
      if uses.contains glyph then uses else uses.insert glyph ⟨c, font.width glyph⟩)
    uses

/-- Four capital hexadecimal digits. -/
def hexWord (value : Nat) : List UInt8 :=
  (Bytes.ofWord16 value).flatMap hexByte

/-- A character in sixteen-bit units: itself, or a pair of surrogates. -/
def units (c : Char) : List Nat :=
  let point := c.toNat
  if point < 0x10000 then [point]
  else [0xd800 + (point - 0x10000) / 0x400, 0xdc00 + (point - 0x10000) % 0x400]

def mapLine (glyph : Nat) (use : GlyphUse) : List UInt8 :=
  ascii "<" ++ hexWord glyph ++ ascii "> <" ++ (units use.character).flatMap hexWord ++ ascii ">\n"

def blockSize : Nat := 100

/-- Lines of the map as blocks, each with the number of its lines in front. -/
def mapBlocks (lines : List (List UInt8)) : List UInt8 :=
  if lines = [] then []
  else
    let block := lines.take blockSize
    ascii s!"{block.length} beginbfchar\n" ++ block.flatten ++ ascii "endbfchar\n" ++
      mapBlocks (lines.drop blockSize)
termination_by lines.length
decreasing_by
  rename_i hne
  have := List.length_pos_iff.2 hne
  simp only [blockSize, List.length_drop]
  omega

def mapOpening : String :=
  "/CIDInit /ProcSet findresource begin\n" ++
  "12 dict begin\n" ++
  "begincmap\n" ++
  "/CIDSystemInfo << /Registry (Adobe) /Ordering (Identity) /Supplement 0 >> def\n" ++
  "/CMapName /Adobe-Identity-UCS def\n" ++
  "/CMapType 2 def\n" ++
  "1 begincodespacerange\n" ++
  "<0000> <FFFF>\n" ++
  "endcodespacerange\n"

def mapClosing : String :=
  "endcmap\nCMapName currentdict /CMap defineresource pop\nend\nend\n"

/-- The map from the used glyphs to characters. Glyph zero stands for no character. -/
def unicodeMap (uses : GlyphUses) : List UInt8 :=
  let lines := (uses.entries.filter (·.1 ≠ 0)).map fun (glyph, use) => mapLine glyph use
  ascii mapOpening ++ mapBlocks lines ++ ascii mapClosing

def widthsOf (uses : GlyphUses) : List Object :=
  uses.entries.flatMap fun (glyph, use) =>
    [.integer glyph, .array [.integer use.width]]

def fontProgram (font : EmbeddedFont) : Object :=
  let data := font.data.toList
  if font.face.compact then .stream [("Subtype", .name "OpenType")] data
  else .stream [("Length1", .integer data.length)] data

/-- The descriptor of a font, the program of which has a number. -/
def fontDescriptor (font : EmbeddedFont) (program : ObjectId) : Object :=
  .dictionary [
    ("Type", .name "FontDescriptor"),
    ("FontName", .name font.name),
    ("Flags", .integer (if font.face.slant.fixedPitch then 33 else 32)),
    ("FontBBox", .array (font.box.map .integer)),
    ("ItalicAngle", .real font.face.slant.angle),
    ("Ascent", .integer font.ascent),
    ("Descent", .integer font.descent),
    ("CapHeight", .integer font.capHeight),
    ("StemV", .integer 80),
    (if font.face.compact then "FontFile3" else "FontFile2", .reference program)]

/-- The font below a composite font. -/
def descendantFont (font : EmbeddedFont) (uses : GlyphUses) (descriptor : ObjectId) : Object :=
  .dictionary ([
    ("Type", .name "Font"),
    ("Subtype", .name (if font.face.compact then "CIDFontType0" else "CIDFontType2")),
    ("BaseFont", .name font.name),
    ("CIDSystemInfo", .dictionary [
      ("Registry", .text (ascii "Adobe")),
      ("Ordering", .text (ascii "Identity")),
      ("Supplement", .integer 0)]),
    ("FontDescriptor", .reference descriptor),
    ("W", .array (widthsOf uses))] ++
    if font.face.compact then [] else [("CIDToGIDMap", .name "Identity")])

def compositeFont (font : EmbeddedFont) (descendant map : ObjectId) : Object :=
  .dictionary [
    ("Type", .name "Font"),
    ("Subtype", .name "Type0"),
    ("BaseFont", .name font.name),
    ("Encoding", .name "Identity-H"),
    ("DescendantFonts", .array [.reference descendant]),
    ("ToUnicode", .reference map)]

/-- The document with an embedded font at a number that was kept for it. -/
def Document.embedFont (document : Document) (id : ObjectId) (font : EmbeddedFont)
    (uses : GlyphUses) : Document :=
  let (program, document) := document.add (fontProgram font)
  let (descriptor, document) := document.add (fontDescriptor font program)
  let (descendant, document) := document.add (descendantFont font uses descriptor)
  let (map, document) := document.add (.stream [] (unicodeMap uses))
  document.put id (compositeFont font descendant map)

end Overprint.Pdf
