import Overprint.Codec.Sfnt.CharacterMap
import Overprint.Codec.Sfnt.Compact.Outlines
import Overprint.Codec.Sfnt.Metrics
import Overprint.Codec.Sfnt.Names
import Overprint.Codec.Sfnt.Variation

/-!
# Reading a font file

What the tables of a font file say, and the rules for what counts when several of them say something.
-/

namespace Overprint.Sfnt

open Bytes

/-- Finds the glyph of a character, by the first map for Unicode that has one. -/
def glyphs (maps : List CharacterMap) : Char → Option UInt16 :=
  let maps := maps.filter (·.isUnicode)
  fun c => (maps.findSome? (·.glyph? c)).map .ofNat

/-- Finds the width of a glyph, with what a variable font adds to it. -/
def advances (widths? : Option Widths) (deltas? : Option WidthDeltas) (glyph : Nat) : Option Nat :=
  let width? := widths?.bind (·.width? glyph)
  deltas?.elim width? fun deltas => width?.bind (deltas.applied? glyph)

def read (data : ByteArray) : Except FontFault Face := do
  let directory ← Directory.read data
  let require {α : Type} (tag : String) (fault : FontFault) (read? : ByteArray → Option α) :
      Except FontFault α :=
    match (directory.table? tag).bind read? with
    | some value => .ok value
    | none => .error fault
  let grid ← require "head" .headTable grid?
  let header ← require "hhea" .hheaTable HorizontalHeader.read?
  let glyphCount ← require "maxp" .maxpTable glyphCount?
  let heights? := (directory.table? "OS/2").bind Heights.read?
  let slant? := (directory.table? "post").bind slant?
  let axes? := (directory.table? "fvar").bind axisCount?
  let varied {α : Type} (tag : String) (read? : Nat → ByteArray → Option α) : Option α := do
    read? (← axes?) (← directory.table? tag)
  let heightDeltas? := varied "MVAR" HeightDeltas.read?
  let measure (height : Height) : Int :=
    heightDeltas?.elim height.value (·.apply height)
  return {
    grid
    ascender := measure (Heights.upper heights? header)
    descender := measure (Heights.lower heights? header)
    capHeight? := (heights?.bind Heights.capital?).map measure
    angle? := slant?.map (·.angle)
    fixedPitch := slant?.any (·.fixedPitch)
    compact := (directory.table? "CFF ").any Compact.wellFormed
    names := ((directory.table? "name").map names).getD []
    glyph? := glyphs (((directory.table? "cmap").map CharacterMap.readAll).getD [])
    advance? := advances ((directory.table? "hmtx").bind (Widths.read? · header glyphCount))
      (varied "HVAR" WidthDeltas.read?) }

/-- The font in a file, or what is wrong with the file. -/
def face (data : ByteArray) : Except String Face :=
  (read data).mapError FontFault.phrase

end Overprint.Sfnt
