import Overprint.Codec.Sfnt.Compact.Index
import Overprint.Codec.Sfnt.Compact.Setting

/-!
# Compact outlines

Glyphs may be drawn by a table `CFF ` of its own format. Only whether it is well formed matters here:
a header, lists of names, settings, texts and routines one after the other, and at the places that
the settings give the glyphs, their names, their codes or the fonts they come from, and the routines
of a font.
-/

namespace Overprint.Sfnt.Compact

open Bytes

namespace Operator

def charset : Nat := 15

def encoding : Nat := 16

def glyphs : Nat := 17

def privateRange : Nat := 18

def routines : Nat := 19

def matrix : Nat := 1207

/-- The mark of a font whose glyphs are numbered and not named. -/
def numbered : Nat := 1230

def fontList : Nat := 1236

def fontChoice : Nat := 1237

end Operator

section Places

variable (table : ByteArray)

/-- Whether a table goes at least so far. -/
def reaches (stop : Nat) : Option Unit :=
  if stop ≤ table.size then some () else none

/-- Whether ranges of names from a place on cover so many glyphs exactly. A range has its first name
in two bytes and how many follow it in `width` bytes. -/
def coversNames (width start : Nat) : (left bound : Nat) → Option Unit
  | 0, _ => reaches table start
  | _, 0 => none
  | left + 1, bound + 1 => do
    let more ← number? table (start + 2) width
    if left < more then none
    coversNames width (start + 2 + width) (left - more) bound

/-- Whether the names of the glyphs at a place are there. The first glyph has none, so there must be
another one. -/
def charset? (glyphCount place : Nat) : Option Unit := do
  if glyphCount < 2 then none
  match ← byte? table place with
  | 0 => reaches table (place + 1 + 2 * (glyphCount - 1))
  | 1 => coversNames table 1 (place + 1) (glyphCount - 1) glyphCount
  | 2 => coversNames table 2 (place + 1) (glyphCount - 1) glyphCount
  | _ => none

/-- Whether the codes of the glyphs at a place are there, with those that are added to them. -/
def encoding? (place : Nat) : Option Unit := do
  let form ← byte? table place
  let count ← byte? table (place + 1)
  let stop ← match form % 0x80 with
    | 0 => some (place + 2 + count)
    | 1 => some (place + 2 + 2 * count)
    | _ => none
  reaches table stop
  if 0x80 ≤ form then
    let added ← byte? table stop
    reaches table (stop + 1 + 3 * added)

/-- Whether the list at a place says for each glyph which font it comes from. -/
def fontChoice? (glyphCount place : Nat) : Option Unit := do
  match ← byte? table place with
  | 0 => reaches table (place + 1 + glyphCount)
  | 3 => some ()
  | _ => none

/-- Whether the settings of a font of its own are there, and the routines that they give. -/
def private? (settings : List Setting) : Option Unit := do
  let some (size, place) := (Setting.withOperator settings Operator.privateRange).head?.bind
    Setting.range? | some ()
  let own := Setting.readAll (← slice? table place size)
  let some offset := Setting.lastPlace? own Operator.routines | some ()
  let _ ← Index.whole? table (place + offset)

end Places

/-- The number of charsets, and of encodings, that have a number in place of a place. -/
def knownCharsets : Nat := 3

def knownEncodings : Nat := 2

/-- Whether what settings say of glyphs with numbers is there: all of it has to be said. -/
def numberedGlyphs? (table : ByteArray) (settings : List Setting) (glyphCount : Nat) :
    Option Unit := do
  let charset ← Setting.lastPlace? settings Operator.charset
  let fontList ← Setting.lastPlace? settings Operator.fontList
  let fontChoice ← Setting.lastPlace? settings Operator.fontChoice
  if charset < knownCharsets then none
  let _ ← Index.whole? table fontList
  fontChoice? table glyphCount fontChoice

/-- Whether what settings say of glyphs with names is there. -/
def namedGlyphs? (table : ByteArray) (settings : List Setting) : Option Unit := do
  match Setting.lastPlace? settings Operator.encoding with
  | none => some ()
  | some place => if place < knownEncodings then some () else encoding? table place
  private? table settings

/-- The place of the glyphs. It has to be given, each time by a single operand. -/
def glyphsPlace? (settings : List Setting) : Option Nat := do
  let places ← (Setting.withOperator settings Operator.glyphs).mapM Setting.place?
  let place ← places.head?
  if place = 0 then none else some place

/-- What a table consists of, as far as it is well formed and has glyphs. -/
def check? (table : ByteArray) : Option Unit := do
  let major ← byte? table 0
  let headerSize ← byte? table 2
  if major ≠ 1 then none
  let names ← Index.read? table (max 4 headerSize)
  let top ← Index.whole? table names.stop
  let settings := Setting.readAll (← top.head? table)
  if (Setting.withOperator settings Operator.matrix).any (·.operands?.isNone) then none
  let place ← glyphsPlace? settings
  let texts ← Index.whole? table top.stop
  let _ ← Index.whole? table texts.stop
  let glyphs ← Index.whole? table place
  if glyphs.size = 0 then none
  match Setting.lastPlace? settings Operator.charset with
  | none => some ()
  | some place => if place < knownCharsets then some () else charset? table glyphs.size place
  if (Setting.withOperator settings Operator.numbered).isEmpty then namedGlyphs? table settings
  else numberedGlyphs? table settings glyphs.size

def wellFormed (table : ByteArray) : Bool :=
  (check? table).isSome

end Overprint.Sfnt.Compact
