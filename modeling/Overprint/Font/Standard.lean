import Overprint.Text.Blank

/-!
# The standard fonts

Fourteen fonts that every viewer has. A document names them and embeds nothing.
-/

namespace Overprint

inductive StandardFont where
  | helvetica
  | helveticaBold
  | helveticaOblique
  | helveticaBoldOblique
  | timesRoman
  | timesBold
  | timesItalic
  | timesBoldItalic
  | courier
  | courierBold
  | courierOblique
  | courierBoldOblique
  | symbol
  | zapfDingbats
deriving DecidableEq, Repr

namespace StandardFont

def all : List StandardFont := [
  .helvetica, .helveticaBold, .helveticaOblique, .helveticaBoldOblique, .timesRoman, .timesBold,
  .timesItalic, .timesBoldItalic, .courier, .courierBold, .courierOblique, .courierBoldOblique,
  .symbol, .zapfDingbats]

def name : StandardFont → String
  | helvetica => "Helvetica"
  | helveticaBold => "Helvetica-Bold"
  | helveticaOblique => "Helvetica-Oblique"
  | helveticaBoldOblique => "Helvetica-BoldOblique"
  | timesRoman => "Times-Roman"
  | timesBold => "Times-Bold"
  | timesItalic => "Times-Italic"
  | timesBoldItalic => "Times-BoldItalic"
  | courier => "Courier"
  | courierBold => "Courier-Bold"
  | courierOblique => "Courier-Oblique"
  | courierBoldOblique => "Courier-BoldOblique"
  | symbol => "Symbol"
  | zapfDingbats => "ZapfDingbats"

/-- The font of a name. The case of letters in it and blanks around it do not matter. -/
def ofName? (text : String) : Option StandardFont :=
  let word := (Text.trim text.toList).map Char.toLower
  all.find? fun font => font.name.toList.map Char.toLower = word

/-- Whether the font shows text by the Windows code page, and not by codes of its own. -/
def isLatin (font : StandardFont) : Bool :=
  font ≠ symbol && font ≠ zapfDingbats

theorem mem_all (font : StandardFont) : font ∈ all := by
  cases font <;> decide

end StandardFont

end Overprint
