import Overprint.Layer
import Overprint.Pdf.Fonts
import Overprint.Pdf.PageEntry
import Overprint.Pdf.Pictures
import Overprint.Text.Path

/-!
# The press

The press holds the document that is being printed on, with the fonts and pictures that were put into
it. Each of them is in the document once and has one name on all pages. An embedded font gets its
number at once, but is written when all text is known.
-/

namespace Overprint.Pdf

/-- A font of the document: its name on pages, its number, and the glyphs used so far. -/
structure FontEntry where
  name : String
  id : ObjectId
  font : Font
  uses : GlyphUses := ∅

structure Press where
  document : Document
  layer : Layer
  fonts : SortedMap String FontEntry := ∅
  pictures : SortedMap (List String) (String × ObjectId) := ∅
  wrappers? : Option (ObjectId × ObjectId) := none

namespace Press

/-- The entry of a font, which is made on first use. -/
def useFont (press : Press) (font : Font) : FontEntry × Press :=
  match press.fonts.get? font.key with
  | some entry => (entry, press)
  | none =>
    let name := s!"PdfStampF{press.fonts.size + 1}"
    let (id, document) := match font with
      | .standard font => press.document.add (.dictionary (standardFont font))
      | .embedded _ => press.document.reserve
    let entry : FontEntry := { name, id, font }
    (entry, { press with document, fonts := press.fonts.insert font.key entry })

def encodeText (press : Press) (font : Font) (text : String) : Object × Press :=
  let (entry, press) := press.useFont font
  match entry.font with
  | .standard font => (.text (font.encode text), press)
  | .embedded embedded =>
    let entry := { entry with uses := entry.uses.note embedded text }
    (.hexText (embedded.encode text),
      { press with fonts := press.fonts.insert font.key entry })

/-- The name and number of a picture, which is put into the document on first use. -/
def usePicture (press : Press) (picture : Picture) : (String × ObjectId) × Press :=
  let key := Text.Path.components picture.path
  match press.pictures.get? key with
  | some entry => (entry, press)
  | none =>
    let name := s!"PdfStampI{press.pictures.size + 1}"
    let (id, document) := press.document.addPicture picture
    ((name, id), { press with document, pictures := press.pictures.insert key (name, id) })

def addContent (press : Press) (bytes : List UInt8) : ObjectId × Press :=
  let (id, document) := press.document.add (.stream [] bytes)
  (id, { press with document })

/-- The content that saves the graphics state before what a page shows, and the content that restores
it after. Both are made on first use. What a page shows may end without the end of a line. -/
def useWrappers (press : Press) : (ObjectId × ObjectId) × Press :=
  match press.wrappers? with
  | some wrappers => (wrappers, press)
  | none =>
    let (save, press) := press.addContent (ascii "q\n")
    let (restore, press) := press.addContent (ascii "\nQ\n")
    ((save, restore), { press with wrappers? := some (save, restore) })

/-- Writes the embedded fonts, in the order of their keys. -/
def finish (press : Press) : Document :=
  press.fonts.values.foldl
    (fun document entry =>
      match entry.font with
      | .standard _ => document
      | .embedded font => document.embedFont entry.id font entry.uses)
    press.document

end Press

end Overprint.Pdf
