import Overprint.Pdf.Document
import Overprint.Picture

/-!
# Pictures in a document

A picture is a stream of samples with its size. Transparency is a second, grey picture that masks the
first.
-/

namespace Overprint.Pdf

def pictureEntries (picture : Picture) (colors : String) : Dictionary := [
  ("Type", .name "XObject"),
  ("Subtype", .name "Image"),
  ("Width", .integer picture.width),
  ("Height", .integer picture.height),
  ("ColorSpace", .name colors),
  ("BitsPerComponent", .integer 8)]

/-- The document with a picture, and the number of the picture. A mask gets its number first. -/
def Document.addPicture (document : Document) (picture : Picture) : ObjectId × Document :=
  match picture.data with
  | .jpeg bytes grey =>
    let entries := pictureEntries picture (if grey then "DeviceGray" else "DeviceRGB")
    document.add (.stream (entries ++ [("Filter", .name "DCTDecode")]) bytes)
  | .samples rgb none => document.add (.stream (pictureEntries picture "DeviceRGB") rgb)
  | .samples rgb (some alpha) =>
    let (mask, document) := document.add (.stream (pictureEntries picture "DeviceGray") alpha)
    document.add (.stream (pictureEntries picture "DeviceRGB" ++ [("SMask", .reference mask)]) rgb)

end Overprint.Pdf
