import Overprint.Codec.Picture.Jpeg
import Overprint.Codec.Picture.Netpbm
import Overprint.Picture

/-!
# Decoding a picture

The format of a file is told by how it starts, never by its name.
-/

namespace Overprint.Picture

open Bytes

/-- The formats that are told apart. Files of other formats are known by their start, but not
read. -/
inductive FileFormat where
  | netpbm
  | farbfeld
  | jpeg
  | other
deriving DecidableEq

/-- How files start, a dot for any byte. -/
def signatures : List (String × FileFormat) :=
  [("\u0089PNG\r\n\u001a\n", .other), ("ÿØÿ", .jpeg), ("GIF89a", .other), ("GIF87a", .other),
    ("RIFF....WEBP", .other), ("MM\x00*", .other), ("II*\x00", .other), ("DDS ", .other),
    ("BM", .other), ("\x00\x00\x01\x00", .other), ("#?RADIANCE", .other), ("\x00\x00..ftypavif", .other),
    ("v/1\x01", .other), ("qoif", .other), ("P1", .netpbm), ("P2", .netpbm), ("P3", .netpbm),
    ("P4", .netpbm), ("P5", .netpbm), ("P6", .netpbm), ("P7", .netpbm), ("farbfeld", .farbfeld)]

def startsWith (signature : List Char) (bytes : List UInt8) : Bool :=
  match signature, bytes with
  | [], _ => true
  | _, [] => false
  | c :: signature, byte :: bytes =>
    (c = '.' || c.toNat = byte.toNat) && startsWith signature bytes

def fileFormat? (bytes : List UInt8) : Option FileFormat :=
  signatures.findSome? fun (signature, format) =>
    if startsWith signature.toList bytes then some format else none

/-- The raster of a file in the format of sixteen-bit colours with transparency. -/
def farbfeld? (data : ByteArray) : Option Raster := do
  let width ← word32? data 8
  let height ← word32? data 12
  Raster.ofBytes? ⟨true, true, true⟩ width height (data.toList.drop 16)

def sizeLimit : Nat := 0x20000000

/-- Whether the samples of a picture fit: one byte for grey, three for a colour. -/
def fits (description : Jpeg.Description) : Bool :=
  description.width * description.height * (if description.grey then 1 else 3) ≤ sizeLimit

def decoded (data : ByteArray) : Except PictureFault Decoded :=
  let ofDecoded? : Option Decoded → Except PictureFault Decoded
    | none => .error (.undecodable "damaged or truncated data")
    | some decoded => .ok decoded
  match fileFormat? data.toList with
  | none => .error (.unknownFormat "unrecognised signature")
  | some .netpbm => ofDecoded? ((Netpbm.read? data.toList).map .raster)
  | some .farbfeld => ofDecoded? ((farbfeld? data).map .raster)
  | some .jpeg =>
    ofDecoded? (((Jpeg.read? data).filter fits).map fun description =>
      .jpeg description.width description.height description.grey)
  | some .other => ofDecoded? none

end Overprint.Picture
