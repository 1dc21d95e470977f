import Overprint.Codec.Picture.Jpeg.Decoding

/-!
# JPEG files

Files in this format are embedded as they are. What has to be known of them stands in the header: the
size, and whether the picture is grey. A file counts if its header is well formed and its data can be
decoded.
-/

namespace Overprint.Jpeg

open Bytes

/-- What is known of a picture from its file. -/
structure Description where
  width : Nat
  height : Nat
  grey : Bool
deriving DecidableEq

/-- Reads segments from a place on up to the start of the scan, taking at most so many steps, and gives
the place of the data. A marker is a byte of ones and another byte, neither zero nor ones; what stands
between segments is passed over. -/
def header? (data : ByteArray) : (steps start last : Nat) → Header → Option (Header × Nat)
  | 0, _, _, _ => none
  | steps + 1, start, last, header => do
    let byte ← byte? data start
    if last = 0xff ∧ byte ≠ 0xff ∧ byte ≠ 0 then
      let segment := Segment.ofMarker byte
      let (header, next) ← header.add? segment data (start + 1)
      if segment = .scan then return (header, next)
      header? data steps next byte header
    else header? data steps (start + 1) byte header

def firstPlace : Nat := 2

def read? (data : ByteArray) : Option Description := do
  let (header, place) ← header? data data.size firstPlace 0 {}
  header.decodes data place
  let frame ← header.frame?
  return { width := frame.width, height := frame.height, grey := header.isGrey }

end Overprint.Jpeg
