import Overprint.Failure
import Overprint.Number.Scalar
import Overprint.Picture.Raster

/-!
# Pictures

A picture is ready to be embedded: a JPEG file as it is, or colours with a plane of transparency. A
plane that is opaque everywhere is dropped. Files are decoded by what is no part of this.
-/

namespace Overprint

open Number

/-- What a decoder makes of a file: samples, or what has to be known of a JPEG file that has eight bits
per sample and no transparency, which are never looked at. -/
inductive Decoded where
  | jpeg (width height : Nat) (grey : Bool)
  | raster (raster : Raster)

/-- What is embedded of a picture. -/
inductive PictureData where
  | jpeg (bytes : List UInt8) (grey : Bool)
  | samples (rgb : List UInt8) (alpha? : Option (List UInt8))
deriving DecidableEq

structure Picture where
  path : String
  width : Nat
  height : Nat
  data : PictureData
deriving DecidableEq

namespace Picture

/-- The size in points if none is asked for: a point for each pixel. -/
def naturalSize (picture : Picture) : Double × Double :=
  (.ofNat picture.width, .ofNat picture.height)

/-- The transparency of pixels, if they are not all opaque. -/
def alphaPlane? (pixels : List Pixel) : Option (List UInt8) :=
  let plane := pixels.map (·.alpha)
  if plane.all (· = 255) then none else some plane

def ofRaster (path : String) (raster : Raster) : Picture where
  path
  width := raster.width
  height := raster.height
  data := .samples (raster.pixels.flatMap (·.colors))
    (if raster.layout.transparent then alphaPlane? raster.pixels else none)

def ofDecoded (path : String) (data : ByteArray) : Decoded → Picture
  | .jpeg width height grey => { path, width, height, data := .jpeg data.toList grey }
  | .raster raster => ofRaster path raster

/-- The picture of a file's bytes, if a decoder accepts them and there are pixels. -/
def decode (decoded : ByteArray → Except PictureFault Decoded) (path : String) (data : ByteArray) :
    Outcome Picture :=
  match decoded data with
  | .error fault => .error (.asset path (.unusablePicture fault))
  | .ok decoded =>
    let picture := ofDecoded path data decoded
    if picture.width = 0 ∨ picture.height = 0 then .error (.noPixels path) else .ok picture

end Picture

end Overprint
