import Overprint.Picture.Pixel

/-!
# Rasters

A raster is a rectangle of samples in rows from the top, with the layout of its pixels.
-/

namespace Overprint

structure Raster where
  layout : Layout
  width : Nat
  height : Nat
  samples : List UInt8
deriving DecidableEq

namespace Raster

def pixels (raster : Raster) : List Pixel :=
  raster.layout.pixels raster.samples

/-- The raster of the first bytes of a list, if there are enough. -/
def ofBytes? (layout : Layout) (width height : Nat) (bytes : List UInt8) : Option Raster :=
  let size := width * height * layout.bytesPerPixel
  let samples := bytes.take size
  if samples.length = size then some { layout, width, height, samples } else none

end Raster

end Overprint
