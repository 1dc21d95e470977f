/-!
# Pixels

Pictures are kept in eight bits per sample. Grey is as much red as green and blue, a picture without
transparency is opaque, and a sample of sixteen bits becomes the nearest one of eight.
-/

namespace Overprint

/-- A colour and how much it covers what lies beneath. -/
structure Pixel where
  red : UInt8
  green : UInt8
  blue : UInt8
  alpha : UInt8
deriving DecidableEq

namespace Pixel

def colors (pixel : Pixel) : List UInt8 :=
  [pixel.red, pixel.green, pixel.blue]

def grey (level : UInt8) (alpha : UInt8 := 255) : Pixel :=
  ⟨level, level, level, alpha⟩

end Pixel

/-- How pixels are laid out as samples. -/
structure Layout where
  colored : Bool
  transparent : Bool
  wide : Bool
deriving DecidableEq

namespace Layout

def channels (layout : Layout) : Nat :=
  (if layout.colored then 3 else 1) + (if layout.transparent then 1 else 0)

def bytesPerPixel (layout : Layout) : Nat :=
  layout.channels * (if layout.wide then 2 else 1)

/-- A sample of sixteen bits as one of eight. -/
def narrowSample (high low : UInt8) : UInt8 :=
  .ofNat ((high.toNat * 256 + low.toNat + 128) / 257)

def narrow : List UInt8 → List UInt8
  | high :: low :: rest => narrowSample high low :: narrow rest
  | _ => []

def greyPixels : List UInt8 → List Pixel
  | level :: rest => .grey level :: greyPixels rest
  | [] => []

def greyAlphaPixels : List UInt8 → List Pixel
  | level :: alpha :: rest => .grey level alpha :: greyAlphaPixels rest
  | _ => []

def colorPixels : List UInt8 → List Pixel
  | red :: green :: blue :: rest => ⟨red, green, blue, 255⟩ :: colorPixels rest
  | _ => []

def colorAlphaPixels : List UInt8 → List Pixel
  | red :: green :: blue :: alpha :: rest => ⟨red, green, blue, alpha⟩ :: colorAlphaPixels rest
  | _ => []

def pixels (layout : Layout) (data : List UInt8) : List Pixel :=
  let samples := if layout.wide then narrow data else data
  match layout.colored, layout.transparent with
  | false, false => greyPixels samples
  | false, true => greyAlphaPixels samples
  | true, false => colorPixels samples
  | true, true => colorAlphaPixels samples

end Layout

end Overprint
