/-!
# The verbs of the stamping language

Every command starts with one of forty-one verbs. A verb has a long and a short name on the command
line; messages use the long one.
-/

namespace Overprint.Script

inductive Verb where
  | arc
  | charSpacing
  | circle
  | closePath
  | closePathEoFillStroke
  | closePathFillStroke
  | closePathStroke
  | color
  | curveFromTo
  | curveTo
  | ellipse
  | endPath
  | eoFill
  | eoFillStroke
  | fill
  | fillColor
  | fillStroke
  | fontFile
  | fontSize
  | horizontalScaling
  | image
  | leading
  | lineCapStyle
  | lineDash
  | lineJoinStyle
  | lineTo
  | lineWidth
  | literal
  | miterLimit
  | moveTo
  | pages
  | rectangle
  | roundRectangle
  | stroke
  | strokeColor
  | text
  | textMatrix
  | textPos
  | textRenderingMode
  | textRise
  | wordSpacing
deriving DecidableEq, Repr

namespace Verb

def all : List Verb := [
  .arc, .charSpacing, .circle, .closePath, .closePathEoFillStroke, .closePathFillStroke,
  .closePathStroke, .color, .curveFromTo, .curveTo, .ellipse, .endPath, .eoFill, .eoFillStroke,
  .fill, .fillColor, .fillStroke, .fontFile, .fontSize, .horizontalScaling, .image, .leading,
  .lineCapStyle, .lineDash, .lineJoinStyle, .lineTo, .lineWidth, .literal, .miterLimit, .moveTo,
  .pages, .rectangle, .roundRectangle, .stroke, .strokeColor, .text, .textMatrix, .textPos,
  .textRenderingMode, .textRise, .wordSpacing]

/-- The name after `--`. -/
def longName : Verb → String
  | .arc => "arc"
  | .charSpacing => "char-spacing"
  | .circle => "circle"
  | .closePath => "close-path"
  | .closePathEoFillStroke => "close-path-eo-fill-stroke"
  | .closePathFillStroke => "close-path-fill-stroke"
  | .closePathStroke => "close-path-stroke"
  | .color => "color"
  | .curveFromTo => "curve-from-to"
  | .curveTo => "curve-to"
  | .ellipse => "ellipse"
  | .endPath => "end-path"
  | .eoFill => "eo-fill"
  | .eoFillStroke => "eo-fill-stroke"
  | .fill => "fill"
  | .fillColor => "fill-color"
  | .fillStroke => "fill-stroke"
  | .fontFile => "font-file"
  | .fontSize => "font-size"
  | .horizontalScaling => "horizontal-scaling"
  | .image => "image"
  | .leading => "leading"
  | .lineCapStyle => "line-cap-style"
  | .lineDash => "line-dash"
  | .lineJoinStyle => "line-join-style"
  | .lineTo => "line-to"
  | .lineWidth => "line-width"
  | .literal => "literal"
  | .miterLimit => "miter-limit"
  | .moveTo => "move-to"
  | .pages => "pages"
  | .rectangle => "rectangle"
  | .roundRectangle => "round-rectangle"
  | .stroke => "stroke"
  | .strokeColor => "stroke-color"
  | .text => "text"
  | .textMatrix => "text-matrix"
  | .textPos => "text-pos"
  | .textRenderingMode => "text-rendering-mode"
  | .textRise => "text-rise"
  | .wordSpacing => "word-spacing"

/-- The name after `-`. -/
def shortName : Verb → String
  | .arc => "ar"
  | .charSpacing => "cs"
  | .circle => "ci"
  | .closePath => "cp"
  | .closePathEoFillStroke => "cpefs"
  | .closePathFillStroke => "cpfs"
  | .closePathStroke => "cps"
  | .color => "c"
  | .curveFromTo => "cft"
  | .curveTo => "ct"
  | .ellipse => "el"
  | .endPath => "ep"
  | .eoFill => "ef"
  | .eoFillStroke => "efs"
  | .fill => "f"
  | .fillColor => "fc"
  | .fillStroke => "fs"
  | .fontFile => "ff"
  | .fontSize => "ps"
  | .horizontalScaling => "hs"
  | .image => "i"
  | .leading => "le"
  | .lineCapStyle => "lc"
  | .lineDash => "ld"
  | .lineJoinStyle => "lj"
  | .lineTo => "lt"
  | .lineWidth => "lw"
  | .literal => "x"
  | .miterLimit => "ml"
  | .moveTo => "mt"
  | .pages => "p"
  | .rectangle => "re"
  | .roundRectangle => "rr"
  | .stroke => "s"
  | .strokeColor => "sc"
  | .text => "t"
  | .textMatrix => "tm"
  | .textPos => "tp"
  | .textRenderingMode => "rm"
  | .textRise => "tr"
  | .wordSpacing => "ws"

theorem mem_all (verb : Verb) : verb ∈ all := by
  cases verb <;> decide

end Verb

end Overprint.Script
