import Overprint.Color.Rgb
import Overprint.Font
import Overprint.Geometry.Corner
import Overprint.Geometry.Segment
import Overprint.Number.Shortest
import Overprint.Picture

/-!
# Calls on a drawing surface

What commands draw is a list of calls, one for each thing that is done to a page. How a page records
them is a matter of its own; as lines of text they look like page content.
-/

namespace Overprint.Drawing

open Color Overprint.Geometry Number

/-- What is done with a finished path. -/
inductive Paint where
  | fill
  | eoFill
  | stroke
  | fillStroke
  | eoFillStroke
  | closeStroke
  | closeFillStroke
  | closeEoFillStroke
  | endPath
deriving DecidableEq

def Paint.operator : Paint → String
  | fill => "f"
  | eoFill => "f*"
  | stroke => "S"
  | fillStroke => "B"
  | eoFillStroke => "B*"
  | closeStroke => "s"
  | closeFillStroke => "b"
  | closeEoFillStroke => "b*"
  | endPath => "n"

/-- How the plane of text lies on the page: the images of its unit vectors, and its origin. -/
structure Matrix where
  a : Double
  b : Double
  c : Double
  d : Double
  x : Double
  y : Double
deriving DecidableEq

/-- Text upright at a point. -/
def Matrix.at (x y : Double) : Matrix where
  a := 1.0
  b := 0.0
  c := 0.0
  d := 1.0
  x
  y

/-- One thing done to a page. -/
inductive Call where
  | path (segment : Segment Double)
  | paint (manner : Paint)
  | save
  | restore
  | fillColor (color : Rgb)
  | strokeColor (color : Rgb)
  | lineWidth (width : Double)
  | lineCap (style : Int)
  | lineJoin (style : Int)
  | miterLimit (limit : Double)
  | dash (pattern : List Double) (phase : Double)
  | beginText
  | endText
  | font (face : Font) (size : Double)
  | leading (distance : Double)
  | charSpacing (distance : Double)
  | wordSpacing (distance : Double)
  | rise (distance : Double)
  | renderingMode (mode : Int)
  | horizontalScaling (percent : Double)
  | textMatrix (matrix : Matrix)
  | showText (text : String)
  | nextLine
  | picture (shown : Picture) (box : Box Double)
  | literal (content : String)

namespace Call

def line (words : List String) (operator : String) : String :=
  " ".intercalate (words ++ [operator])

def numbersLine (numbers : List Double) (operator : String) : String :=
  line (numbers.map Binary.text) operator

def segmentText : Segment Double → String
  | .moveTo x y => numbersLine [x, y] "m"
  | .lineTo x y => numbersLine [x, y] "l"
  | .curveTo x₁ y₁ x₂ y₂ x₃ y₃ => numbersLine [x₁, y₁, x₂, y₂, x₃, y₃] "c"
  | .curveFromStart x₂ y₂ x₃ y₃ => numbersLine [x₂, y₂, x₃, y₃] "v"
  | .curveToEnd x₁ y₁ x₃ y₃ => numbersLine [x₁, y₁, x₃, y₃] "y"
  | .rectangle x y width height => numbersLine [x, y, width, height] "re"
  | .close => "h"

def colorText (color : Rgb) (operator : String) : String :=
  line (color.components.map Binary.text) operator

/-- A call as a line of text. -/
def text : Call → String
  | path segment => segmentText segment
  | paint manner => manner.operator
  | save => "q"
  | restore => "Q"
  | fillColor color => colorText color "rg"
  | strokeColor color => colorText color "RG"
  | lineWidth width => numbersLine [width] "w"
  | lineCap style => line [toString style] "J"
  | lineJoin style => line [toString style] "j"
  | miterLimit limit => numbersLine [limit] "M"
  | dash pattern phase =>
    line ["[" ++ " ".intercalate (pattern.map Binary.text) ++ "]", phase.text] "d"
  | beginText => "BT"
  | endText => "ET"
  | font face size => line ["/" ++ face.name, size.text] "Tf"
  | leading distance => numbersLine [distance] "TL"
  | charSpacing distance => numbersLine [distance] "Tc"
  | wordSpacing distance => numbersLine [distance] "Tw"
  | rise distance => numbersLine [distance] "Ts"
  | renderingMode mode => line [toString mode] "Tr"
  | horizontalScaling percent => numbersLine [percent] "Tz"
  | textMatrix matrix =>
    numbersLine [matrix.a, matrix.b, matrix.c, matrix.d, matrix.x, matrix.y] "Tm"
  | showText text => line ["(" ++ text ++ ")"] "Tj"
  | nextLine => "T*"
  | picture shown box =>
    line ([box.x, box.y, box.width, box.height].map Binary.text ++ ["/" ++ shown.path]) "Do"
  | literal content => content

end Call

end Overprint.Drawing
