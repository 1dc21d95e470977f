import Overprint.Drawing.Call
import Overprint.Pdf.Operation
import Overprint.Pdf.Press

/-!
# Canvases

A canvas records the calls for one page as operations, and puts the fonts and pictures they need into
the document. Numbers are written in the shorter format.
-/

namespace Overprint.Pdf

open Drawing Overprint.Geometry Number

/-- What is recorded for a page: its operations, and the fonts and pictures that they name. -/
structure Stamp where
  operations : List Operation := []
  fonts : SortedMap String ObjectId := ∅
  pictures : SortedMap String ObjectId := ∅

/-- A stamp in the making, on a press, and the font in force. -/
structure Canvas where
  press : Press
  stamp : Stamp := {}
  font? : Option Font := none

def real (number : Double) : Object :=
  .real number.convert

def reals (operator : String) (numbers : List Double) : Operation where
  operator
  operands := numbers.map real

def segmentOperation : Segment Double → Operation
  | .moveTo x y => reals "m" [x, y]
  | .lineTo x y => reals "l" [x, y]
  | .curveTo x₁ y₁ x₂ y₂ x₃ y₃ => reals "c" [x₁, y₁, x₂, y₂, x₃, y₃]
  | .curveFromStart x₂ y₂ x₃ y₃ => reals "v" [x₂, y₂, x₃, y₃]
  | .curveToEnd x₁ y₁ x₃ y₃ => reals "y" [x₁, y₁, x₃, y₃]
  | .rectangle x y width height => reals "re" [x, y, width, height]
  | .close => { operator := "h" }

def colorOperation (operator : String) (color : Color.Rgb) : Operation where
  operator
  operands := color.components.map .real

def integerOperation (operator : String) (value : Int) : Operation where
  operator
  operands := [.integer value]

/-- The operation of a call that needs nothing from the document. -/
def plainOperation? : Call → Option Operation
  | .path segment => some (segmentOperation segment)
  | .paint manner => some { operator := manner.operator }
  | .save => some { operator := "q" }
  | .restore => some { operator := "Q" }
  | .fillColor color => some (colorOperation "rg" color)
  | .strokeColor color => some (colorOperation "RG" color)
  | .lineWidth width => some (reals "w" [width])
  | .lineCap style => some (integerOperation "J" style)
  | .lineJoin style => some (integerOperation "j" style)
  | .miterLimit limit => some (reals "M" [limit])
  | .dash pattern phase =>
    some { operator := "d", operands := [.array (pattern.map real), real phase] }
  | .beginText => some { operator := "BT" }
  | .endText => some { operator := "ET" }
  | .leading distance => some (reals "TL" [distance])
  | .charSpacing distance => some (reals "Tc" [distance])
  | .wordSpacing distance => some (reals "Tw" [distance])
  | .rise distance => some (reals "Ts" [distance])
  | .renderingMode mode => some (integerOperation "Tr" mode)
  | .horizontalScaling percent => some (reals "Tz" [percent])
  | .textMatrix matrix =>
    some (reals "Tm" [matrix.a, matrix.b, matrix.c, matrix.d, matrix.x, matrix.y])
  | .nextLine => some { operator := "T*" }
  | .literal content => some { operator := content }
  | .font .. | .showText _ | .picture .. => none

def pictureOperations (name : String) (box : Box Double) : List Operation := [
  { operator := "q" },
  reals "cm" [box.width, 0.0, 0.0, box.height, box.x, box.y],
  { operator := "Do", operands := [.name name] },
  { operator := "Q" }]

namespace Canvas

def push (canvas : Canvas) (operations : List Operation) : Canvas :=
  { canvas with
    stamp := { canvas.stamp with operations := canvas.stamp.operations ++ operations } }

def setFont (canvas : Canvas) (font : Font) (size : Double) : Canvas :=
  let (entry, press) := canvas.press.useFont font
  let canvas := canvas.push [{ operator := "Tf", operands := [.name entry.name, real size] }]
  { canvas with
    press
    stamp := { canvas.stamp with fonts := canvas.stamp.fonts.insert entry.name entry.id }
    font? := some font }

/-- Shows a text in the font in force, of which there must be one. -/
def showText (canvas : Canvas) (text : String) : Outcome Canvas :=
  match canvas.font? with
  | none => .error .textWithoutFont
  | some font =>
    let (operand, press) := canvas.press.encodeText font text
    .ok { canvas.push [{ operator := "Tj", operands := [operand] }] with press }

def showPicture (canvas : Canvas) (picture : Picture) (box : Box Double) : Canvas :=
  let ((name, id), press) := canvas.press.usePicture picture
  let canvas := canvas.push (pictureOperations name box)
  { canvas with
    press
    stamp := { canvas.stamp with pictures := canvas.stamp.pictures.insert name id } }

def record (canvas : Canvas) (call : Call) : Outcome Canvas :=
  match call with
  | .font font size => .ok (canvas.setFont font size)
  | .showText text => canvas.showText text
  | .picture picture box => .ok (canvas.showPicture picture box)
  | call =>
    match plainOperation? call with
    | some operation => .ok (canvas.push [operation])
    | none => .ok canvas

end Canvas

end Overprint.Pdf
