import Overprint.Drawing.Style
import Overprint.Drawing.Template
import Overprint.Geometry.Outline
import Overprint.Geometry.Placement

/-!
# Drawing a page

The commands of a page are carried out one after the other with a pen: the style in force, and
whether a text object is open. A page is bracketed so that it leaves the surface as it found it. What
was drawn before a command failed stays on record.
-/

namespace Overprint.Drawing

open Overprint.Geometry Number Script

/-- What the commands of a page can refer to. -/
structure Scene where
  frame : Frame Double
  place : Place
  stock : Stock

structure Pen where
  style : Style
  inText : Bool := false

/-- Work that draws. -/
abbrev Sketch := Traced Call

def record (calls : List Call) : Sketch Unit :=
  Traced.recordAll calls

namespace Pen

/-- Draws what leaves the pen as it is. -/
def draw (pen : Pen) (calls : List Call) : Sketch Pen := do
  record calls
  return pen

def drawPath (pen : Pen) (segments : List (Segment Double)) : Sketch Pen :=
  pen.draw (segments.map .path)

def openText (pen : Pen) : Sketch Pen := do
  if pen.inText then return pen
  else
    record [.beginText]
    return { pen with inText := true }

def setFill (pen : Pen) (fill : Color.Rgb) : Sketch Pen := do
  record [.fillColor fill]
  return { pen with style := { pen.style with fill } }

def setStroke (pen : Pen) (stroke : Color.Rgb) : Sketch Pen := do
  record [.strokeColor stroke]
  return { pen with style := { pen.style with stroke } }

def setLineWidth (pen : Pen) (lineWidth : Double) : Sketch Pen := do
  record [.lineWidth lineWidth]
  return { pen with style := { pen.style with lineWidth } }

end Pen

/-- The lines of a text, which `^` divides. Empty lines at the end are dropped. -/
def lines (text : String) : List String :=
  ((text.toList.splitOn '^').reverse.dropWhile (·.isEmpty)).reverse.map String.ofList

def colorAt (command : Command) (index : Nat) : Outcome Color.Rgb := do
  (← command.operand index).color

/-- The whole number in the first operand of a command. -/
def choice (command : Command) : Outcome Int := do
  (← command.operand 0).integer

/-- The dashes of a command, all but the last of its operands, and the phase, which is the last. -/
def dashes (command : Command) : Outcome (List Double × Double) := do
  let values ← command.operands.mapM Operand.number
  match values.getLast? with
  | some phase => return (values.dropLast, phase)
  | none => .error .dashPhase

def matrixOf (command : Command) : Outcome Matrix := do
  return {
    a := ← command.number 0
    b := ← command.number 1
    c := ← command.number 2
    d := ← command.number 3
    x := ← command.number 4
    y := ← command.number 5 }

namespace Scene

variable (scene : Scene)

def point (command : Command) (index : Nat) : Outcome (Double × Double) :=
  scene.frame.pointAt command index

/-- A curve by two points, starting in the direction it comes from, or by three. -/
def curve (command : Command) : Outcome (Segment Double) :=
  match command.operands.length with
  | 4 => do
    let (x₂, y₂) ← scene.point command 0
    let (x₃, y₃) ← scene.point command 2
    return .curveFromStart x₂ y₂ x₃ y₃
  | 6 => do
    let (x₁, y₁) ← scene.point command 0
    let (x₂, y₂) ← scene.point command 2
    let (x₃, y₃) ← scene.point command 4
    return .curveTo x₁ y₁ x₂ y₂ x₃ y₃
  | found => .error (.curveOperands found)

/-- Where a `text` command wants its text, if it says so. -/
def textPosition (command : Command) : Outcome (Option (Double × Double)) :=
  match command.operands.length with
  | 1 => .ok none
  | 3 => some <$> scene.point command 1
  | found => .error (.textOperands found)

/-- Shows the lines of a text under the settings of its command. -/
def showText (pen : Pen) (command : Command) : Sketch Pen := do
  let position? ← scene.textPosition command
  let pen ← pen.openText
  let style ← pen.style.overlay scene.stock command
  record style.apply
  if let some (x, y) := position? then
    record [.textMatrix (.at x y)]
  let shown := lines (scene.place.expand (← command.operand 0).text)
  record ((shown.map .showText).intersperse .nextLine)
  pen.draw (pen.style.restore style)

def showPicture (pen : Pen) (command : Command) : Sketch Pen := do
  let picture ← scene.stock.picture (← command.operand 0).text
  let box ← pictureBox scene.frame picture.naturalSize command
  pen.draw [.picture picture box]

def showLiteral (pen : Pen) (command : Command) : Sketch Pen := do
  let content := (← command.operand 0).text
  if content = "" then (.error .emptyLiteral : Outcome Pen)
  else pen.draw [.literal content]

/-- Carries out one command. What pages it is for has been seen to. -/
def perform (pen : Pen) (command : Command) : Sketch Pen := do
  let style := pen.style
  match command.verb with
  | .pages => return pen
  | .fontFile =>
    return { pen with
      style := { style with font := ← scene.stock.font (← command.operand 0).text } }
  | .fontSize => return { pen with style := { style with fontSize := ← command.number 0 } }
  | .leading => return { pen with style := { style with leading := ← command.number 0 } }
  | .charSpacing => return { pen with style := { style with charSpacing := ← command.number 0 } }
  | .wordSpacing => return { pen with style := { style with wordSpacing := ← command.number 0 } }
  | .textRise => return { pen with style := { style with rise := ← command.number 0 } }
  | .textRenderingMode =>
    return { pen with style := { style with renderingMode := ← choice command } }
  | .horizontalScaling =>
    return { pen with style := { style with horizontalScaling := ← command.number 0 } }
  | .lineWidth => pen.setLineWidth (← command.number 0)
  | .fillColor => pen.setFill (← colorAt command 0)
  | .strokeColor => pen.setStroke (← colorAt command 0)
  | .color =>
    let pen ← pen.setFill (← colorAt command 0)
    pen.setStroke (← colorAt command (command.operands.length - 1))
  | .lineCapStyle => pen.draw [.lineCap (← choice command)]
  | .lineJoinStyle => pen.draw [.lineJoin (← choice command)]
  | .miterLimit => pen.draw [.miterLimit (← command.number 0)]
  | .lineDash =>
    let (pattern, phase) ← dashes command
    pen.draw [.dash pattern phase]
  | .moveTo =>
    let (x, y) ← scene.point command 0
    pen.drawPath [.moveTo x y]
  | .lineTo =>
    let (x, y) ← scene.point command 0
    pen.drawPath [.lineTo x y]
  | .curveTo => pen.drawPath [← scene.curve command]
  | .curveFromTo =>
    let (x₁, y₁) ← scene.point command 0
    let (x₃, y₃) ← scene.point command 2
    pen.drawPath [.curveToEnd x₁ y₁ x₃ y₃]
  | .arc =>
    let (x₁, y₁) ← scene.point command 0
    let (x₂, y₂) ← scene.point command 2
    pen.drawPath (Outline.arc x₁ y₁ x₂ y₂ (← command.number 4) (← command.number 5))
  | .circle =>
    let (x, y) ← scene.point command 0
    pen.drawPath (Outline.circle x y (← command.number 2))
  | .ellipse =>
    let (x₁, y₁) ← scene.point command 0
    let (x₂, y₂) ← scene.point command 2
    pen.drawPath (Outline.ellipse x₁ y₁ x₂ y₂)
  | .rectangle =>
    let box ← rectangleBox scene.frame command
    pen.drawPath [.rectangle box.x box.y box.width box.height]
  | .roundRectangle =>
    let box ← rectangleBox scene.frame command
    pen.drawPath (Outline.roundRectangle box.x box.y box.width box.height (← command.number 4))
  | .closePath => pen.drawPath [.close]
  | .fill => pen.draw [.paint .fill]
  | .eoFill => pen.draw [.paint .eoFill]
  | .stroke => pen.draw [.paint .stroke]
  | .fillStroke => pen.draw [.paint .fillStroke]
  | .eoFillStroke => pen.draw [.paint .eoFillStroke]
  | .closePathStroke => pen.draw [.paint .closeStroke]
  | .closePathFillStroke => pen.draw [.paint .closeFillStroke]
  | .closePathEoFillStroke => pen.draw [.paint .closeEoFillStroke]
  | .endPath => pen.draw [.paint .endPath]
  | .text => scene.showText pen command
  | .textMatrix =>
    let pen ← pen.openText
    pen.draw [.textMatrix (← matrixOf command)]
  | .textPos =>
    let pen ← pen.openText
    let (x, y) ← scene.point command 0
    pen.draw [.textMatrix (.at x y)]
  | .image => scene.showPicture pen command
  | .literal => showLiteral pen command

def run (style : Style) (commands : List Command) : Sketch Unit := do
  record [.save, .fillColor style.fill, .strokeColor style.stroke, .lineWidth style.lineWidth]
  let pen ← commands.foldlM scene.perform { style }
  if pen.inText then
    record [.endText]
  record [.restore]

def page (defaults : Defaults) (commands : List Command) : Sketch Unit := do
  let style ← Style.ofDefaults defaults scene.stock.defaultFont
  scene.run style commands

end Scene

end Overprint.Drawing
