import Overprint.Drawing.Call
import Overprint.Stock

/-!
# Styles

A style is what stays in force from command to command on a page. Each page starts from the defaults.
A `text` command lays its settings over the style for itself alone: it sets every attribute before
its text and afterwards puts back those that would still show, where they differ.
-/

namespace Overprint.Drawing

open Color Number Script

structure Defaults where
  fontSize : Single := 9.0
  leading : Single := 11.0
  charSpacing : Single := 0.0
  wordSpacing : Single := 0.0
  rise : Single := 0.0
  renderingMode : Int := 0
  horizontalScaling : Single := 100.0
  fillColor : String := "black"
  strokeColor : String := "black"
  lineWidth : Single := 1.0
deriving DecidableEq

@[ext]
structure Style where
  font : Font
  fontSize : Double
  leading : Double
  charSpacing : Double
  wordSpacing : Double
  rise : Double
  renderingMode : Int
  horizontalScaling : Double
  fill : Rgb
  stroke : Rgb
  lineWidth : Double

namespace Style

def ofDefaults (defaults : Defaults) (font : Font) : Outcome Style := do
  let fill ← Rgb.read defaults.fillColor
  let stroke ← Rgb.read defaults.strokeColor
  return {
    font
    fontSize := defaults.fontSize.convert
    leading := defaults.leading.convert
    charSpacing := defaults.charSpacing.convert
    wordSpacing := defaults.wordSpacing.convert
    rise := defaults.rise.convert
    renderingMode := defaults.renderingMode
    horizontalScaling := defaults.horizontalScaling.convert
    fill
    stroke
    lineWidth := defaults.lineWidth.convert }

/-- The value of a setting, or another one if it is not given. -/
def settingOr {α : Type} (command : Command) (key : String) (read : Operand → Outcome α)
    (otherwise : α) : Outcome α :=
  match command.setting? key with
  | some operand => read operand
  | none => .ok otherwise

/-- The style with the settings of a `text` command laid over it. -/
def overlay (stock : Stock) (command : Command) (style : Style) : Outcome Style := do
  let number (key : String) (otherwise : Double) : Outcome Double :=
    settingOr command key Operand.number otherwise
  return {
    font := ← settingOr command "ff" (fun name => stock.font name.text) style.font
    fontSize := ← number "ps" style.fontSize
    leading := ← number "le" style.leading
    charSpacing := ← number "cs" style.charSpacing
    wordSpacing := ← number "ws" style.wordSpacing
    rise := ← number "tr" style.rise
    renderingMode := ← settingOr command "rm" Operand.integer style.renderingMode
    horizontalScaling := ← number "hs" style.horizontalScaling
    fill := ← settingOr command "fc" Operand.color style.fill
    stroke := ← settingOr command "sc" Operand.color style.stroke
    lineWidth := ← number "lw" style.lineWidth }

/-- The calls that set every attribute. -/
def apply (style : Style) : List Call := [
  .fillColor style.fill,
  .strokeColor style.stroke,
  .lineWidth style.lineWidth,
  .font style.font style.fontSize,
  .leading style.leading,
  .charSpacing style.charSpacing,
  .wordSpacing style.wordSpacing,
  .rise style.rise,
  .renderingMode style.renderingMode,
  .horizontalScaling style.horizontalScaling]

/-- The calls that put back the colours and the line width of a style after another. -/
def restore (style after : Style) : List Call :=
  (if after.fill.equal style.fill then [] else [.fillColor style.fill]) ++
  (if after.stroke.equal style.stroke then [] else [.strokeColor style.stroke]) ++
  (if after.lineWidth.equal style.lineWidth then [] else [.lineWidth style.lineWidth])

end Style

end Overprint.Drawing
