import Overprint.Configuration
import Overprint.Drawing.Execution
import Overprint.Page.Schedule
import Overprint.Pdf.Attachment

/-!
# Stamping a document

A script is carried out in two passes: first every page gets its commands and everything the script
names is loaded, then the pages are drawn in order. Nothing is given out unless all of them succeed.
-/

namespace Overprint

open Drawing Page Pdf Script

/-- A page with commands: its number, its object, its size and the commands. -/
structure Target where
  number : Nat
  id : ObjectId
  frame : Geometry.Frame Number.Double
  commands : List Command

def targets (source : Document) (pages : List ObjectId) (schedule : Schedule) :
    Outcome (List Target) :=
  schedule.queues.mapM fun (number, commands) =>
    match pages[number - 1]? with
    | some id => .ok { number, id, frame := source.pageSize id, commands }
    | none => .error (.pageNotFound number pages.length)

/-- Records a drawing on a canvas. A call that the canvas refuses comes before the failure that ended
the drawing. -/
def recordAll (press : Press) (drawing : Sketch Unit) : Outcome Canvas := do
  let canvas ← drawing.trace.foldlM Canvas.record { press }
  drawing.outcome
  return canvas

def stampPage (configuration : Configuration) (stock : Stock) (pathname : String)
    (pageCount : Nat) (press : Press) (target : Target) : Outcome Press := do
  let scene : Scene := {
    frame := target.frame
    place := { page := target.number, pageCount, pathname }
    stock }
  let canvas ← recordAll press (scene.page configuration.defaults target.commands)
  let (attached, press) := canvas.press.attach target.id canvas.stamp
  attached
  return press

def stampPages (configuration : Configuration) (stock : Stock) (pathname : String)
    (pageCount : Nat) (source : Document) (targets : List Target) : Outcome Document := do
  let press : Press := { document := source, layer := configuration.layer }
  let press ← targets.foldlM (stampPage configuration stock pathname pageCount) press
  return press.finish

/-- The document that a script makes of another. The path name of the input is for templates. -/
def stamp (configuration : Configuration) (script : List Command) (source : Document)
    (pathname : String) (library : Library) : Traced Request Document := do
  let pages := source.pages
  let schedule ← Schedule.ofScript script pages.length
  let stock ← Stock.load library configuration.defaultFont? script
  let targets ← targets source pages schedule
  stampPages configuration stock pathname pages.length source targets

end Overprint
