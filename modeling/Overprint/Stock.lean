import Overprint.Font
import Overprint.Picture
import Overprint.Script.Command
import Overprint.Traced

/-!
# Fonts and pictures at hand

Before anything is drawn, every font and picture that a script names is loaded once, whatever pages
it is for. What was asked for is kept in order, and the first request that fails ends the loading.
-/

namespace Overprint

open Script

/-- Where fonts and pictures come from. -/
structure Library where
  font : String → Outcome Font
  picture : String → Outcome Picture

/-- A font or picture that was asked for. -/
inductive Request where
  | font (name : String)
  | picture (path : String)
deriving DecidableEq

/-- The path of a request, or the name of the standard font that it may be for. -/
def Request.path : Request → String
  | font name => name
  | picture path => path

def Request.text : Request → String
  | font name => "font " ++ name
  | picture path => "image " ++ path

/-- What was loaded, by the names the script uses, and the font in force before it names one. -/
structure Stock where
  fonts : SortedMap String Font := ∅
  pictures : SortedMap String Picture := ∅
  defaultFont : Font := default

namespace Stock

/-- Loads a font unless it is there. -/
def addFont (library : Library) (stock : Stock) (name : String) : Traced Request Stock := do
  if stock.fonts.contains name then return stock
  else
    Traced.record (.font name)
    let font ← library.font name
    return { stock with fonts := stock.fonts.insert name font }

def addPicture (library : Library) (stock : Stock) (path : String) : Traced Request Stock := do
  if stock.pictures.contains path then return stock
  else
    Traced.record (.picture path)
    let picture ← library.picture path
    return { stock with pictures := stock.pictures.insert path picture }

def supply (library : Library) (stock : Stock) (command : Command) : Traced Request Stock := do
  match command.verb with
  | .image => stock.addPicture library (← command.operand 0).text
  | .fontFile => stock.addFont library (← command.operand 0).text
  | .text =>
    match command.setting? "ff" with
    | some font => stock.addFont library font.text
    | none => return stock
  | _ => return stock

def font (stock : Stock) (name : String) : Outcome Font :=
  match stock.fonts.get? name with
  | some font => .ok font
  | none => .error (.fontNotLoaded name)

def picture (stock : Stock) (path : String) : Outcome Picture :=
  match stock.pictures.get? path with
  | some picture => .ok picture
  | none => .error (.pictureNotLoaded path)

/-- The stock with a font for when the script names none. -/
def withDefault (library : Library) (stock : Stock) : Option String → Traced Request Stock
  | none => return stock
  | some name => do
    let stock ← stock.addFont library name
    return { stock with defaultFont := ← stock.font name }

def load (library : Library) (defaultFont? : Option String) (script : List Command) :
    Traced Request Stock := do
  let stock ← withDefault library {} defaultFont?
  script.foldlM (supply library) stock

/-- What loading asks for as long as every request succeeds. -/
def requests (defaultFont? : Option String) (script : List Command) : List Request :=
  let library : Library := {
    font := fun _ => .ok default
    picture := fun path => .ok { path, width := 1, height := 1, data := .samples [] none } }
  (load library defaultFont? script).trace

end Stock

end Overprint
