import Overprint.Drawing.Style
import Overprint.Layer
import Overprint.Notation.Reader

/-!
# Configuration

What a user can settle for all runs: the style that pages start from, the font for text before the
script names one, and the layer of new content. A configuration file is a JSON text that lays some of
it over the defaults.
-/

namespace Overprint

open Drawing Notation Number

structure Configuration where
  defaults : Defaults := {}
  defaultFont? : Option String := none
  layer : Layer := .over
deriving DecidableEq

namespace Configuration

def single : Reader Single := fun tokens => do
  let (value, rest) ← Reader.number tokens
  return (match value with
    | .natural value => .ofNat value
    | .negative value => .ofInt value
    | .double value => value.convert, rest)

/-- A whole number in sixty-four bits. -/
def integer : Reader Int := fun tokens => do
  let (value, rest) ← Reader.number tokens
  match value with
  | .natural value => if value < 0x8000000000000000 then return (value, rest) else .error .unsuitable
  | .negative value => return (value, rest)
  | .double _ => .error .unsuitable

def field {α β : Type} (name : String) (reader : Reader β) (put : α → β → α) : Reader.Field α where
  name
  read record tokens := do
    let (value, rest) ← reader tokens
    return (put record value, rest)

def defaultsFields : List (Reader.Field Defaults) := [
  field "font_size" single fun defaults fontSize => { defaults with fontSize },
  field "leading" single fun defaults leading => { defaults with leading },
  field "character_spacing" single fun defaults charSpacing => { defaults with charSpacing },
  field "word_spacing" single fun defaults wordSpacing => { defaults with wordSpacing },
  field "text_rise" single fun defaults rise => { defaults with rise },
  field "rendering_mode" integer fun defaults renderingMode => { defaults with renderingMode },
  field "horizontal_scaling" single fun defaults horizontalScaling =>
    { defaults with horizontalScaling },
  field "fill_color" Reader.text fun defaults fillColor => { defaults with fillColor },
  field "stroke_color" Reader.text fun defaults strokeColor => { defaults with strokeColor },
  field "line_width" single fun defaults lineWidth => { defaults with lineWidth }]

def layers : List (String × Layer) :=
  [("under", .under), ("over", .over)]

def fields : List (Reader.Field Configuration) := [
  field "defaults" (Reader.record defaultsFields {}) fun configuration defaults =>
    { configuration with defaults },
  field "default_font" Reader.optionalText fun configuration defaultFont? =>
    { configuration with defaultFont? },
  field "layer" (Reader.choice layers) fun configuration layer => { configuration with layer }]

def read (text : String) : Outcome Configuration :=
  (Reader.whole (Reader.record fields {}) text).mapError .configurationText

end Configuration

end Overprint
