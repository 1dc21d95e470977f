import Overprint.Color.Named
import Overprint.Failure
import Overprint.Number.Scalar
import Overprint.Text.Blank

/-!
# Colours

A colour is given by a word, by three or six hexadecimal digits after `#`, or by three numbers in
`rgb(...)`, each out of 255 or a percentage. Blanks around it and the case of its letters do not
matter.
-/

namespace Overprint.Color

open Number

/-- An opaque colour by its red, green and blue shares of one. -/
structure Rgb where
  red : Single
  green : Single
  blue : Single
deriving DecidableEq

namespace Rgb

/-- A byte as a share of one. -/
def share (byte : UInt8) : Single :=
  Binary.ofNat byte.toNat / 255.0

def ofBytes (red green blue : UInt8) : Rgb :=
  ⟨share red, share green, share blue⟩

def components (color : Rgb) : List Single :=
  [color.red, color.green, color.blue]

/-- Numeric equality of the components. -/
def equal (left right : Rgb) : Bool :=
  left.red.equal right.red && left.green.equal right.green && left.blue.equal right.blue

/-- The colour of three or six hexadecimal digits; one digit stands for two of it. -/
def ofHex? (cs : List Char) : Option Rgb := do
  match ← cs.mapM Numeral.hexDigit? with
  | [r, g, b] => some (ofBytes (.ofNat (r * 17)) (.ofNat (g * 17)) (.ofNat (b * 17)))
  | [r, r', g, g', b, b'] =>
    some (ofBytes (.ofNat (r * 16 + r')) (.ofNat (g * 16 + g')) (.ofNat (b * 16 + b')))
  | _ => none

/-- One number of `rgb(...)`, moved into the range from zero to one. -/
def component? (cs : List Char) : Option Single := do
  let share ← match cs.reverse with
    | '%' :: percent => (Binary.read? percent.reverse).map (· / 100.0)
    | _ => (Binary.read? cs).map (· / 255.0)
  some (Scalar.clamp share 0.0 1.0)

def ofTriple? (cs : List Char) : Option Rgb :=
  match (cs.splitOn ',').map Text.trim with
  | [red, green, blue] => do
    some ⟨← component? red, ← component? green, ← component? blue⟩
  | _ => none

/-- The inside of `rgb(...)`. -/
def tripleBody? (cs : List Char) : Option (List Char) :=
  if "rgb(".toList.isPrefixOf cs then
    match (cs.drop 4).reverse with
    | ')' :: body => some body.reverse
    | _ => none
  else none

def read? (text : String) : Option Rgb :=
  let cs := (Text.trim text.toList).map Char.toLower
  match cs with
  | '#' :: digits => ofHex? digits
  | _ =>
    match tripleBody? cs with
    | some body => ofTriple? body
    | none => (named? (String.ofList cs)).map fun (red, green, blue) => ofBytes red green blue

def read (text : String) : Outcome Rgb :=
  match read? text with
  | some color => .ok color
  | none => .error (.invalidColor text)

end Rgb

end Overprint.Color
