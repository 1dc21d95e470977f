import Overprint.Script.Command

/-!
# The vocabulary

For each verb, how many operands it takes, of which kinds, and which keys it has. The table is the
one source of what the command line accepts and of what the usage text lists.
-/

namespace Overprint.Script

open Number

/-- What an operand may be. -/
inductive Kind where
  | text
  | color
  | number
  | positive
  | nonNegative
  | integer (low high : Int)
deriving DecidableEq

/-- What an operand of the kind ought to have been, if it is not one. -/
def Kind.objection? (kind : Kind) (operand : Operand) : Option Expectation :=
  match kind with
  | text => none
  | color => if (Color.Rgb.read? operand.text).isSome then none else some .color
  | number =>
    match operand.number? Double with
    | some _ => none
    | none => some .number
  | positive =>
    match operand.number? Double with
    | some value => if Scalar.less 0.0 value then none else some .positiveNumber
    | none => some .number
  | nonNegative =>
    match operand.number? Double with
    | some value => if Scalar.lessEq 0.0 value then none else some .nonNegativeNumber
    | none => some .number
  | integer low high =>
    match operand.integer? with
    | some value => if low ≤ value ∧ value ≤ high then none else some (.integerIn low high)
    | none => some (.integerIn low high)

/-- How commands of a verb look: the least and the most operands, their kinds in order, of which the
last one repeats, and the keys with the kinds of their values. -/
structure Form where
  verb : Verb
  least : Nat := 0
  most : Option Nat := some least
  kinds : List Kind := []
  keyed : List (String × Kind) := []

namespace Form

/-- Whether commands of the form are followed by an argument with their values. -/
def takesValues (form : Form) : Bool :=
  form.most ≠ some 0

/-- The kind of the operand at a place, counted from zero. -/
def kindAt (form : Form) (index : Nat) : Kind :=
  (form.kinds[index]? <|> form.kinds.getLast?).getD .text

def keyedKind? (form : Form) (key : String) : Option Kind :=
  form.keyed.lookup key

def allows (form : Form) (count : Nat) : Bool :=
  form.least ≤ count && form.most.all (count ≤ ·)

end Form

/-- All forms, in the order in which they are looked up. -/
def vocabulary : List Form := [
  { verb := .arc, least := 6, kinds := [.number] },
  { verb := .color, least := 1, most := some 2, kinds := [.color] },
  { verb := .curveFromTo, least := 4, kinds := [.number] },
  { verb := .circle, least := 3, kinds := [.number, .number, .nonNegative] },
  { verb := .closePath },
  { verb := .closePathEoFillStroke },
  { verb := .closePathFillStroke },
  { verb := .closePathStroke },
  { verb := .charSpacing, least := 1, kinds := [.number] },
  { verb := .curveTo, least := 4, most := some 6, kinds := [.number] },
  { verb := .eoFill },
  { verb := .eoFillStroke },
  { verb := .ellipse, least := 4, kinds := [.number] },
  { verb := .endPath },
  { verb := .fill },
  { verb := .fillColor, least := 1, kinds := [.color] },
  { verb := .fontFile, least := 1, kinds := [.text] },
  { verb := .fillStroke },
  { verb := .horizontalScaling, least := 1, kinds := [.positive] },
  { verb := .image, least := 3, kinds := [.text, .number],
    keyed := [("w", .nonNegative), ("h", .nonNegative), ("c", .text)] },
  { verb := .lineCapStyle, least := 1, kinds := [.integer 0 2] },
  { verb := .lineDash, least := 1, most := none, kinds := [.nonNegative] },
  { verb := .leading, least := 1, kinds := [.number] },
  { verb := .lineJoinStyle, least := 1, kinds := [.integer 0 2] },
  { verb := .lineTo, least := 2, kinds := [.number] },
  { verb := .lineWidth, least := 1, kinds := [.nonNegative] },
  { verb := .miterLimit, least := 1, kinds := [.nonNegative] },
  { verb := .moveTo, least := 2, kinds := [.number] },
  { verb := .pages, least := 1, most := none, kinds := [.text] },
  { verb := .fontSize, least := 1, kinds := [.positive] },
  { verb := .rectangle, least := 4, kinds := [.number, .number, .nonNegative],
    keyed := [("c", .text)] },
  { verb := .textRenderingMode, least := 1, kinds := [.integer 0 7] },
  { verb := .roundRectangle, least := 5, kinds := [.number, .number, .nonNegative],
    keyed := [("c", .text)] },
  { verb := .stroke },
  { verb := .strokeColor, least := 1, kinds := [.color] },
  { verb := .text, least := 1, most := some 3, kinds := [.text, .number],
    keyed := [("cs", .number), ("fc", .color), ("ff", .text), ("hs", .positive), ("le", .number),
      ("lw", .nonNegative), ("ps", .positive), ("rm", .integer 0 7), ("sc", .color),
      ("tr", .number), ("ws", .number)] },
  { verb := .textMatrix, least := 6, kinds := [.number] },
  { verb := .textPos, least := 2, kinds := [.number] },
  { verb := .textRise, least := 1, kinds := [.number] },
  { verb := .wordSpacing, least := 1, kinds := [.number] },
  { verb := .literal, least := 1, kinds := [.text] }]

/-- The form that an argument such as `-re` or `--rectangle` names. -/
def form? (token : String) : Option Form :=
  match token.toList with
  | '-' :: '-' :: name => vocabulary.find? fun form => form.verb.longName.toList = name
  | '-' :: name => vocabulary.find? fun form => form.verb.shortName.toList = name
  | _ => none

theorem vocabulary_complete (verb : Verb) : ∃ form ∈ vocabulary, form.verb = verb := by
  cases verb <;> decide

end Overprint.Script
