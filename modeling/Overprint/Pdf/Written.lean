import Overprint.Pdf.Object
import Overprint.Text.Utf8

/-!
# Objects as they are written

The notation of objects in documents and page content. A text in parentheses escapes the backslash,
the carriage return and every parenthesis that has no partner; a name spells out the bytes that would
end it.
-/

namespace Overprint.Pdf

def ascii (text : String) : List UInt8 :=
  text.toList.map fun c => .ofNat c.toNat

/-- Which closing marks stand without an opening one before them, if so many are open. -/
def strays (opening closing : UInt8) : Nat → List UInt8 → List Bool
  | _, [] => []
  | depth, byte :: rest =>
    if byte = opening then false :: strays opening closing (depth + 1) rest
    else if byte = closing then
      match depth with
      | 0 => true :: strays opening closing 0 rest
      | depth + 1 => false :: strays opening closing depth rest
    else false :: strays opening closing depth rest

/-- Which parentheses of a text have no partner. -/
def unpaired (bytes : List UInt8) : List Bool :=
  List.zipWith (· || ·) (strays 40 41 0 bytes) (strays 41 40 0 bytes.reverse).reverse

def literalByte (byte : UInt8) (unpaired : Bool) : List UInt8 :=
  if byte = 13 then [92, 114]
  else if byte = 92 ∨ unpaired then [92, byte]
  else [byte]

/-- The inside of a text in parentheses. -/
def literalBody (bytes : List UInt8) : List UInt8 :=
  (List.zipWith literalByte bytes (unpaired bytes)).flatten

/-- A byte in two capital hexadecimal digits. -/
def hexByte (byte : UInt8) : List UInt8 :=
  let digits := (Nat.toDigits 16 byte.toNat).map fun c => UInt8.ofNat c.toUpper.toNat
  List.replicate (2 - digits.length) 48 ++ digits

/-- Whether a byte stands for itself in a name: it is visible, and no delimiter. -/
def isNameByte (byte : UInt8) : Bool :=
  33 ≤ byte && byte ≤ 126 && !(ascii "()<>[]\x7b\x7d/%#").contains byte

def nameByte (byte : UInt8) : List UInt8 :=
  if isNameByte byte then [byte] else 35 :: hexByte byte

def writtenName (word : String) : List UInt8 :=
  47 :: (ascii word).flatMap nameByte

namespace Object

/-- Whether a space divides an object from what stands before it. -/
def needsSpace : Object → Bool
  | null | boolean _ | integer _ | real _ | reference _ => true
  | _ => false

def space (object : Object) : List UInt8 :=
  if object.needsSpace then [32] else []

mutual

def written : Object → List UInt8
  | null => ascii "null"
  | boolean value => ascii (if value then "true" else "false")
  | integer value => ascii (toString value)
  | real value => ascii value.text
  | name word => writtenName word
  | text bytes => 40 :: literalBody bytes ++ [41]
  | hexText bytes => 60 :: bytes.flatMap hexByte ++ [62]
  | array items => 91 :: writtenItems items true ++ [93]
  | dictionary entries => ascii "<<" ++ writtenEntries entries ++ ascii ">>"
  | stream entries data =>
    ascii "<<" ++ writtenEntries entries ++ ascii ">>stream\n" ++ data ++ ascii "\nendstream"
  | reference id => ascii s!"{id.number} {id.generation} R"

def writtenItems : List Object → (first : Bool) → List UInt8
  | [], _ => []
  | item :: rest, first =>
    (if first then [] else item.space) ++ written item ++ writtenItems rest false

def writtenEntries : List (String × Object) → List UInt8
  | [] => []
  | (key, value) :: rest =>
    writtenName key ++ value.space ++ written value ++ writtenEntries rest

end

end Object

end Overprint.Pdf
