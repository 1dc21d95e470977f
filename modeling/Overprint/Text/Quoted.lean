import Overprint.Text.Extender
import Overprint.Text.Invisible

/-!
# Quoted text

How messages show a text that came from outside: between double quotes, with everything that would
be invisible, or would merge with its neighbour, spelled out.
-/

namespace Overprint.Text

/-- A code point by its number in hexadecimal. -/
def numbered (c : Char) : List Char :=
  "\\u\x7b".toList ++ Nat.toDigits 16 c.toNat ++ ['\x7d']

def escape (c : Char) : List Char :=
  match c with
  | '\x00' => "\\0".toList
  | '\t' => "\\t".toList
  | '\n' => "\\n".toList
  | '\r' => "\\r".toList
  | '"' => "\\\"".toList
  | '\\' => "\\\\".toList
  | _ => if extender.contains c || invisible.contains c then numbered c else [c]

/-- A text as messages show it. -/
def quote (text : String) : String :=
  String.ofList ('"' :: text.toList.flatMap escape ++ ['"'])

end Overprint.Text
