import Overprint.Font.Embedded
import Overprint.Font.WinAnsi

/-!
# Fonts

A font is a standard one or one that is embedded.
-/

namespace Overprint

inductive Font where
  | standard (font : StandardFont)
  | embedded (font : EmbeddedFont)

namespace Font

instance : Inhabited Font := ⟨.standard .helvetica⟩

instance (font : StandardFont) (other : Font) : Decidable (standard font = other) :=
  match other with
  | standard other => decidable_of_iff (font = other) (by rw [standard.injEq])
  | embedded _ => .isFalse (by intro heq; cases heq)

def name : Font → String
  | standard font => font.name
  | embedded font => font.name

/-- What tells fonts apart in a document: the name of a standard font, the file of an embedded
one. -/
def key : Font → String
  | standard font => "std:" ++ font.name
  | embedded font => "file:" ++ font.path

def encode : Font → String → List UInt8
  | standard font => font.encode
  | embedded font => font.encode

end Font

end Overprint
