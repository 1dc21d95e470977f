import Overprint.Font.Standard

/-!
# Text in standard fonts

Standard fonts show one byte per character: the two that hold symbols by the code points themselves,
all others by the Windows code page. A question mark stands for a character without a code.
-/

namespace Overprint.WinAnsi

/-- The characters of the code page between the two ranges it shares with Unicode. -/
def extra : List (Char × Nat) := [
  ('€', 0x80), ('‚', 0x82), ('ƒ', 0x83), ('„', 0x84), ('…', 0x85), ('†', 0x86), ('‡', 0x87),
  ('ˆ', 0x88), ('‰', 0x89), ('Š', 0x8a), ('‹', 0x8b), ('Œ', 0x8c), ('Ž', 0x8e), ('‘', 0x91),
  ('’', 0x92), ('“', 0x93), ('”', 0x94), ('•', 0x95), ('–', 0x96), ('—', 0x97), ('˜', 0x98),
  ('™', 0x99), ('š', 0x9a), ('›', 0x9b), ('œ', 0x9c), ('ž', 0x9e), ('Ÿ', 0x9f)]

def code? (c : Char) : Option UInt8 :=
  let point := c.toNat
  if (0x20 ≤ point ∧ point ≤ 0x7e) ∨ (0xa0 ≤ point ∧ point ≤ 0xff) then some (.ofNat point)
  else (extra.lookup c).map .ofNat

end WinAnsi

namespace StandardFont

def code? (font : StandardFont) (c : Char) : Option UInt8 :=
  if font.isLatin then WinAnsi.code? c
  else if c.toNat ≤ 0xff then some (.ofNat c.toNat)
  else none

def encode (font : StandardFont) (text : String) : List UInt8 :=
  text.toList.map fun c => (font.code? c).getD 0x3f

end StandardFont

end Overprint
