import Overprint.Text.Quoted

/-!
# Bytes as text

Command-line arguments and configuration files arrive as bytes. Reading them as UTF-8 cuts them into
characters and stray bytes, so that a message can show an argument that is no text.
-/

namespace Overprint.Text

/-- The six payload bits of a continuation byte. -/
def continuation? (byte : UInt8) : Option Nat :=
  if byte.toNat / 64 = 2 then some (byte.toNat % 64) else none

/-- The character that starts with `first`, and how many bytes after it belong to it. Overlong forms
and surrogates are refused. -/
def scalar? (first : UInt8) (rest : List UInt8) : Option (Char × Nat) :=
  let build (payload count least : Nat) : Option (Char × Nat) := do
    if rest.length < count then none
    let bits ← (rest.take count).mapM continuation?
    let code := bits.foldl (fun code six => code * 64 + six) payload
    if code < least then none
    if h : code.isValidChar then some (Char.ofNatAux code h, count) else none
  let byte := first.toNat
  if byte < 0x80 then some (Char.ofNat byte, 0)
  else if byte / 32 = 6 then build (byte % 32) 1 0x80
  else if byte / 16 = 14 then build (byte % 16) 2 0x800
  else if byte / 8 = 30 then build (byte % 8) 3 0x10000
  else none

/-- The bytes as characters where they are well formed, each other byte on its own. -/
def pieces (bytes : List UInt8) : List (Char ⊕ UInt8) :=
  match bytes with
  | [] => []
  | first :: rest =>
    match scalar? first rest with
    | some (c, used) => .inl c :: pieces (rest.drop used)
    | none => .inr first :: pieces rest
termination_by bytes.length

/-- The text that the bytes spell, if all of them are well formed. -/
def decodeUtf8? (bytes : List UInt8) : Option String :=
  ((pieces bytes).mapM Sum.getLeft?).map String.ofList

def encodeUtf8 (text : String) : List UInt8 :=
  text.toList.flatMap String.utf8EncodeChar

/-- An argument as messages show it: characters as in quoted text, stray bytes by their value. -/
def quoteBytes (bytes : List UInt8) : String :=
  let shown : Char ⊕ UInt8 → List Char
    | .inl c => escape c
    | .inr byte => ['\\', 'x'] ++ (Nat.toDigits 16 byte.toNat).map Char.toUpper
  String.ofList ('"' :: (pieces bytes).flatMap shown ++ ['"'])

end Overprint.Text
