import Overprint.Bytes
import Overprint.Number.Numeral
import Overprint.Pdf.Written

/-!
# Lexemes

The smallest pieces of a document file: words, names, texts and brackets, which blanks and comments
divide. Reading a lexeme leaves the bytes after it.
-/

namespace Overprint.Pdf

open Number

inductive Lexeme where
  | word (characters : List Char)
  | name (word : String)
  | text (bytes : List UInt8)
  | hexText (bytes : List UInt8)
  | openArray
  | closeArray
  | openDictionary
  | closeDictionary
deriving DecidableEq

namespace Lexeme

def isBlank (byte : UInt8) : Bool :=
  byte = 0 || byte = 9 || byte = 10 || byte = 12 || byte = 13 || byte = 32

/-- Whether a byte can stand in a word or a name. -/
def isRegular (byte : UInt8) : Bool :=
  !isBlank byte && !(ascii "()<>[]\x7b\x7d/%").contains byte

/-- The bytes after blanks and comments; a comment ends with its line. -/
def afterBlanks : List UInt8 → (comment : Bool) → List UInt8
  | [], _ => []
  | byte :: rest, true => afterBlanks rest (byte ≠ 10 && byte ≠ 13)
  | byte :: rest, false =>
    if isBlank byte then afterBlanks rest false
    else if byte = 37 then afterBlanks rest true
    else byte :: rest

def hexPair? (high low : UInt8) : Option UInt8 := do
  let high ← Numeral.hexDigit? (Char.ofNat high.toNat)
  let low ← Numeral.hexDigit? (Char.ofNat low.toNat)
  return .ofNat (16 * high + low)

/-- The bytes that a name spells out. -/
def nameBytes : List UInt8 → List UInt8
  | 35 :: high :: low :: rest =>
    match hexPair? high low with
    | some byte => byte :: nameBytes rest
    | none => 35 :: nameBytes (high :: low :: rest)
  | byte :: rest => byte :: nameBytes rest
  | [] => []

def depthLimit : Nat := 100

/-- The bytes up to the parenthesis that closes a text, as they stand there, and those after it. -/
def rawText? : (depth : Nat) → List UInt8 → Option (List UInt8 × List UInt8)
  | depth, 92 :: byte :: rest => (rawText? depth rest).map fun (raw, rest) => (92 :: byte :: raw, rest)
  | depth, 40 :: rest =>
    if depth < depthLimit then
      (rawText? (depth + 1) rest).map fun (raw, rest) => (40 :: raw, rest)
    else none
  | 0, 41 :: rest => some ([], rest)
  | depth + 1, 41 :: rest => (rawText? depth rest).map fun (raw, rest) => (41 :: raw, rest)
  | depth, byte :: rest => (rawText? depth rest).map fun (raw, rest) => (byte :: raw, rest)
  | _, [] => none

def isOctal (byte : UInt8) : Bool :=
  48 ≤ byte && byte ≤ 55

/-- What a backslash and the byte after it stand for. The end of a line is left out. -/
def escaped (byte : UInt8) : List UInt8 :=
  match Char.ofNat byte.toNat with
  | 'n' => [10]
  | 'r' => [13]
  | 't' => [9]
  | 'b' => [8]
  | 'f' => [12]
  | '\n' | '\r' => []
  | _ => [byte]

def unescape (raw : List UInt8) : List UInt8 :=
  match raw with
  | [] => []
  | 92 :: rest =>
    let digits := (rest.take 3).takeWhile isOctal
    if digits ≠ [] then
      .ofNat (digits.foldl (fun value byte => value * 8 + (byte.toNat - 48)) 0) ::
        unescape (rest.drop digits.length)
    else
      match rest with
      | [] => []
      | 13 :: 10 :: rest => unescape rest
      | byte :: rest => escaped byte ++ unescape rest
  | byte :: rest => byte :: unescape rest
termination_by raw.length

/-- The bytes of pairs of digits. A digit without a partner is followed by zero. -/
def hexBytes? : List UInt8 → Option (List UInt8)
  | high :: low :: rest => return (← hexPair? high low) :: (← hexBytes? rest)
  | [high] => return [← hexPair? high 48]
  | [] => some []

def read? (bytes : List UInt8) : Option (Lexeme × List UInt8) :=
  match afterBlanks bytes false with
  | [] => none
  | 47 :: rest =>
    some (name (String.ofList (Bytes.characters (nameBytes (rest.takeWhile isRegular)))),
      rest.dropWhile isRegular)
  | 40 :: rest => (rawText? 0 rest).map fun (raw, rest) => (text (unescape raw), rest)
  | 60 :: 60 :: rest => some (openDictionary, rest)
  | 62 :: 62 :: rest => some (closeDictionary, rest)
  | 60 :: rest => do
    let digits := (rest.takeWhile (· ≠ 62)).filter (!isBlank ·)
    some (hexText (← hexBytes? digits), (rest.dropWhile (· ≠ 62)).drop 1)
  | 91 :: rest => some (openArray, rest)
  | 93 :: rest => some (closeArray, rest)
  | bytes =>
    match bytes.takeWhile isRegular with
    | [] => none
    | regular => some (word (Bytes.characters regular), bytes.dropWhile isRegular)

end Lexeme

end Overprint.Pdf
