import Overprint.Notation.Numeric

/-!
# The tokens of JSON texts

A JSON text is read token by token, as a reader of it asks for the next one. So a text that breaks
off, or stops being JSON, still has tokens up to there: the token where that happens is broken, and
it is the last. Whether a broken token began as a text matters to readers that look at the first
character of the next token only.
-/

namespace Overprint.Notation

open Number

inductive Token where
  | openObject
  | closeObject
  | openList
  | closeList
  | colon
  | comma
  | null
  | boolean (value : Bool)
  | number (value : Numeric)
  | text (value : String)
  | brokenText (fault : NotationFault)
  | broken (fault : NotationFault)
deriving DecidableEq

namespace Token

def isBlank (c : Char) : Bool :=
  c = ' ' || c = '\n' || c = '\t' || c = '\r'

/-- A token with the characters after it, or a broken one with none. -/
def orBroken {α : Type} (result : Except NotationFault (α × List Char)) (token : α → Token)
    (broken : NotationFault → Token) : Token × List Char :=
  match result with
  | .ok (value, rest) => (token value, rest)
  | .error fault => (broken fault, [])

def afterWord : (word cs : List Char) → Except NotationFault (Unit × List Char)
  | [], cs => .ok ((), cs)
  | _, [] => .error .unfinished
  | expected :: word, c :: cs => if c = expected then afterWord word cs else .error .malformed

/-- The unit in four hexadecimal digits. The text ends too early if fewer than four bytes are
left. -/
def unit (cs : List Char) : Except NotationFault (Nat × List Char) :=
  if (cs.take 4).foldl (fun size c => size + c.utf8Size) 0 < 4 then .error .unfinished
  else
    match (cs.take 4).mapM Numeral.hexDigit? with
    | some [a, b, c, d] => .ok (((a * 16 + b) * 16 + c) * 16 + d, cs.drop 4)
    | _ => .error .malformed

def lowSurrogate (cs : List Char) : Except NotationFault (Nat × List Char) := do
  let (_, cs) ← afterWord ['\\', 'u'] cs
  let (low, cs) ← unit cs
  if 0xdc00 ≤ low ∧ low ≤ 0xdfff then return (low, cs) else .error .malformed

/-- The character of an escape that starts with `\u`, after these two. -/
def unitEscape (cs : List Char) : Except NotationFault (Char × List Char) := do
  let (high, cs) ← unit cs
  if 0xdc00 ≤ high ∧ high ≤ 0xdfff then .error .malformed
  else if 0xd800 ≤ high ∧ high ≤ 0xdbff then
    let (low, cs) ← lowSurrogate cs
    return (Char.ofNat (0x10000 + (high - 0xd800) * 0x400 + (low - 0xdc00)), cs)
  else return (Char.ofNat high, cs)

def escape : List Char → Except NotationFault (Char × List Char)
  | [] => .error .unfinished
  | 'u' :: cs => unitEscape cs
  | '"' :: cs => .ok ('"', cs)
  | '\\' :: cs => .ok ('\\', cs)
  | '/' :: cs => .ok ('/', cs)
  | 'b' :: cs => .ok ('\x08', cs)
  | 'f' :: cs => .ok ('\x0c', cs)
  | 'n' :: cs => .ok ('\n', cs)
  | 'r' :: cs => .ok ('\r', cs)
  | 't' :: cs => .ok ('\t', cs)
  | _ => .error .malformed

/-- The characters of a text up to its closing quote, and what follows that. -/
def textBody : (steps : Nat) → List Char → Except NotationFault (List Char × List Char)
  | 0, _ | _, [] => .error .unfinished
  | _ + 1, '"' :: cs => .ok ([], cs)
  | steps + 1, '\\' :: cs => do
    let (c, cs) ← escape cs
    let (body, rest) ← textBody steps cs
    return (c :: body, rest)
  | steps + 1, c :: cs => do
    if c.toNat < 0x20 then .error .malformed
    else
      let (body, rest) ← textBody steps cs
      return (c :: body, rest)

/-- The token that starts with a character, and what follows it. -/
def startingWith (c : Char) (cs : List Char) : Token × List Char :=
  match c with
  | '\x7b' => (openObject, cs)
  | '\x7d' => (closeObject, cs)
  | '[' => (openList, cs)
  | ']' => (closeList, cs)
  | ':' => (colon, cs)
  | ',' => (comma, cs)
  | 'n' => orBroken (afterWord "ull".toList cs) (fun _ => null) broken
  | 't' => orBroken (afterWord "rue".toList cs) (fun _ => boolean true) broken
  | 'f' => orBroken (afterWord "alse".toList cs) (fun _ => boolean false) broken
  | '"' =>
    orBroken (textBody (cs.length + 1) cs) (fun body => text (String.ofList body)) brokenText
  | '-' => orBroken (Numeric.read true cs) number broken
  | _ =>
    if c.isDigit then orBroken (Numeric.read false (c :: cs)) number broken
    else (broken .malformed, [])

/-- The tokens of a text; at most as many as it has characters. -/
def scan : (steps : Nat) → List Char → List Token
  | 0, _ => []
  | steps + 1, cs =>
    match cs.dropWhile isBlank with
    | [] => []
    | c :: rest =>
      let (token, rest) := startingWith c rest
      token :: scan steps rest

def ofText (text : String) : List Token :=
  scan text.length text.toList

/-- What is wrong with a token where a value of another kind has to stand. -/
def mismatch : Token → NotationFault
  | brokenText fault | broken fault => fault
  | closeObject | closeList | colon | comma => .malformed
  | _ => .unsuitable

end Token

end Overprint.Notation
