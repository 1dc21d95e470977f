import Overprint.Script.Operand

/-!
# Page selections

A selection is given by tokens, each a page number or a range of pages whose bounds may be left out.
It is kept as the spans of the tokens: a page is selected if one of them covers it.
-/

namespace Overprint.Page

open Number Script

/-- Pages from the first to the last, or to the end of the document. -/
structure Span where
  first : Nat
  last? : Option Nat
deriving DecidableEq

namespace Span

def covers (span : Span) (page : Nat) : Bool :=
  span.first ≤ page && span.last?.all (page ≤ ·)

/-- A page number: digits after an optional plus sign, in sixty-four bits and not zero. -/
def pageNumber? (cs : List Char) : Option Nat := do
  let number ← match Text.trim cs with
    | '+' :: digits => Numeral.natural? digits
    | digits => Numeral.natural? digits
  if 1 ≤ number ∧ number < 0x10000000000000000 then some number else none

def number (token : String) (part : List Char) : Outcome Nat :=
  match pageNumber? part with
  | some number => .ok number
  | none => .error (.pageNumber token)

/-- The span that a token gives in a document of so many pages. A range may reach beyond the
document, a single page may not. -/
def read (pageCount : Nat) (token : String) : Outcome Span :=
  let cs := token.toList
  match cs.dropWhile (· ≠ '-') with
  | [] => do
    let page ← number token cs
    if pageCount < page then .error (.pageAbsent page pageCount)
    else return ⟨page, some page⟩
  | _ :: after => do
    let before := cs.takeWhile (· ≠ '-')
    let first ← if Text.trim before = [] then pure 1 else number token before
    if Text.trim after = [] then return ⟨first, none⟩
    else
      let last ← number token after
      if last < first then .error (.reversedRange token)
      else return ⟨first, some last⟩

end Span

/-- Pages of a document of so many pages. -/
structure Selection where
  pageCount : Nat
  spans : List Span
deriving DecidableEq

namespace Selection

/-- What is selected before anything is said: the first page. -/
def initial (pageCount : Nat) : Selection :=
  ⟨pageCount, [⟨1, some 1⟩]⟩

def ofTokens (pageCount : Nat) (tokens : List Operand) : Outcome Selection := do
  let spans ← tokens.mapM fun token => Span.read pageCount token.text
  return ⟨pageCount, spans⟩

def contains (selection : Selection) (page : Nat) : Bool :=
  1 ≤ page && page ≤ selection.pageCount && selection.spans.any (·.covers page)

def pages (selection : Selection) : List Nat :=
  (List.range' 1 selection.pageCount).filter selection.contains

end Selection

end Overprint.Page
