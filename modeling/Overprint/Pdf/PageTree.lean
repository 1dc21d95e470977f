import Overprint.Failure
import Overprint.Pdf.Document

/-!
# The pages of a document

Pages are the leaves of a tree, met depth first. A page may occur several times. As the tree may be
damaged, every node looked at is paid for from a budget as large as the document, so that a walk in a
circle ends.
-/

namespace Overprint.Pdf

namespace Document

def kids? (document : Document) (id : ObjectId) : Option (List Object) := do
  let node ← document.dictionary? id
  (← document.target? (← Dictionary.get? "Kids" node)).toArray?

def nodeKind? (document : Document) (id : ObjectId) : Option String := do
  (← Dictionary.get? "Type" (← document.dictionary? id)).toName?

/-- How many levels of the tree can wait while a level below them is walked. -/
def levelLimit : Nat := 256

/-- The first node that is left, from the level being walked or else from those that wait. -/
def nextNode? : List Object → List (List Object) →
    Option (Object × List Object × List (List Object))
  | node :: rest, waiting => some (node, rest, waiting)
  | [], level :: waiting => nextNode? level waiting
  | [], [] => none

/-- The pages on a level and on those that wait, for a budget of nodes to look at. -/
def pagesFrom (document : Document) : (budget : Nat) → List Object → List (List Object) →
    List ObjectId
  | 0, _, _ => []
  | budget + 1, level, waiting =>
    match nextNode? level waiting with
    | none => []
    | some (node, rest, waiting) =>
      match node with
      | .reference id =>
        match document.nodeKind? id with
        | some "Page" => id :: document.pagesFrom budget rest waiting
        | some "Pages" =>
          if waiting.length < levelLimit then
            let waiting := if rest.isEmpty then waiting else rest :: waiting
            document.pagesFrom budget ((document.kids? id).getD []) waiting
          else document.pagesFrom budget rest waiting
        | _ => document.pagesFrom budget rest waiting
      | _ => document.pagesFrom budget rest waiting

def pageRoot? (document : Document) : Option ObjectId := do
  let catalog ← document.dictionary? (← (← Dictionary.get? "Root" document.trailer).toReference?)
  (← Dictionary.get? "Pages" catalog).toReference?

def pages (document : Document) : List ObjectId :=
  let top := (document.pageRoot?.bind document.kids?).getD []
  document.pagesFrom document.objects.size top []

def page (document : Document) (number : Nat) : Outcome ObjectId :=
  let pages := document.pages
  match (if number = 0 then none else pages[number - 1]?) with
  | some id => .ok id
  | none => .error (.pageNotFound number pages.length)

end Document

end Overprint.Pdf
