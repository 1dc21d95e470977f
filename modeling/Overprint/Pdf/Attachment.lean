import Overprint.Pdf.Canvas

/-!
# Attaching a stamp to a page

The stamp becomes a content stream of its own, under or over what the page shows. A page gets a copy
of the resources in force for it, with the fonts and pictures of the stamp added, and a list of its
content; nothing that other pages share is written to.
-/

namespace Overprint.Pdf

def Document.change (document : Document) (id : ObjectId) (edit : Dictionary → Dictionary) :
    Except ObjectFault Document :=
  match document.locate id with
  | .error (.absent missing) => .error (.absent missing.number missing.generation)
  | .error .endless => .error .endless
  | .ok (place, .dictionary entries) => .ok (document.put place (.dictionary (edit entries)))
  | .ok (_, other) => .error (.notDictionary other.kind)

/-- Resources with more names in one of their categories. -/
def addNames (document : Document) (category : String) (names : SortedMap String ObjectId)
    (resources : Dictionary) : Dictionary :=
  if names.entries = [] then resources
  else
    let old := (Dictionary.get? category resources).bind fun object =>
      (document.resolve object).toDictionary?
    let new := names.entries.foldl
      (fun entries (name, id) => Dictionary.set name (.reference id) entries) (old.getD [])
    Dictionary.set category (.dictionary new) resources

namespace Press

/-- The content of a page with a stamp: the stamp under what is there, or over it, what is there then
being bracketed. -/
def arrange (press : Press) (existing : List Object) (stamp : ObjectId) : List Object × Press :=
  match press.layer with
  | .under => (.reference stamp :: existing, press)
  | .over =>
    if existing.isEmpty then ([.reference stamp], press)
    else
      let ((save, restore), press) := press.useWrappers
      (.reference save :: existing ++ [.reference restore, .reference stamp], press)

/-- Attaches a stamp to a page. If the page is no dictionary, what was added for it stays. -/
def attach (press : Press) (page : ObjectId) (stamp : Stamp) : Outcome Unit × Press :=
  let (content, press) := press.addContent (contentOf stamp.operations)
  let resources := press.document.resources page
    |> addNames press.document "Font" stamp.fonts
    |> addNames press.document "XObject" stamp.pictures
  let (contents, press) := press.arrange (press.document.contentEntries page) content
  let edit (entries : Dictionary) : Dictionary :=
    entries
      |> Dictionary.set "Resources" (.dictionary resources)
      |> Dictionary.set "Contents" (.array contents)
  match press.document.change page edit with
  | .ok document => (.ok (), { press with document })
  | .error fault => (.error (.pageNotWritable page.number page.generation fault), press)

end Press

end Overprint.Pdf
