import Overprint.Text.Path

/-!
# Templates

The variables that a text may contain: the page, the number of pages, and the path and name of the
input.
-/

namespace Overprint.Drawing

/-- The characters with every occurrence of a pattern replaced, from the left. -/
def substitute (pattern replacement : List Char) (cs : List Char) : List Char :=
  match cs with
  | [] => []
  | c :: rest =>
    if pattern.isPrefixOf (c :: rest) then
      replacement ++ substitute pattern replacement (rest.drop (pattern.length - 1))
    else c :: substitute pattern replacement rest
termination_by cs.length

/-- What the variables stand for. -/
structure Place where
  page : Nat
  pageCount : Nat
  pathname : String

namespace Place

/-- The last name of the path, or all of it if there is none. -/
def filename (place : Place) : String :=
  (Text.Path.fileName? place.pathname).getD place.pathname

/-- A text with every occurrence of a name in braces replaced. -/
def fill (name value : String) (cs : List Char) : List Char :=
  substitute ('\x7b' :: name.toList ++ ['\x7d']) value.toList cs

/-- A text with its variables replaced, one variable after the other. -/
def expand (place : Place) (text : String) : String :=
  let cs := fill "page" (toString place.page) text.toList
  let cs := fill "pages" (toString place.pageCount) cs
  let cs := fill "pathname" place.pathname cs
  String.ofList (fill "filename" place.filename cs)

end Place

end Overprint.Drawing
