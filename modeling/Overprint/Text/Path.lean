/-!
# Path names

The parts of a path name that the program looks at: its components, its last name and that name
without the extension.
-/

namespace Overprint.Text.Path

/-- The pieces between slashes, empty ones included. -/
def segments (path : String) : List (List Char) :=
  path.toList.splitOn '/'

/-- The names along the path. Empty segments and `.` stand for nothing. -/
def names (path : String) : List (List Char) :=
  (segments path).filter fun segment => segment ≠ [] && segment ≠ ['.']

/-- What tells two path names apart: where they start (`/`, `.` or neither) and the names along
them. -/
def components (path : String) : List String :=
  let start := match segments path with
    | [] :: _ :: _ => ["/"]
    | ['.'] :: _ => ["."]
    | _ => []
  start ++ (names path).map String.ofList

/-- The last name along the path, unless that is `..`. -/
def fileName? (path : String) : Option String :=
  match (names path).getLast? with
  | none => none
  | some name => if name = ['.', '.'] then none else some (String.ofList name)

/-- The last name up to its last dot; a dot in front is part of the name. -/
def fileStem? (path : String) : Option String := do
  let name ← fileName? path
  match name.toList.reverse.dropWhile (· ≠ '.') with
  | [] | [_] => some name
  | _ :: stem => some (String.ofList stem.reverse)

end Overprint.Text.Path
