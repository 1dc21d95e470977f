import Overprint.Formats
import Overprint.Stock
import Overprint.Text.Path

/-!
# Files

The files of a run, by the names that lead to them, and the temporary copies that were left behind.
The names start at the working directory, with `..` for each step above it, or with `/` at the root.
A directory is there if it is known to be, if a file below it is there, or if the working directory
lies in it; the directory for temporary files always is.
-/

namespace Overprint

structure Disk (α : Type) where
  files : SortedMap (List String) α
  directories : List (List String) := [["/", "tmp"]]
  copies : List α := []

namespace Disk

/-- What a path leads to. -/
inductive Place (α : Type) where
  | file (names : List String) (content : α)
  | directory
  | vacant (names : List String)

variable {α : Type}

def isDirectory (disk : Disk α) (names : List String) : Bool :=
  names.all (· = "..") || names = ["/"] || disk.directories.contains names ||
    disk.files.keys.any fun file => names.isPrefixOf file && file ≠ names

/-- The directory above another. The root lies in itself. -/
def above (directory : List String) : List String :=
  match directory.getLast? with
  | none | some ".." => directory ++ [".."]
  | some "/" => directory
  | some _ => directory.dropLast

def start (path : String) : List String :=
  if path.toList.head? = some '/' then ["/"] else []

def step (directory : List String) (segment : List Char) : List String :=
  if segment = [] ∨ segment = ['.'] then directory
  else if segment = ['.', '.'] then above directory
  else directory ++ [String.ofList segment]

/-- The names by which a file at a path is stored, if what the path leads through are directories. -/
def address (path : String) : List String :=
  (Text.Path.segments path).foldl step (start path)

def nameLimit : Nat := 255

def pathLimit : Nat := 4095

/-- Walks a path from a directory. Nothing but a directory can be walked into, and no directory has
names that are too long. -/
def walk (disk : Disk α) (directory : List String) : List (List Char) → Except FileFault (Place α)
  | [] => .ok .directory
  | segment :: rest =>
    if nameLimit < (String.ofList segment).utf8ByteSize then .error .nameTooLong
    else
      let names := step directory segment
      if disk.isDirectory names then disk.walk names rest
      else
        match disk.files.get? names with
        | some content => if rest = [] then .ok (.file names content) else .error .notDirectory
        | none => if rest = [] then .ok (.vacant names) else .error .missing

/-- Refuses what cannot be a path. The empty path leads nowhere. -/
def checkPath (path : String) : Except FileFault Unit :=
  if path.toList.contains '\x00' then .error .nulInName
  else if pathLimit < path.utf8ByteSize then .error .nameTooLong
  else if path = "" then .error .missing
  else .ok ()

def locate (disk : Disk α) (path : String) : Except FileFault (Place α) := do
  checkPath path
  disk.walk (start path) (Text.Path.segments path)

def read (disk : Disk α) (path : String) : Except FileFault α := do
  match ← disk.locate path with
  | .file _ content => return content
  | .directory => .error .directory
  | .vacant _ => .error .missing

def readForCopy (disk : Disk α) (path : String) : Except FileFault α := do
  match ← disk.locate path with
  | .file _ content => return content
  | .directory => .error .notRegular
  | .vacant _ => .error .missing

def isFile (disk : Disk α) (path : String) : Bool :=
  match disk.locate path with
  | .ok (.file ..) => true
  | _ => false

/-- Whether a path leads to a place where there is no file, but could be one. -/
def isVacant (disk : Disk α) (path : String) : Bool :=
  match disk.locate path with
  | .ok (.vacant _) => true
  | _ => false

def put (disk : Disk α) (address : List String) (content : α) : Disk α :=
  { disk with files := disk.files.insert address content }

def remove (disk : Disk α) (address : List String) : Disk α :=
  { disk with files := disk.files.erase address }

/-- The disk with the file at an address among the copies that were left behind. -/
def setAside (disk : Disk α) (address : List String) : Disk α :=
  match disk.files.get? address with
  | some copy => { disk.remove address with copies := copy :: disk.copies }
  | none => disk

/-- A path for a temporary file: there is none yet, and no path of the list leads there. -/
def temporary? (disk : Disk α) (named : List String) : Option String :=
  let candidates := (List.range (disk.files.size + named.length + 1)).map fun index =>
    s!"/tmp/stamppdf-{index}.pdf"
  candidates.find? fun path =>
    disk.isVacant path && named.all fun other => address other ≠ address path

def withoutEndSlashes (path : String) : String :=
  String.ofList (path.toList.reverse.dropWhile (· = '/')).reverse

/-- Where a file can be written. A path that ends in a slash asks for a directory, and one of slashes
only is the root. -/
def placeForWriting (disk : Disk α) (path : String) : Except FileFault (List String) := do
  checkPath path
  let bare := withoutEndSlashes path
  if bare = "" then .error .directory
  else
    match ← disk.locate bare with
    | .directory => .error .directory
    | .file names _ | .vacant names => if bare = path then return names else .error .directory

variable (formats : Formats α)

/-- A font file, or else the standard font of the name. -/
def font (disk : Disk α) (name : String) : Outcome Font :=
  if disk.isFile name then
    match disk.read name with
    | .ok content => .embedded <$> formats.font name content
    | .error fault => .error (.asset name (.file fault))
  else
    match StandardFont.ofName? name with
    | some font => .ok (.standard font)
    | none => .error (.asset name .noSuchFont)

def picture (disk : Disk α) (path : String) : Outcome Picture :=
  match disk.read path with
  | .ok content => formats.picture path content
  | .error fault => .error (.asset path (.file fault))

def library (disk : Disk α) : Library where
  font := disk.font formats
  picture := disk.picture formats

end Disk

end Overprint
