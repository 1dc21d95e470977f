import Overprint.Disk
import Overprint.Script.Reading
import Overprint.Stamping

/-!
# Invocations

What a command line asks the program to do, and doing it on files. With an output file the input is
left alone. Without one the input is replaced: it is copied first, the copy is stamped into the place
of the input, and the copy is removed. The copy stays behind if any of that fails.
-/

namespace Overprint

open Script

inductive Invocation where
  | help
  | version
  | stamp (script : List Command) (input : String) (output? : Option String)

namespace Invocation

/-- What arguments ask for. Help and version are recognised in the first place only. -/
def read (arguments : List String) : Outcome Invocation :=
  match arguments with
  | [] => .error .noArguments
  | first :: _ =>
    if first = "-?" ∨ first = "--help" then .ok help
    else if first = "-V" ∨ first = "--version" then .ok version
    else do
      let line ← Script.read arguments
      match line.files with
      | [input] => return stamp line.commands input none
      | [input, output] => return stamp line.commands input (some output)
      | _ => .error .fileCount

/-- The paths that carrying out an invocation can look at, apart from the configuration. -/
def paths (configuration : Configuration) : Invocation → List String
  | help | version => []
  | stamp script input output? =>
    input :: output?.toList ++ (Stock.requests configuration.defaultFont? script).map Request.path

def target? : Invocation → Option String
  | help | version => none
  | stamp _ input output? => some (output?.getD input)

end Invocation

/-- What goes wrong with the file system while a file is stamped, whatever the files are. -/
structure Mishaps (α : Type) where
  creation? : Option FileFault := none
  /-- With what the copy holds then. -/
  copying? : Option (FileFault × α) := none
  reading? : Option FileFault := none
  /-- With what the file holds then, if it was opened. -/
  writing? : Option (FileFault × Option α) := none
  removal? : Option FileFault := none

inductive Ending where
  | done
  | stopped (failure : Failure)
  | unwritten (fault : FileFault)
  | unremoved (fault : FileFault)
deriving DecidableEq

def Ending.outcome : Ending → Outcome Unit
  | done => .ok ()
  | stopped failure => .error failure
  | unwritten fault | unremoved fault => .error (.file fault)

namespace Disk

variable {α : Type} (formats : Formats α)

/-- The configuration in a file, or the defaults if no file is named. -/
def configuration (disk : Disk α) (path? : Option String) : Outcome Configuration :=
  match path? with
  | none | some "" => .ok {}
  | some path =>
    match disk.read path with
    | .error fault => .error (.configurationUnreadable path fault)
    | .ok content =>
      match Text.decodeUtf8? (formats.bytes content).toList with
      | none => .error (.configurationUnreadable path .notText)
      | some text => Configuration.read text

/-- What a script makes of the document at a path. The path name is for templates. -/
def stamped (disk : Disk α) (configuration : Configuration) (script : List Command)
    (path pathname : String) : Outcome α := do
  let source ← (disk.read path).mapError fun fault => .asset path (.file fault)
  let document ← formats.source source
  let library := disk.library formats
  let stamped ← (Overprint.stamp configuration script document pathname library).outcome
  formats.written stamped

def stampFile (disk : Disk α) (mishaps : Mishaps α) (configuration : Configuration)
    (script : List Command) (input output pathname : String) : Ending × Disk α :=
  match mishaps.reading? with
  | some fault => (.stopped (.asset input (.file fault)), disk)
  | none =>
    match disk.stamped formats configuration script input pathname with
    | .error failure => (.stopped failure, disk)
    | .ok content =>
      match disk.placeForWriting output with
      | .error fault => (.unwritten fault, disk)
      | .ok names =>
        match mishaps.writing? with
        | some (fault, left?) => (.unwritten fault, left?.elim disk (disk.put names))
        | none => (.done, disk.put names content)

/-- Stamps a file in its own place, through a copy of it at the temporary path. -/
def stampInPlace (disk : Disk α) (mishaps : Mishaps α) (configuration : Configuration)
    (script : List Command) (temporary input : String) : Ending × Disk α :=
  match mishaps.creation? with
  | some fault => (.stopped (.file fault), disk)
  | none =>
    let copy := address temporary
    let created := disk.put copy formats.empty
    match created.readForCopy input with
    | .error fault => (.stopped (.asset input (.file fault)), created)
    | .ok source =>
      match mishaps.copying? with
      | some (fault, part) => (.stopped (.asset input (.file fault)), created.put copy part)
      | none =>
        let copied := created.put copy source
        match copied.stampFile formats mishaps configuration script temporary input input with
        | (.done, disk) =>
          match mishaps.removal? with
          | some fault => (.unremoved fault, disk)
          | none => (.done, disk.remove copy)
        | (ending, disk) => (ending, disk)

/-- Stamps a file into another one, or in its own place. -/
def stamp (disk : Disk α) (mishaps : Mishaps α) (configuration : Configuration)
    (script : List Command) (temporary input : String) (output? : Option String) :
    Ending × Disk α :=
  match output? with
  | some output => disk.stampFile formats mishaps configuration script input output input
  | none => disk.stampInPlace formats mishaps configuration script temporary input

end Disk

end Overprint
