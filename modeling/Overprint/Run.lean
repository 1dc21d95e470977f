import Overprint.Invocation
import Overprint.Usage

/-!
# A run

The program from its arguments and files to what it prints and the files it leaves.
-/

namespace Overprint

/-- What a run prints, and whether it failed. -/
structure Report where
  output : String := ""
  failure? : Option Failure := none

namespace Report

def status (report : Report) : UInt32 :=
  if report.failure?.isSome then 1 else 0

def complaint (failure : Failure) : String :=
  Usage.program ++ ": " ++ failure.message ++ "\n"

/-- Whether the usage text follows: the command line was at fault. -/
def wantsUsage (failure : Failure) : Bool :=
  failure.area = .usage || failure.area = .grammar

def errorOutput (report : Report) : String :=
  match report.failure? with
  | none => ""
  | some failure => complaint failure ++ if wantsUsage failure then Usage.text else ""

end Report

def argumentTexts (arguments : List (List UInt8)) : Outcome (List String) :=
  arguments.mapM fun argument =>
    match Text.decodeUtf8? argument with
    | some text => .ok text
    | none => .error (.argumentNotText argument)

namespace Disk

variable {α : Type} (formats : Formats α)

/-- Carries out an invocation on files. The configuration is only read to stamp. The copy is at a
temporary path while the input is replaced; if there is no such path it cannot be made. -/
def carryOut (disk : Disk α) (configurationPath? : Option String) (invocation : Invocation) :
    Outcome String × Disk α :=
  match invocation with
  | .help => (.ok Usage.text, disk)
  | .version => (.ok (Usage.program ++ " " ++ Usage.version ++ "\n"), disk)
  | .stamp script input output? =>
    match disk.configuration formats configurationPath? with
    | .error failure => (.error failure, disk)
    | .ok configuration =>
      let temporary? := disk.temporary? (invocation.paths configuration)
      let mishaps : Mishaps α := { creation? := if temporary?.isNone then some .missing else none }
      let temporary := temporary?.getD ""
      let (ending, disk) :=
        disk.stamp formats mishaps configuration script temporary input output?
      (ending.outcome.map fun _ => "", disk.setAside (address temporary))

def run (disk : Disk α) (configurationPath? : Option String) (arguments : List (List UInt8)) :
    Report × Disk α :=
  match argumentTexts arguments >>= Invocation.read with
  | .error failure => ({ failure? := some failure }, disk)
  | .ok invocation =>
    match disk.carryOut formats configurationPath? invocation with
    | (.ok output, disk) => ({ output }, disk)
    | (.error failure, disk) => ({ failure? := some failure }, disk)

end Disk

end Overprint
