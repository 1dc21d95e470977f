import Overprint.Page.Selection
import Overprint.Script.Command

/-!
# Which commands go to which page

A script is walked once. Its `pages` commands change the selection in force, every other command is
assigned to that selection, and the queue of a page holds the commands whose selections contain it.
-/

namespace Overprint.Page

open Script

/-- The commands of a script, each with the selection it was met under. -/
structure Schedule where
  pageCount : Nat
  assigned : List (Selection × Command)

namespace Schedule

/-- The commands of a script with their selections, from the one in force at its start. -/
def assign (selection : Selection) : List Command → Outcome (List (Selection × Command))
  | [] => .ok []
  | command :: rest =>
    if command.verb = .pages then do
      let selection ← Selection.ofTokens selection.pageCount command.operands
      assign selection rest
    else do
      return (selection, command) :: (← assign selection rest)

/-- The schedule of a script for a document of so many pages, of which there is at least one. -/
def ofScript (script : List Command) (pageCount : Nat) : Outcome Schedule :=
  if pageCount = 0 then .error .noPages
  else do
    return ⟨pageCount, ← assign (Selection.initial pageCount) script⟩

def queue (schedule : Schedule) (page : Nat) : List Command :=
  (schedule.assigned.filter (·.1.contains page)).map (·.2)

/-- The pages with commands, in ascending order, and their commands. -/
def queues (schedule : Schedule) : List (Nat × List Command) :=
  ((List.range' 1 schedule.pageCount).map fun page => (page, schedule.queue page)).filter
    (!·.2.isEmpty)

end Schedule

end Overprint.Page
