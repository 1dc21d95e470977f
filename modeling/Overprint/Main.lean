import Overprint.CommandLine

/-!
# The program

Looks at the files that a command line can touch, runs it on them, and writes what came of it.
-/

namespace Overprint

/-- The store with the file at a path, if there is one, and the directories on the way. -/
def FileStore.fetch (store : FileStore) (path : String) : IO FileStore := do
  let address := FileStore.address path
  let here ← IO.currentDir
  let ways := (List.range (address.length + 1)).map address.take
  let directories ← ways.filterM fun names => (here / "/".intercalate names).isDir
  let store := { store with directories := directories ++ store.directories }
  try
    return store.put address (.bytes (← IO.FS.readBinFile path))
  catch _ => return store

/-- The files that a command line can touch. -/
def gather (configurationPath? : Option String) (arguments : List String) : IO FileStore := do
  let store ← configurationPath?.toList.foldlM FileStore.fetch { files := ∅ }
  match Invocation.read arguments, store.configuration configurationPath? with
  | .ok invocation, .ok configuration =>
    (invocation.paths configuration).foldlM FileStore.fetch store
  | _, _ => return store

/-- Writes the file that a run made, if it succeeded, and the copies that it left behind. -/
def settle (arguments : List String) (report : Report) (store : FileStore) : IO Unit := do
  if let (none, .ok invocation) := (report.failure?, Invocation.read arguments) then
    if let some path := invocation.target? then
      if let .ok content := store.read path then
        IO.FS.writeBinFile path content.toBytes
  for copy in store.copies do
    let (handle, _) ← IO.FS.createTempFile
    handle.write copy.toBytes

end Overprint

open Overprint in
def main (arguments : List String) : IO UInt32 := do
  let configurationPath? ← IO.getEnv "PDFSTAMP_CONFIG"
  let store ← gather configurationPath? arguments
  let (report, after) := store.run configurationPath? (arguments.map Text.encodeUtf8)
  settle arguments report after
  IO.print report.output
  IO.eprint report.errorOutput
  return report.status
