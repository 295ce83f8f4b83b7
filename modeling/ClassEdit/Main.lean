import ClassEdit.Command.Run
import ClassEdit.Tree.Listing

/-!
# The command line program

Reads the files that a command line names, runs it on them, and writes the file that it changed.
The syntax tree of a C++ file is the listing in the file beside it with `.tree` added to its name.
-/

namespace ClassEdit

/-- The text of a file, if it can be read. -/
def readText? (path : String) : IO (Option (List Char)) := do
  try
    return some (← IO.FS.readFile path).toList
  catch _ => return none

/-- A file with its syntax tree, if it can be read. -/
def readSource? (path : String) : IO (Option File) := do
  let some content ← readText? path | return none
  let listing ← readText? (path ++ ".tree")
  return some { content, tree := listing.bind Tree.ofListing? }

/-- The environment in which the files of a directory go by the paths to them, wherever these lead.
-/
def Environment.byPath : Environment :=
  { standard with locate? := fun _ path => some path }

/-- The files that an invocation works on, by path. -/
def Invocation.readDirectory (invocation : Invocation) : IO Directory := do
  let paths := [invocation.file, invocation.configFile]
  let files ← paths.mapM readSource?
  return (paths.zip files).filterMap fun (path, file) => file.map (path, ·)

/-- The files that a command line works on, by path. -/
def readDirectory (args : List String) : IO Directory :=
  match Environment.byPath.request? args with
  | some (.run invocation) => invocation.readDirectory
  | _ => return []

/-- Writes the files that have another content afterwards. -/
def writeChanges (before after : Directory) : IO Unit := do
  for ((_, old), path, new) in before.zip after do
    if old.content ≠ new.content then
      IO.FS.writeFile path (String.ofList new.content)

end ClassEdit

open ClassEdit in
/-- Runs a command line. -/
def main (args : List String) : IO UInt32 := do
  let dir ← readDirectory args
  let outcome := Environment.byPath.run args dir
  writeChanges dir outcome.directory
  (← IO.getStdout).putStr outcome.output
  (← IO.getStderr).putStr outcome.diagnostic
  return outcome.status.toUInt32
