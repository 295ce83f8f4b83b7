import ClassEdit.Text.Blank
import ClassEdit.Tree.Basic

/-!
# Files

A command works on the files of a directory, which have names that may lead into directories below
it. A path is followed part by part, as far as the directories on it exist.

## Main definitions

* `File`, `Directory`: what a command works on.
* `locate?`: the name of the file that a path leads to.
-/

namespace ClassEdit

/-- A file. A C++ file comes with its syntax tree and whether that has errors. -/
structure File where
  content : List Char
  tree : Option (Tree × Bool) := none

/-- The files of a directory by name. -/
abbrev Directory := List (String × File)

namespace Directory

/-- The names of the files. -/
def names (dir : Directory) : List String :=
  dir.map Prod.fst

/-- The directory with another content in a file. -/
def write (dir : Directory) (name : String) (content : List Char) : Directory :=
  dir.map fun (other, file) => if other = name then (other, { content }) else (other, file)

end Directory

/-! ## Paths -/

/-- The parts of a path. -/
def pathParts (path : String) : List (List Char) :=
  Text.parts (· = '/') path.toList

/-- Whether some of the files are below the directory with the given parts. -/
def isDirectory (names : List String) (parts : List (List Char)) : Bool :=
  names.any fun name => parts.isPrefixOf (pathParts name).dropLast

/-- Follows one part of a path from a directory. No path leads out of the outermost one. -/
def enter? (names : List String) (parts : List (List Char)) (part : List Char) :
    Option (List (List Char)) :=
  if part = [] || part = ['.'] then some parts
  else if part = ['.', '.'] then
    if parts.isEmpty then none else some parts.dropLast
  else if isDirectory names (parts ++ [part]) then some (parts ++ [part])
  else none

/-- The name of the file that a path leads to from the directory of the files. A path from the root
of all files does not lead there. -/
def locate? (names : List String) (path : String) : Option String := do
  let parts := pathParts path
  let last ← parts.getLast?
  if parts.head? = some [] || last = [] || last = ['.'] || last = ['.', '.'] then none
  else
    let above ← parts.dropLast.foldlM (enter? names) []
    return String.ofList (['/'].intercalate (above ++ [last]))

end ClassEdit
