import ClassEdit.Command.Arguments
import ClassEdit.Command.Files
import ClassEdit.Command.Json

/-!
# The environment of commands

What commands do is one thing, and what they rely on is another: how arguments and configurations
are read, where a path leads, how a result is written as JSON, and whether the output takes it. The
latter is an environment. The program has one of its own.

## Main definitions

* `Environment`: what commands rely on.
* `Environment.standard`: the environment of the program.
* `Environment.find?`, `Environment.write`: files by their paths.
-/

namespace ClassEdit

/-- What commands rely on. -/
structure Environment where
  /-- The request of a command line, if it is one. -/
  request? : List String → Option Request
  /-- The configuration that a text holds, if it holds one. -/
  config? : List Char → Option Config
  /-- The name of the file that a path leads to, among the names of all files. -/
  locate? : List String → String → Option String
  /-- A value as text, or the reason why it has none. -/
  serialize : JsonValue → Except String String
  /-- Whether the output takes a text. -/
  accepts : String → Bool

namespace Environment

/-- The environment of the program, with an output that takes everything. -/
def standard : Environment where
  request? := Request.parse?
  config? := Config.parse?
  locate? := ClassEdit.locate?
  serialize value := .ok value.render
  accepts _ := true

/-- The file that a path leads to. -/
def find? (env : Environment) (dir : Directory) (path : String) : Option File := do
  dir.lookup (← env.locate? dir.names path)

/-- The directory with another content in the file that a path leads to. -/
def write (env : Environment) (dir : Directory) (path : String) (content : List Char) :
    Directory :=
  match env.locate? dir.names path with
  | some name => dir.write name content
  | none => dir

end Environment

end ClassEdit
