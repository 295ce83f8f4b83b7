import ClassEdit.Command.Environment
import ClassEdit.Command.Quoted
import ClassEdit.Edit.Session

/-!
# Running commands

A command works on the files of a directory. It prints a text and ends with a status; only the
implementation of an interface in place changes a file. The file is written before the result is
put into the format asked for and printed. What has been written stays if that fails.

## Main definitions

* `Environment.loadConfig`: the configuration of a directory.
* `Action`: what a command does to the files, and its result or failure.
* `Command.run`, `Invocation.run`: the text that a command prints, and the files after it.
* `Environment.run`: the outcome of a command line in an environment.
* `runCommandLine`: the outcome of a command line.
-/

namespace ClassEdit

/-! ## Configuration -/

/-- Why there is no configuration. -/
inductive ConfigError where
  | read
  | parse
deriving DecidableEq, Repr

/-- The stable identifier of the cause. -/
def ConfigError.code : ConfigError → String
  | read => "implementor::config::read"
  | parse => "implementor::config::parse"

/-- The file that is read if no other is named. -/
def defaultConfigFile : String := "implementor.toml"

/-- The configuration in the file that is named, or else in the default file if there is one. -/
def Environment.loadConfig (env : Environment) (dir : Directory) (named : Option String) :
    Except ConfigError Config :=
  let parse (file : File) : Except ConfigError Config :=
    match env.config? file.content with
    | some config => .ok config
    | none => .error .parse
  match named with
  | some path =>
    match env.find? dir path with
    | some file => parse file
    | none => .error .read
  | none =>
    match env.find? dir defaultConfigFile with
    | some file => parse file
    | none => .ok {}

/-! ## Results -/

/-- An insertion as JSON. -/
def Insertion.toJson (i : Insertion) : JsonValue :=
  .object [("offset", .number i.offset), ("text", .string i.text)]

/-- A place as JSON. -/
def PublicPlace.toJson (p : PublicPlace) : JsonValue :=
  .object [("offset", .number p.offset), ("is_public_section_needed", .bool p.needsLabel)]

/-- An edit as JSON. -/
def Implementation.toJson (i : Implementation) : JsonValue :=
  let insertion (i : Option Insertion) : JsonValue := (i.map Insertion.toJson).getD .null
  .object [("declarations", .array (i.declarations.map .string)),
    ("base_specifier", insertion i.baseSpecifier), ("overrides", insertion i.overrides),
    ("is_public_section_needed", .bool i.needsLabel)]

/-- An offset with its line and column, both counted from 1. -/
def Document.describeOffset (d : Document) (offset : Nat) : String :=
  let (line, column) := d.lineColumn offset
  s!"offset: {offset} (line {line + 1}, column {column + 1})\n"

/-- A place as text. -/
def PublicPlace.describe (p : PublicPlace) (d : Document) : String :=
  d.describeOffset p.offset ++ "public section needed: " ++
    (if p.needsLabel then "true" else "false") ++ "\n"

/-- An insertion as text. -/
def Insertion.describe (i : Insertion) (d : Document) : String :=
  d.describeOffset i.offset ++ "insert: " ++ quoted i.text ++ "\n"

/-! ## Actions -/

/-- Why a command fails. -/
inductive CommandError where
  | config (error : ConfigError) (path : String)
  /-- The file cannot be read, or has no syntax tree. -/
  | file (path : String)
  | failure (failure : Failure)
  /-- The result cannot be put into the format asked for. -/
  | output (reason : String)
deriving DecidableEq, Repr

/-- The sentence that reports the cause. -/
def CommandError.message : CommandError → String
  | config .read path => s!"Failed to read config file {path}"
  | config .parse path => s!"Invalid config file {path}"
  | file path => s!"Failed to read {path}"
  | failure (.lookup error) => error.message
  | failure (.edit error) => error.message
  | output reason => reason

/-- What is done to the files of a directory, with a result or a failure. A failure does not undo
what has been done before it. -/
abbrev Action := ExceptT CommandError (StateM Directory)

namespace Action

variable {α β : Type}

/-- The result or failure of an action in a directory, and the directory after it. -/
def apply (action : Action α) (dir : Directory) : Except CommandError α × Directory :=
  action.run.run dir

/-- Goes on with a result that has been worked out, or fails. -/
def of (result : Except CommandError α) : Action α :=
  fun dir => (result, dir)

/-- Writes the file that a path leads to. -/
def write (env : Environment) (path : String) (content : List Char) : Action Unit :=
  modify fun dir => env.write dir path content

/-- Puts a result into the format asked for. -/
def format (env : Environment) (format : OutputFormat) (json : JsonValue) (text : String) :
    Action String :=
  match format with
  | .json =>
    match env.serialize json with
    | .ok json => return json ++ "\n"
    | .error reason => throw (.output reason)
  | .text => return text

end Action

/-! ## Commands -/

/-- The translation unit in a file. -/
def Environment.loadUnit (env : Environment) (dir : Directory) (path : String) :
    Except CommandError TranslationUnit :=
  match env.find? dir path with
  | some { content, tree := some (tree, hasErrors) } =>
    .ok (.ofTree { path := some path, text := content } tree hasErrors)
  | _ => .error (.file path)

/-- The class of a name. -/
def TranslationUnit.requireRecord (u : TranslationUnit) (name : String) :
    Except CommandError Record :=
  (u.record name).mapError .failure

/-- The result of an edit. -/
def requireEdit {α : Type} (result : Except EditError α) : Except CommandError α :=
  result.mapError (.failure ∘ .edit)

/-- Runs a command on the unit in a file. The result is the text to print. -/
def Command.run (command : Command) (env : Environment) (file : String) (u : TranslationUnit)
    (config : Config) : Action String := do
  match command with
  | .implement derived interface inPlace =>
    let implementation ← .of ((u.implementNamed derived interface config.render).mapError .failure)
    let edited ← .of (requireEdit (implementation.apply u.source.text))
    if inPlace then
      Action.write env file edited
    .format env config.format implementation.toJson (if inPlace then "" else String.ofList edited)
  | .overrides interface =>
    let record ← .of (u.requireRecord interface)
    let declarations := u.overrides record config.render
    .format env config.format (.array (declarations.map .string))
      (String.join (declarations.map (· ++ "\n")))
  | .place name =>
    let record ← .of (u.requireRecord name)
    let found ← .of (requireEdit (findPublicPlace u.source.text record u.source))
    .format env config.format found.toJson (found.describe u.source.document)
  | .base derivedName baseName =>
    let derivedRecord ← .of (u.requireRecord derivedName)
    let baseRecord ← .of (u.requireRecord baseName)
    let insertion ← .of (requireEdit (addBase u.source.text derivedRecord baseRecord u.source))
    .format env config.format insertion.toJson (insertion.describe u.source.document)

/-- The configuration file of an invocation. -/
def Invocation.configFile (invocation : Invocation) : String :=
  invocation.config.getD defaultConfigFile

/-- The settings of an invocation: those of the configuration, and over them those given with the
command. -/
def Invocation.settings (invocation : Invocation) (config : Config) : Config where
  render := ⟨invocation.ignoresAttributes || config.render.ignoresAttributes⟩
  format := invocation.format.getD config.format

/-- Runs an invocation. The result is the text to print. -/
def Invocation.run (invocation : Invocation) (env : Environment) : Action String := do
  let dir ← get
  let config ← .of ((env.loadConfig dir invocation.config).mapError
    (.config · invocation.configFile))
  let u ← .of (env.loadUnit dir invocation.file)
  invocation.command.run env invocation.file u (invocation.settings config)

/-- The outcome of a command line. -/
structure Outcome where
  status : Nat
  output : String
  /-- What is reported beside the output. -/
  diagnostic : String
  directory : Directory

/-- The name and version of the program. -/
def versionLine : String := "implementor 0.1.0\n"

/-- What is reported if the output does not take the text to print. -/
def printFailure : String := "failed printing to stdout\n"

/-- The outcome of printing the result of an action, with the directory after the action. -/
def Environment.print (env : Environment) : Except CommandError String × Directory → Outcome
  | (.ok output, dir) =>
    if env.accepts output then ⟨0, output, "", dir⟩ else ⟨101, "", printFailure, dir⟩
  | (.error error, dir) => ⟨1, "", error.message ++ "\n", dir⟩

/-- The outcome of a command line in an environment: status 2 if it is no request, 1 if the command
fails, and 101 if its result cannot be printed. -/
def Environment.run (env : Environment) (args : List String) (dir : Directory) : Outcome :=
  match env.request? args with
  | none => ⟨2, "", usage, dir⟩
  | some .help => ⟨0, usage, "", dir⟩
  | some .version => ⟨0, versionLine, "", dir⟩
  | some (.run invocation) => env.print ((invocation.run env).apply dir)

/-- The outcome of a command line. -/
def runCommandLine (args : List String) (dir : Directory) : Outcome :=
  Environment.standard.run args dir

end ClassEdit
