import ClassEdit.Config.Basic

/-!
# Command lines

A command line names a command and its operand, with options before and after the name of the
command. Options that go with every command may stand on either side; if one stands on both, the
one after the command counts.

## Main definitions

* `Command`: what is asked for.
* `Invocation`: a command with the file it works on and its settings.
* `Request`: what a command line asks for.
* `Request.parse?`: the request of a command line.
-/

namespace ClassEdit

/-- What is asked for. -/
inductive Command where
  | implement (derived interface : String) (inPlace : Bool)
  | overrides (interface : String)
  | place (record : String)
  | base (derived base : String)
deriving DecidableEq, Repr

/-- A command with its file and the settings given with it. -/
structure Invocation where
  command : Command
  file : String
  config : Option String
  format : Option OutputFormat
  ignoresAttributes : Bool
deriving DecidableEq, Repr

/-- What a command line asks for. -/
inductive Request where
  | help
  | version
  | run (invocation : Invocation)
deriving DecidableEq, Repr

/-! ## Options -/

/-- What an option is followed by. -/
inductive OptionKind where
  /-- Nothing; it is given once. -/
  | switch
  /-- Nothing; it may be given again. -/
  | counter
  /-- Nothing; the rest of the line does not matter. -/
  | help
  /-- Nothing; the rest of the line does not matter. -/
  | version
  /-- Any text. -/
  | text
  /-- A path, which is not empty. -/
  | path
  /-- The name of an output format. -/
  | format
deriving DecidableEq, Repr

namespace OptionKind

/-- Whether a value belongs to an option of the kind. -/
def accepts (kind : OptionKind) (value : String) : Bool :=
  match kind with
  | text => true
  | path => !value.isEmpty
  | format => (OutputFormat.ofName? value).isSome
  | _ => false

/-- Whether an option of the kind has a value. -/
def takesValue : OptionKind → Bool
  | text | path | format => true
  | _ => false

end OptionKind

/-- The options that may be given in some part of a command line. -/
structure OptionSet where
  long : List (String × OptionKind)
  /-- The long options that letters abbreviate. -/
  short : List (Char × String)
  /-- Whether the operand is a command and not a file. -/
  takesCommand : Bool

/-- The options that go with every command. -/
def commonOptions : List (String × OptionKind) :=
  [("config", .path), ("format", .format), ("ignore-attributes", .switch), ("verbose", .counter),
    ("help", .help)]

/-- The options before the name of a command. -/
def leadingOptions : OptionSet where
  long := ("version", .version) :: commonOptions
  short := [('v', "verbose"), ('h', "help"), ('V', "version")]
  takesCommand := true

/-- The options after the name of a command. -/
def commandOptions (own : List (String × OptionKind)) : OptionSet where
  long := own ++ commonOptions
  short := [('v', "verbose"), ('h', "help")]
  takesCommand := false

/-! ## Reading -/

/-- The options and operands given in a part of a command line. -/
structure Given where
  options : List (String × String) := []
  operands : List String := []

namespace Given

/-- The value of an option. -/
def value? (given : Given) (option : String) : Option String :=
  given.options.lookup option

/-- Whether an option is given. -/
def has (given : Given) (option : String) : Bool :=
  (given.value? option).isSome

/-- Adds an option with its value, unless it is given already. -/
def add? (given : Given) (option value : String) : Option Given :=
  if given.has option then none
  else some { given with options := (option, value) :: given.options }

end Given

/-- How an argument reads. -/
inductive Argument where
  /-- All arguments after it are operands. -/
  | endOfOptions
  | long (option : String) (value : Option String)
  | short (letters : List Char)
  | operand

/-- How an argument reads. A dash alone is an operand. -/
def Argument.ofString (arg : String) : Argument :=
  match arg.toList with
  | ['-', '-'] => endOfOptions
  | '-' :: '-' :: cs =>
    match cs.dropWhile (· ≠ '=') with
    | [] => long (String.ofList cs) none
    | _ :: value => long (String.ofList (cs.takeWhile (· ≠ '='))) (some (String.ofList value))
  | '-' :: c :: cs => short (c :: cs)
  | _ => operand

/-- Whether an argument can be the value of the option before it. -/
def isValueLike (arg : String) : Bool :=
  Argument.ofString arg matches .operand

/-- What reading a part of a command line comes to. -/
inductive Progress where
  | rejected
  | help
  | version
  /-- The whole line has been read. -/
  | finished (given : Given)
  /-- The name of a command has been read, and `rest` has not. -/
  | command (given : Given) (name : String) (rest : List String)

/-- Adds an option without a value, and goes on with `next`. -/
def addSwitch (kind : OptionKind) (option : String) (given : Given) (next : Given → Progress) :
    Progress :=
  match kind with
  | .help => .help
  | .version => .version
  | .counter => next given
  | .switch =>
    match given.add? option "" with
    | some given => next given
    | none => .rejected
  | _ => .rejected

/-- Adds an option with a value, and goes on with `next`. -/
def addValue (kind : OptionKind) (option value : String) (given : Given)
    (next : Given → Progress) : Progress :=
  if kind.accepts value then
    match given.add? option value with
    | some given => next given
    | none => .rejected
  else .rejected

/-- Adds the options that letters abbreviate, and goes on with `next`. -/
def addLetters (options : OptionSet) (letters : List Char) (given : Given)
    (next : Given → Progress) : Progress :=
  match letters with
  | [] => next given
  | letter :: letters =>
    match options.short.lookup letter with
    | none => .rejected
    | some option =>
      match options.long.lookup option with
      | none => .rejected
      | some kind => addSwitch kind option given fun given => addLetters options letters given next

/-- Adds a file as the operand, of which there is at most one, and goes on with `next`. -/
def addOperand (options : OptionSet) (operand : String) (given : Given)
    (next : Given → Progress) : Progress :=
  if options.takesCommand || !given.operands.isEmpty || operand.isEmpty then .rejected
  else next { given with operands := [operand] }

/-- Reads operands only. -/
def readOperands (options : OptionSet) (given : Given) : List String → Progress
  | [] => .finished given
  | arg :: rest => addOperand options arg given fun given => readOperands options given rest

/-- Reads a part of a command line from the left. -/
def readArguments (options : OptionSet) (given : Given) : List String → Progress
  | [] => .finished given
  | arg :: rest =>
    match Argument.ofString arg with
    | .endOfOptions => readOperands options given rest
    | .operand =>
      if options.takesCommand then .command given arg rest
      else addOperand options arg given fun given => readArguments options given rest
    | .short letters =>
      addLetters options letters given fun given => readArguments options given rest
    | .long option value =>
      match options.long.lookup option, value with
      | none, _ => .rejected
      | some kind, some value =>
        addValue kind option value given fun given => readArguments options given rest
      | some kind, none =>
        if kind.takesValue then
          match rest with
          | [] => .rejected
          | value :: rest =>
            if isValueLike value then
              addValue kind option value given fun given => readArguments options given rest
            else .rejected
        else addSwitch kind option given fun given => readArguments options given rest

/-! ## Commands -/

/-- The form of a command line. -/
def usage : String :=
  "Usage: implementor [OPTIONS] implement FILE --class NAME --interface NAME [--in-place]\n" ++
  "       implementor [OPTIONS] overrides FILE --class NAME\n" ++
  "       implementor [OPTIONS] place FILE --class NAME\n" ++
  "       implementor [OPTIONS] base FILE --class NAME --base NAME\n" ++
  "Options: --config PATH, --format text|json, --ignore-attributes, -v, --version\n"

/-- The options of a command. -/
def ownOptions? (command : String) : Option (List (String × OptionKind)) :=
  match command with
  | "implement" => some [("class", .text), ("interface", .text), ("in-place", .switch)]
  | "overrides" | "place" => some [("class", .text)]
  | "base" => some [("class", .text), ("base", .text)]
  | _ => none

/-- The command of a name with the options given. -/
def Command.ofGiven? (name : String) (given : Given) : Option Command := do
  let record ← given.value? "class"
  match name with
  | "implement" => return implement record (← given.value? "interface") (given.has "in-place")
  | "overrides" => return overrides record
  | "place" => return place record
  | "base" => return base record (← given.value? "base")
  | _ => none

/-- The invocation of a command, with what is given before and after its name. -/
def Invocation.ofGiven? (name : String) (before after : Given) : Option Invocation := do
  let command ← Command.ofGiven? name after
  let file ← after.operands.head?
  let value? (option : String) : Option String := (after.value? option).or (before.value? option)
  return {
    command
    file
    config := value? "config"
    format := (value? "format").bind OutputFormat.ofName?
    ignoresAttributes := before.has "ignore-attributes" || after.has "ignore-attributes"
  }

/-- The request for the command `name`, with `before` given before the name and the arguments
`rest` after it. -/
def Request.ofCommand? (before : Given) (name : String) (rest : List String) : Option Request := do
  match readArguments (commandOptions (← ownOptions? name)) {} rest with
  | .finished after => return run (← Invocation.ofGiven? name before after)
  | .help => some help
  | _ => none

/-- Whether there is help on what the arguments name: the program, or one command. -/
def isHelpTopic : List String → Bool
  | [] => true
  | [command] => command == "help" || (ownOptions? command).isSome
  | _ => false

/-- The request of a command line, if it is one. -/
def Request.parse? (args : List String) : Option Request :=
  match readArguments leadingOptions {} args with
  | .help => some help
  | .version => some version
  | .command before name rest =>
    if name = "help" then if isHelpTopic rest then some help else none
    else ofCommand? before name rest
  | _ => none

end ClassEdit
