import ClassEdit.Config.Toml.Document
import ClassEdit.Render.Declaration

/-!
# Configuration

The configuration is a TOML document with two tables: `expander` says how functions are rendered
and may have settings of other programs, `output` says how results are printed and may not. A table
may also be written as an array of its settings in order.

## Main definitions

* `OutputFormat`: how results are printed.
* `Config`: the settings.
* `Config.parse?`: the settings of a document.
-/

namespace ClassEdit

/-- How results are printed. -/
inductive OutputFormat where
  | text
  | json
deriving DecidableEq, Repr

/-- The format of a name. -/
def OutputFormat.ofName? (name : String) : Option OutputFormat :=
  match name with
  | "text" => some .text
  | "json" => some .json
  | _ => none

/-- The settings. -/
structure Config where
  render : RenderOptions := {}
  format : OutputFormat := .text
deriving DecidableEq, Repr

namespace Config

open Toml (Value)

/-- Reads an optional setting: one that is not there has a default, and one that is there has to be
valid. -/
def readSetting? {α : Type} (read? : Value → Option α) (default : α) : Option Value → Option α
  | none => some default
  | some value => read? value

/-- A switch. -/
def readSwitch? : Value → Option Bool
  | .bool value => some value
  | _ => none

/-- Whether there is nothing in a table or array. -/
def isEmptyValue : Value → Bool
  | .table entries => entries.isEmpty
  | .array elements => elements.isEmpty
  | _ => false

/-- An output format: its name, or a table with nothing but an empty table of that name. -/
def readFormat? : Value → Option OutputFormat
  | .string name => OutputFormat.ofName? name
  | .table [(name, value)] => if isEmptyValue value then OutputFormat.ofName? name else none
  | _ => none

/-- The table `expander`. Settings that it does not know are left alone, and so is a date, which
has no settings. -/
def readRender? : Value → Option RenderOptions
  | .table entries => do
    let ignores ← readSetting? readSwitch? false (entries.lookup "ignore_attribute_specifiers")
    return ⟨ignores⟩
  | .array elements => do
    return ⟨← readSetting? readSwitch? false elements.head?⟩
  | .dateTime => some {}
  | _ => none

/-- The table `output`. -/
def readOutput? : Value → Option OutputFormat
  | .table entries =>
    if entries.all (·.1 == "format") then readSetting? readFormat? .text (entries.lookup "format")
    else none
  | .array elements => readSetting? readFormat? .text elements.head?
  | _ => none

/-- The settings of a root table. -/
def ofTable? (entries : List (String × Value)) : Option Config :=
  if entries.all fun entry => entry.1 == "expander" || entry.1 == "output" then do
    let render ← readSetting? readRender? {} (entries.lookup "expander")
    let format ← readSetting? readOutput? .text (entries.lookup "output")
    return { render, format }
  else none

/-- The settings of a document. -/
def parse? (text : List Char) : Option Config := do
  ofTable? (← Toml.parse? text)

end Config

end ClassEdit
