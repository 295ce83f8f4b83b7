import ClassEdit.Declaration.BaseGraph
import ClassEdit.Types.Spelling

/-!
# Lookup of type names

A written type name is looked up from the scope it stands in outwards. At each scope the name may
be declared there, in an unnamed namespace there, or in a base of the class that the scope is.

## Main definitions

* `Scope`: the scopes around a declaration.
* `TypeTable`: the declared type names.
* `Names.resolve`: the qualified name that a written name stands for.
* `Names.resolveRecord`: the class that a written name stands for.
-/

namespace ClassEdit

/-- The names of the scopes around a declaration, the innermost first. -/
abbrev Scope := List String

/-- The qualified name of the innermost scope; empty for the global scope. -/
def Scope.name (scope : Scope) : String :=
  "::".intercalate scope.reverse

/-- The declared type names in order, each with the first class definition of that name. -/
abbrev TypeTable := List (String × Option RecordId)

namespace TypeTable

/-- Declares a name. A name that is declared already keeps its definition and takes the new one
only if it has none. -/
def add (name : String) (record : Option RecordId) : TypeTable → TypeTable
  | [] => [(name, record)]
  | (other, known) :: rest =>
    if other = name then (other, known.or record) :: rest
    else (other, known) :: add name record rest

/-- Whether the name is declared. -/
def declares (table : TypeTable) (name : String) : Bool :=
  table.any (·.1 == name)

/-- The class definition of the name. -/
def record? (table : TypeTable) (name : String) : Option RecordId :=
  (table.lookup name).join

end TypeTable

/-- What is known for the lookup of names: the declared names, the qualified names of the class
definitions, and the bases of the classes as far as they have been read. -/
structure Names where
  table : TypeTable
  records : List String
  bases : BaseGraph

/-- The names that the lookup of a written name tries in one scope. -/
def namesIn (written : String) (scope : Scope) : List String :=
  [qualify scope.name written, qualify (qualify scope.name unnamedNamespace) written]

namespace Names

/-- What a base has for a written name. -/
def inBase (names : Names) (written : String) (base : RecordId) : Option String :=
  let candidate := qualify (names.records.getD base "") written
  if names.table.declares candidate then some candidate else none

/-- Looks a name up in the bases of a class, except for the classes seen already. -/
def searchBases (names : Names) (written : String) (record : RecordId) (seen : List RecordId) :
    Option String × List RecordId :=
  names.bases.searchDeep (names.inBase written) (names.bases.basesOf record) seen

/-- Looks a name up in one scope. -/
def resolveIn (names : Names) (written : String) (scope : Scope) (seen : List RecordId) :
    Option String × List RecordId :=
  match (namesIn written scope).find? names.table.declares, names.table.record? scope.name with
  | some found, _ => (some found, seen)
  | none, some record => names.searchBases written record seen
  | none, none => (none, seen)

/-- Looks a name up in a scope and then in the scopes around it. -/
def resolveFrom (names : Names) (written : String) : Scope → List RecordId → Option String
  | [], seen => (names.resolveIn written [] seen).1
  | inner :: outer, seen =>
    match names.resolveIn written (inner :: outer) seen with
    | (some found, _) => some found
    | (none, seen) => names.resolveFrom written outer seen

/-- The qualified name that a written name stands for in a scope. A name that starts with `::` is
taken from the global scope. -/
def resolve (names : Names) (written : String) (scope : Scope) : Option String :=
  match Text.afterStart? "::" written with
  | some name => if names.table.declares name then some name else none
  | none => names.resolveFrom written scope []

/-- The class that a written name stands for in a scope. -/
def resolveRecord (names : Names) (written : String) (scope : Scope) : Option RecordId := do
  names.table.record? (← names.resolve written scope)

/-- The written name with what it stands for. -/
def typeName (names : Names) (written : String) (scope : Scope) : TypeName :=
  ⟨Text.dropStart "::" written, names.resolve written scope⟩

end Names

end ClassEdit
