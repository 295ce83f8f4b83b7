import ClassEdit.Reading.Implicit
import ClassEdit.Reading.Records

/-!
# Translation units

A translation unit is a source with the classes it defines and the functions its namespaces
declare. Bases are resolved before anything else is read, since the lookup of the other names goes
through them.

## Main definitions

* `TranslationUnit`: a source and its declarations.
* `TranslationUnit.ofTree`: the unit with the given text and syntax tree.
* `TranslationUnit.baseGraph`: the graph of its bases.
-/

namespace ClassEdit

/-- A source with its declarations. -/
structure TranslationUnit where
  source : Source
  /-- The class definitions in order, outer before nested. -/
  records : List Record
  /-- The functions that namespaces declare. -/
  functions : List Function
  hasErrors : Bool

/-- The names that some items declare, with the bases of the classes left open. -/
def declaredNames (items : List Item) : Names where
  table := typeTable items
  records := (recordSources items).map (·.qualifiedName)
  bases := []

/-- The classes that some items define. -/
def readRecords (source : Source) (items : List Item) : List Record :=
  let sources := recordSources items
  let names := declaredNames items
  let bases := sources.map (·.readBases source names)
  let names := { names with bases := bases.map fun entries => entries.filterMap (·.record) }
  let records := (sources.zip bases).mapIdx fun id (definition, bases) =>
    definition.read source names id bases
  records.zipWith Record.complete (dynamicFlags records)

/-- The functions that some items declare. `names` has the bases of the classes. -/
def readFunctions (source : Source) (names : Names) (items : List Item) : List Function :=
  (functionSources items).filterMap fun function =>
    let ctx : Context := ⟨source, names, function.scope⟩
    (ctx.readFunction? function.tree function.declarator function.scope.name).map (·.function)

namespace TranslationUnit

/-- The unit with the given text and syntax tree. -/
def ofTree (document : Document) (tree : Tree) (hasErrors : Bool) : TranslationUnit :=
  let source := Source.ofTree document tree
  let items := collectChildren source [] false tree
  let records := readRecords source items
  let names := { declaredNames items with bases := records.map (·.resolvedBases) }
  ⟨source, records, readFunctions source names items, hasErrors⟩

/-- The graph of the bases of the classes. -/
def baseGraph (u : TranslationUnit) : BaseGraph :=
  u.records.map (·.resolvedBases)

end TranslationUnit

end ClassEdit
