import ClassEdit.Reading.Declarator
import ClassEdit.Reading.Names
import ClassEdit.Token.Source

/-!
# What a text declares

The declarations of a text are listed in order before any of them is read in full, since a type
may be named before the text that declares it has been reached. Namespaces, linkage blocks, class
bodies and conditional blocks are looked into; templates contribute their names only.

## Main definitions

* `Item`: a declared type name, a class definition or a function.
* `collectItem`: the items of a construct.
* `typeTable`: the declared type names of some items.
-/

namespace ClassEdit

/-- A class definition that has not been read. -/
structure RecordSource where
  tree : Tree
  body : Tree
  /-- The scopes around the definition. -/
  scope : Scope
  name : String

/-- The qualified name of the class. -/
def RecordSource.qualifiedName (r : RecordSource) : String :=
  qualify r.scope.name r.name

/-- A function of a namespace that has not been read. -/
structure FunctionSource where
  tree : Tree
  declarator : Tree
  scope : Scope

/-- What a construct declares. -/
inductive Item where
  /-- A type name without a class definition of its own. -/
  | typeName (qualifiedName : String)
  | record (source : RecordSource)
  | function (source : FunctionSource)

/-- The scopes that a written namespace name opens, innermost first, inside of `scope`. -/
def openNamespaces (written : String) (scope : Scope) : Scope :=
  let components := (Text.splitOn "::".toList written.toList).map fun part =>
    let part := Text.trim part
    Text.trim ((Text.stripStart? "inline ".toList part).getD part)
  (components.filter fun part => !part.isEmpty).foldl
    (fun scope part => String.ofList part :: scope) scope

/-- Declares the type that a node names. -/
def declareType (source : Source) (scope : Scope) (name : Tree) : List Item :=
  if name.kind matches .typeIdentifier | .primitiveType then
    [.typeName (qualify scope.name (source.textOf name))]
  else []

/-- Declares the type in the role of a name. -/
def declareNamed (source : Source) (scope : Scope) (t : Tree) : List Item :=
  match t.child? .name with
  | some name => declareType source scope name
  | none => []

/-- The functions that a declaration in a namespace declares. -/
def declareFunctions (scope : Scope) (t : Tree) : List Item :=
  (t.childrenIn .declarator).filterMap fun declarator => do
    let parts ← FunctionDeclarator.ofTree? declarator
    if parts.name.kind matches .identifier | .operatorName then
      some (.function ⟨t, declarator, scope⟩)
    else none

/-- The name that a construct under a template declares. -/
def templateName? (t : Tree) : Option Tree :=
  match t.kind with
  | .classSpecifier | .structSpecifier | .unionSpecifier | .aliasDeclaration => t.child? .name
  | .declaration => do
    let type ← t.child? .type
    let _ ← type.child? .body
    type.child? .name
  | _ => none

/-- Declares the names of the types under a template. -/
def declareTemplate (source : Source) (scope : Scope) (t : Tree) : List Item :=
  t.namedChildren.flatMap fun child =>
    match templateName? child with
    | some name => if name.kind = .typeIdentifier then declareType source scope name else []
    | none => []

/-- The definition of a class, or the declaration of a class or union without one. -/
def declareRecord (source : Source) (scope : Scope) (t name : Tree) : Item :=
  let name := source.textOf name
  match t.child? .body with
  | some body =>
    if t.kind = .unionSpecifier then .typeName (qualify scope.name name)
    else .record ⟨t, body, scope, name⟩
  | none => .typeName (qualify scope.name name)

mutual

/-- The items of a construct. Functions are collected outside of classes only. -/
def collectItem (source : Source) (scope : Scope) (inRecord : Bool) : Tree → List Item
  | .node root children =>
    let t := Tree.node root children
    match root.kind with
    | .classSpecifier | .structSpecifier | .unionSpecifier =>
      match t.child? .name with
      | some name =>
        if name.kind = .typeIdentifier then
          declareRecord source scope t name ::
            collectBody source (source.textOf name :: scope) true children
        else []
      | none => []
    | .enumSpecifier | .aliasDeclaration => declareNamed source scope t
    | .namespaceDefinition =>
      let scope := match t.child? .name with
        | some name => openNamespaces (source.textOf name) scope
        | none => unnamedNamespace :: scope
      collectBody source scope false children
    | .declaration | .functionDefinition =>
      collectType source scope inRecord children ++
        if inRecord then [] else declareFunctions scope t
    | .fieldDeclaration => collectType source scope inRecord children
    | .typeDefinition =>
      collectType source scope inRecord children ++
        (t.childrenIn .declarator).flatMap fun declarator =>
          match declarator.declaredName? with
          | some name => declareType source scope name
          | none => []
    | .templateDeclaration => declareTemplate source scope t
    | .linkageSpecification => collectLinked source scope inRecord children
    | .declarationList | .preprocIf | .preprocIfdef | .preprocElse | .preprocElif
    | .preprocElifdef => collectAll source scope inRecord children
    | _ => []

/-- The items of the constructs among some trees. -/
def collectAll (source : Source) (scope : Scope) (inRecord : Bool) : List Tree → List Item
  | [] => []
  | t :: ts =>
    (if t.root.isNamed then collectItem source scope inRecord t else []) ++
      collectAll source scope inRecord ts

/-- The items among the children of a tree. -/
def collectChildren (source : Source) (scope : Scope) (inRecord : Bool) : Tree → List Item
  | .node _ children => collectAll source scope inRecord children

/-- The items of the first tree in the role of a type. -/
def collectType (source : Source) (scope : Scope) (inRecord : Bool) : List Tree → List Item
  | [] => []
  | t :: ts =>
    if t.hasField .type then collectItem source scope inRecord t
    else collectType source scope inRecord ts

/-- The items inside of the first tree in the role of a body. -/
def collectBody (source : Source) (scope : Scope) (inRecord : Bool) : List Tree → List Item
  | [] => []
  | t :: ts =>
    if t.hasField .body then collectChildren source scope inRecord t
    else collectBody source scope inRecord ts

/-- The items of the first tree in the role of a body, which is a block or a single declaration. -/
def collectLinked (source : Source) (scope : Scope) (inRecord : Bool) : List Tree → List Item
  | [] => []
  | t :: ts =>
    if t.hasField .body then
      if t.kind = .declarationList then collectChildren source scope inRecord t
      else collectItem source scope inRecord t
    else collectLinked source scope inRecord ts

end

/-- The class definitions among some items, in order. -/
def recordSources (items : List Item) : List RecordSource :=
  items.filterMap fun
    | .record source => some source
    | _ => none

/-- The functions among some items, in order. -/
def functionSources (items : List Item) : List FunctionSource :=
  items.filterMap fun
    | .function source => some source
    | _ => none

/-- Adds the type names of some items to a table, the next class definition having the number
`next`. -/
def addTypes (table : TypeTable) (next : RecordId) : List Item → TypeTable
  | [] => table
  | .typeName name :: items => addTypes (table.add name none) next items
  | .record source :: items =>
    addTypes (table.add source.qualifiedName (some next)) (next + 1) items
  | .function _ :: items => addTypes table next items

/-- The type names that some items declare. -/
def typeTable (items : List Item) : TypeTable :=
  addTypes [] 0 items

end ClassEdit
