import ClassEdit.Reading.Collect
import ClassEdit.Reading.Functions

/-!
# Reading classes

A class definition has a head with a base clause and a body with member declarations. An access
label applies to all members after it, up to the next label, whatever conditional blocks begin or
end in between.

## Main definitions

* `readBaseClause`: the entries of a base clause.
* `readMembers`: the member functions of a body.
* `RecordSource.read`: the class of a definition.
-/

namespace ClassEdit

/-! ## Bases -/

/-- What has been read of an entry of a base clause. -/
structure BaseStart where
  access : Option Access := none
  isVirtual : Bool := false
  /-- The offset of the first keyword. -/
  start : Option Nat := none

/-- The entries among the children of a base clause. A class without a written access has the
default of the class-key. -/
def readBaseClause (ctx : Context) (key : ClassKey) : BaseStart → List Tree → List BaseSpecifier
  | _, [] => []
  | entry, t :: ts =>
    match t.kind with
    | .colon | .comma => readBaseClause ctx key {} ts
    | .accessSpecifier =>
      readBaseClause ctx key
        { entry with access := Access.ofWord? (ctx.word t), start := entry.start.or t.root.start }
        ts
    | .virtualWord =>
      readBaseClause ctx key { entry with isVirtual := true, start := entry.start.or t.root.start }
        ts
    | .attributeDeclaration | .comment | .error | .ellipsis => readBaseClause ctx key entry ts
    | _ =>
      if t.root.isNamed then
        let written := ctx.spelling t
        { written
          access := entry.access.getD key.defaultAccess
          isVirtual := entry.isVirtual
          range := Range.ofOffsets (entry.start.getD t.root.start) t.root.stop
          record := ctx.names.resolveRecord written ctx.scope } ::
          readBaseClause ctx key entry ts
      else readBaseClause ctx key entry ts

/-! ## Members -/

mutual

/-- The members among the children of a tree, and the access that applies after it. `members` gives
those of one declaration. -/
def readBlock {α : Type} (label : Tree → Option Access) (members : Access → Tree → List α)
    (access : Access) : Tree → List α × Access
  | .node _ children => readMembers label members access children

/-- The members among some trees, and the access that applies after them. -/
def readMembers {α : Type} (label : Tree → Option Access) (members : Access → Tree → List α)
    (access : Access) : List Tree → List α × Access
  | [] => ([], access)
  | t :: ts =>
    if t.root.isNamed then
      match t.kind with
      | .accessSpecifier => readMembers label members ((label t).getD access) ts
      | .fieldDeclaration | .declaration | .functionDefinition =>
        let (rest, after) := readMembers label members access ts
        (members access t ++ rest, after)
      | .preprocIf | .preprocIfdef | .preprocElse | .preprocElif | .preprocElifdef =>
        let (block, access) := readBlock label members access t
        let (rest, after) := readMembers label members access ts
        (block ++ rest, after)
      | _ => readMembers label members access ts
    else readMembers label members access ts

end

/-- The member function that a declarator declares in a class. A qualified name belongs to another
class. -/
def readMethod? (ctx : Context) (id : RecordId) (source : RecordSource) (access : Access)
    (t declarator : Tree) : Option Method := do
  let signature ← ctx.readFunction? t declarator source.qualifiedName
  let function := signature.function
  if Text.occursIn "::".toList function.name.toList then none
  else
    let isConstructor := signature.kind = .ordinary && !function.returnRange.isValid &&
      function.name == source.name
    some {
      toFunction := function
      parent := id
      kind := if isConstructor then .constructor else signature.kind
      access
      isVirtual := signature.isVirtual
      isPure := signature.isPure
      isStatic := signature.isStatic
      cv := signature.cv
      refQualifier := signature.refQualifier
      isImplicit := false
    }

/-! ## Definitions -/

namespace RecordSource

/-- The keyword that the definition starts with. -/
def key (r : RecordSource) : ClassKey :=
  if r.tree.kind = .structSpecifier then .struct else .cls

/-- The bases of the definition. -/
def readBases (r : RecordSource) (source : Source) (names : Names) : List BaseSpecifier :=
  match r.tree.namedChildren.find? (·.kind = .baseClassClause) with
  | some clause => readBaseClause ⟨source, names, r.scope⟩ r.key {} clause.children
  | none => []

/-- The offset of the last token of the body. -/
def closeOffset (r : RecordSource) (source : Source) : Nat :=
  (((source.tokensIn r.body.range).getLast?).map (·.start)).getD r.body.root.stop

/-- The member functions of the definition. -/
def readMethods (r : RecordSource) (source : Source) (names : Names) (id : RecordId) :
    List Method :=
  let ctx : Context := ⟨source, names, r.name :: r.scope⟩
  (readBlock (fun t => Access.ofWord? (ctx.word t))
    (fun access t => (t.childrenIn .declarator).filterMap (readMethod? ctx id r access t))
    r.key.defaultAccess r.body).1

/-- The class with the given bases, as far as the definition tells. -/
def read (r : RecordSource) (source : Source) (names : Names) (id : RecordId)
    (bases : List BaseSpecifier) : Record where
  id := id
  name := r.name
  qualifiedName := r.qualifiedName
  key := r.key
  start := r.tree.root.start
  close := r.closeOffset source
  bases := bases
  methods := r.readMethods source names id
  isDynamic := false

end RecordSource

end ClassEdit
