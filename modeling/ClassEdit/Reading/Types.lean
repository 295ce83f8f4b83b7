import ClassEdit.Declaration.Basic
import ClassEdit.Reading.Declarator
import ClassEdit.Reading.Names
import ClassEdit.Reading.Spelling
import ClassEdit.Token.Source

/-!
# Reading types

A type is written as a specifier, which names its leaf, and a declarator, whose layers are put
around it from the outside in. Template arguments and parameters are written as types in turn.

## Main definitions

* `Context`: what is needed to read the declarations of a scope.
* `Context.readSpecifier`: the leaf that a specifier names.
* `Context.applyLayers`: a type with the layers of a declarator around it.
* `Context.readDeclared`: the type that a declaration gives to its name, and the name.
* `Context.readParameters`: the parameters of a function.
-/

namespace ClassEdit

/-- The text, the declared names and the scope in which declarations are read. -/
structure Context where
  source : Source
  names : Names
  scope : Scope

namespace Context

/-- The text of a tree. -/
def text (ctx : Context) (t : Tree) : String :=
  ctx.source.textOf t

/-- The text of a tree without blanks at its ends. -/
def word (ctx : Context) (t : Tree) : String :=
  Text.trimmed (ctx.text t)

/-- The normal spelling of a tree. -/
def spelling (ctx : Context) (t : Tree) : String :=
  normalSpelling (ctx.text t)

/-- A type name, looked up in the scope. -/
def namedType (ctx : Context) (written : String) : TypeName :=
  ctx.names.typeName written ctx.scope

/-- The qualifiers among the children of a tree. -/
def qualifiersOf (ctx : Context) (t : Tree) : Cv :=
  (t.children.filter (·.kind = .typeQualifier)).foldl
    (fun cv qualifier => cv.union (Cv.ofWord (ctx.word qualifier))) .plain

/-! ## Specifiers -/

/-- A builtin type written as several words. -/
def readSized (ctx : Context) (t : Tree) : Builtin :=
  let has (kind : Kind) : Bool := t.children.any (·.kind = kind)
  let signed := !has .unsignedWord
  let longs := (t.children.filter (·.kind = .longWord)).length
  match (t.child? .type).map ctx.word, longs with
  | some "char", _ =>
    .char (if has .unsignedWord then some false else if has .signedWord then some true else none)
  | some "double", 0 => .double
  | some "double", _ => .longDouble
  | _, longs =>
    if has .shortWord then .short signed
    else match longs with
      | 0 => .int signed
      | 1 => .long signed
      | _ => .longLong signed

/-- The arguments of a template. `declared` reads the types among them. -/
def readArguments (ctx : Context) (declared : Tree → CType) (t : Tree) : List TemplateArgument :=
  match t.child? .arguments with
  | some list => list.namedChildren.filterMap fun argument =>
    match argument.kind with
    | .typeDescriptor => some (.type (declared argument))
    | .comment => none
    | _ => some (.expression (ctx.spelling argument))
  | none => []

/-- A template with its arguments, written after `qualifier`. -/
def readTemplate (ctx : Context) (declared : Tree → CType) (qualifier : String) (t : Tree) :
    CType :=
  let name := ((t.child? .name).map ctx.text).getD ""
  .template .plain (ctx.namedType (qualifier ++ name)) (ctx.readArguments declared t)

/-- A qualified name: the scopes stay as written, and the name is looked up as a whole. -/
def readQualified (ctx : Context) (declared : Tree → CType) (t : Tree) : CType :=
  let chain := t.nameChain
  let qualifier := String.join (chain.dropLast.map fun part =>
    ((part.child? .scope).map ctx.spelling).getD "" ++ "::")
  match chain.getLast? with
  | some last =>
    match last.kind with
    | .typeIdentifier => .named .plain (ctx.namedType (qualifier ++ ctx.text last))
    | .templateType => ctx.readTemplate declared qualifier last
    | _ => .spelled .plain (ctx.spelling t)
  | none => .spelled .plain (ctx.spelling t)

/-- The leaf that a specifier names. `declared` reads the types among template arguments. -/
def readSpecifier (ctx : Context) (declared : Tree → CType) (t : Tree) : CType :=
  let t := t.specifiedName
  match t.kind with
  | .primitiveType => .builtin .plain (.ofWord (ctx.word t))
  | .sizedTypeSpecifier => .builtin .plain (ctx.readSized t)
  | .typeIdentifier => .named .plain (ctx.namedType (ctx.text t))
  | .qualifiedIdentifier => ctx.readQualified declared t
  | .templateType => ctx.readTemplate declared "" t
  | _ => .spelled .plain (ctx.spelling t)

/-! ## Declarators -/

/-- Puts a pointer or reference around a type. -/
def wrapLayer (ctx : Context) (type : CType) (layer : Tree) : CType :=
  match layer.kind with
  | .pointerDeclarator | .abstractPointerDeclarator => .pointer (ctx.qualifiersOf layer) type
  | .referenceDeclarator | .abstractReferenceDeclarator =>
    if layer.children.head?.any (·.kind = .ampAmp) then .reference .plain .rvalue type
    else .reference .plain .lvalue type
  | _ => type

/-- Puts the layers of a declarator around a type, and finds the declared name. `parameters` reads
the parameters of the functions among the layers. -/
def applyLayers (ctx : Context) (parameters : Tree → List Parameter × Bool) :
    List Tree → CType → CType × Option Tree
  | [], type => (type, none)
  | layer :: inner, type =>
    match layer.kind with
    | .identifier | .fieldIdentifier | .typeIdentifier => (type, some layer)
    | .pointerDeclarator | .abstractPointerDeclarator | .referenceDeclarator
    | .abstractReferenceDeclarator =>
      ctx.applyLayers parameters inner (ctx.wrapLayer type layer)
    | .arrayDeclarator | .abstractArrayDeclarator =>
      ctx.applyLayers parameters inner
        (.array .plain type ((layer.child? .size).map ctx.spelling))
    | .functionDeclarator | .abstractFunctionDeclarator =>
      let (params, isVariadic) := parameters layer
      ctx.applyLayers parameters inner
        (.function .plain type (params.map (·.type)) isVariadic)
    | .variadicDeclarator => (type, layer.namedChildren.head?)
    | .parenthesizedDeclarator | .abstractParenthesizedDeclarator | .attributedDeclarator =>
      ctx.applyLayers parameters inner type
    | _ => (type, none)

/-! ## Parameters -/

/-- An ordinary parameter; a lone `void` declares none. -/
def readParameter? (ctx : Context) (declared : Tree → CType × Option Tree) (t : Tree) :
    Option Parameter :=
  let (type, name) := declared t
  match type.decayed, name with
  | .builtin ⟨false, false⟩ .void, none => none
  | type, name => some ⟨(name.map ctx.text).getD "", type, t.range⟩

/-- A parameter pack, whose type is known by its spelling. -/
def readPack (ctx : Context) (t : Tree) : Parameter :=
  let declarator := t.child? .declarator
  let type := ((t.child? .type).map ctx.spelling).getD ""
  let sigil := match declarator with
    | some layer =>
      if layer.kind = .referenceDeclarator then (layer.children.head?.map ctx.text).getD "&"
      else ""
    | none => ""
  let spelled := if sigil.isEmpty then type ++ "..." else type ++ " " ++ sigil ++ "..."
  let name := ((declarator.bind Tree.declaredName?).map ctx.text).getD ""
  ⟨name, .spelled .plain spelled, t.range⟩

/-- The parameters among some trees. -/
def parametersAmong (ctx : Context) (declared : Tree → CType × Option Tree) (trees : List Tree) :
    List Parameter :=
  trees.filterMap fun t =>
    match t.kind with
    | .parameterDeclaration | .optionalParameterDeclaration => ctx.readParameter? declared t
    | .variadicParameterDeclaration => some (ctx.readPack t)
    | _ => none

/-- The parameters of a function, and whether they end in `...`. `declared` reads a parameter. -/
def readParameters (ctx : Context) (declared : Tree → CType × Option Tree) (function : Tree) :
    List Parameter × Bool :=
  match function.child? .parameters with
  | some list =>
    (ctx.parametersAmong declared list.children, list.children.any (·.kind = .ellipsis))
  | none => ([], false)

/-! ## Declared types -/

/-- The type that the specifiers of a declaration name, with their qualifiers. -/
def readSpecified (ctx : Context) (declared : Tree → CType) (t : Tree) : CType :=
  let type := match t.child? .type with
    | some specifier => ctx.readSpecifier declared specifier
    | none => .builtin .plain (.int true)
  type.qualify (ctx.qualifiersOf t)

/-- The type that a declaration gives to its name, and the name, for declarations nested at most
`depth` deep. -/
def readNested (ctx : Context) : Nat → Tree → CType × Option Tree
  | 0, _ => (default, none)
  | depth + 1, t =>
    let declared := ctx.readNested depth
    ctx.applyLayers (ctx.readParameters declared) t.declaratorSpine
      (ctx.readSpecified (fun t => (declared t).1) t)

/-- The type that a declaration gives to its name, and the name. -/
def readDeclared (ctx : Context) (t : Tree) : CType × Option Tree :=
  ctx.readNested t.height t

/-- The type that a type without a name, such as a template argument, stands for. -/
def readType (ctx : Context) (t : Tree) : CType :=
  (ctx.readDeclared t).1

end Context

end ClassEdit
