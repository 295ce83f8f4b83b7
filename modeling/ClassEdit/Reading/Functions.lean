import ClassEdit.Reading.Types

/-!
# Reading functions

A function is read from one declarator of a declaration: the specifiers and attributes stand before
the declarator, the parameters and the qualifiers of the function inside of it.

## Main definitions

* `Context.readAttributes`: the attributes of an attribute list.
* `Context.isPure`: the declaration has a pure specifier.
* `Signature`: a function with what a member function says about itself.
* `Context.readFunction?`: the function that a declarator declares.
-/

namespace ClassEdit

/-- A function, with what is said about it if it is a member of a class. -/
structure Signature where
  function : Function
  kind : MethodKind
  isVirtual : Bool
  isPure : Bool
  isStatic : Bool
  cv : Cv
  refQualifier : Option ValueKind

namespace Context

/-! ## Attributes -/

/-- The attributes of an attribute list. -/
def readAttributes (ctx : Context) (t : Tree) : List Attribute :=
  match t.kind with
  | .attributeDeclaration =>
    (t.namedChildren.filter (·.kind = .attributeEntry)).map fun entry =>
      ⟨((entry.child? .name).map ctx.text).getD "", .standard, entry.range⟩
  | .attributeSpecifier =>
    let argument := (t.namedChildren.head?.bind (·.namedChildren.head?)).getD t
    [⟨attributeWord (ctx.text argument), .gnu, argument.range⟩]
  | .declspecModifier =>
    let argument := t.namedChildren.head?.getD t
    [⟨ctx.text argument, .declspec, argument.range⟩]
  | _ => []

/-- The attributes that stand after the parameters of a function. -/
def readTrailingAttributes (ctx : Context) (t : Tree) : List Attribute :=
  match t.kind with
  | .virtualSpecifier => [⟨ctx.word t, .keyword, t.range⟩]
  | .attributeDeclaration | .attributeSpecifier => ctx.readAttributes t
  | _ => []

/-! ## Names -/

/-- The type that a conversion function converts to. -/
def conversionTarget (ctx : Context) (t : Tree) : CType :=
  let specified := match t.child? .type with
    | some specifier => ctx.readSpecifier ctx.readType specifier
    | none => .builtin .plain .void
  (t.declaratorSpine.takeWhile (·.kind ≠ .abstractFunctionDeclarator)).foldl ctx.wrapLayer
    (specified.qualify (ctx.qualifiersOf t))

/-- The name of a function, and its kind as far as the name decides it. -/
def functionName (ctx : Context) (name : Tree) : String × MethodKind :=
  match name.kind with
  | .operatorCast => ("operator " ++ (ctx.conversionTarget name).spell .written, .conversion)
  | .destructorName => (Text.replaced (ctx.spelling name) " " "", .destructor)
  | .operatorName => (operatorSpelling (ctx.text name), .ordinary)
  | _ => (ctx.spelling name, .ordinary)

/-! ## Whole functions -/

/-- Whether a declaration has a pure specifier: a clause of its own, or `= 0` read as the value of
a member. -/
def isPure (ctx : Context) (t : Tree) : Bool :=
  t.children.any (·.kind = .pureVirtualClause) ||
    (t.kind = .fieldDeclaration &&
      (t.child? .defaultValue).any fun value =>
        value.kind = .numberLiteral && ctx.word value == "0")

/-- The last tree of some kinds among the children of a tree. -/
def lastChild? (isWanted : Kind → Bool) (t : Tree) : Option Tree :=
  (t.children.filter (isWanted ·.kind)).getLast?

/-- The type that a function returns and its place. `wrappers` are the pointers and references
around the function. -/
def readReturn (ctx : Context) (kind : MethodKind) (t : Tree) (parts : FunctionDeclarator) :
    CType × Range :=
  let trailing := (lastChild? (· = .trailingReturnType) parts.function).bind
    (·.namedChildren.head?)
  match kind, t.child? .type, trailing with
  | .conversion, _, _ | _, none, _ => (.builtin .plain .void, .nowhere)
  | _, some _, some descriptor => (ctx.readType descriptor, descriptor.range)
  | _, some specifier, none =>
    let specified := (ctx.readSpecifier ctx.readType specifier).qualify (ctx.qualifiersOf t)
    (parts.wrappers.foldl ctx.wrapLayer specified, specifier.range)

/-- The offsets of the first token of a declaration and of its last token before a `;`. -/
def tokenBounds (ctx : Context) (t : Tree) : Nat × Nat :=
  let tokens := ctx.source.tokensIn t.range
  let first := (tokens.head?.map (·.start)).getD t.root.start
  let last := (tokens.reverse.find? (·.kind ≠ .semi)).map (·.start)
  (first, last.getD first)

/-- The ref-qualifier that a node stands for. -/
def readRefQualifier (ctx : Context) (t : Tree) : ValueKind :=
  if ctx.word t == "&&" then .rvalue else .lvalue

/-- The function that `declarator` declares in the declaration `t`. `qualifier` is the qualified
name of the scope it is declared in. -/
def readFunction? (ctx : Context) (t declarator : Tree) (qualifier : String) :
    Option Signature := do
  let parts ← FunctionDeclarator.ofTree? declarator
  let (name, kind) := ctx.functionName parts.name
  let (returnType, returnRange) := ctx.readReturn kind t parts
  let (params, isVariadic) := ctx.readParameters ctx.readDeclared parts.function
  let (first, last) := ctx.tokenBounds t
  let exception := lastChild? (fun k => k = .noexceptSpecifier || k = .throwSpecifier)
    parts.function
  return {
    function := {
      name
      qualifiedName := qualify qualifier name
      returnType
      returnRange
      params
      isVariadic
      exceptionRange := (exception.map Tree.range).getD .nowhere
      attributes := t.children.flatMap ctx.readAttributes ++
        parts.attributes.flatMap ctx.readAttributes ++
        parts.function.children.flatMap ctx.readTrailingAttributes
      first
      last
    }
    kind
    isVirtual := t.children.any (·.kind = .virtualWord)
    isPure := ctx.isPure t
    isStatic := t.children.any fun child =>
      child.kind = .storageClassSpecifier && ctx.word child == "static"
    cv := ctx.qualifiersOf parts.function
    refQualifier := (lastChild? (· = .refQualifier) parts.function).map ctx.readRefQualifier
  }

end Context

end ClassEdit
