import ClassEdit.Tree.Basic

/-!
# Declarators

A declarator says how a declared name is used: as a pointer, a reference, an array or a function.
Its layers are nested, the outermost first, and the name stands in the innermost.

## Main definitions

* `Tree.spine`: the layers of a declarator from the outside in.
* `Tree.declaredName?`: the name in a declarator.
* `FunctionDeclarator.ofTree?`: the parts of a declarator that declares a function.
* `Tree.nameChain`: the nested parts of a qualified name.
-/

namespace ClassEdit

/-- Whether a declarator of the kind holds the next layer without naming its role. -/
def Kind.holdsDeclarator : Kind → Bool
  | .referenceDeclarator | .abstractReferenceDeclarator | .parenthesizedDeclarator
  | .abstractParenthesizedDeclarator | .attributedDeclarator | .variadicDeclarator => true
  | _ => false

/-- Whether a child of the kind stands beside the next layer of a declarator. -/
def Kind.besideDeclarator : Kind → Bool
  | .attributeDeclaration | .comment | .callModifier => true
  | _ => false

namespace Tree

/-- Whether a child of a declarator is its next layer: the child in that role, or else the first
construct where the role is not named. -/
def isNextLayer (root : Node) (children : List Tree) (child : Tree) : Bool :=
  if children.any (hasField .declarator) then child.hasField .declarator
  else root.kind.holdsDeclarator && child.root.isNamed && !child.kind.besideDeclarator

mutual

/-- The layers of a declarator from the outside in. -/
def spine : Tree → List Tree
  | node root children => node root children :: spineOfFirst (isNextLayer root children) children

/-- The layers of the first tree that is picked. -/
def spineOfFirst (pick : Tree → Bool) : List Tree → List Tree
  | [] => []
  | t :: ts => if pick t then t.spine else spineOfFirst pick ts

end

/-- The layers of the declarator of a declaration, none if it has no declarator. -/
def declaratorSpine (t : Tree) : List Tree :=
  match t.child? .declarator with
  | some declarator => declarator.spine
  | none => []

/-- The name in a declarator. -/
def declaredName? (t : Tree) : Option Tree :=
  t.spine.find? fun layer => layer.kind matches
    .identifier | .fieldIdentifier | .typeIdentifier | .primitiveType

mutual

/-- The parts of a qualified name: every nested qualified name, and what is qualified in the end. -/
def nameChain : Tree → List Tree
  | node root children =>
    node root children ::
      if root.kind = .qualifiedIdentifier then nameChainOfFirst children else []

/-- The parts of the first tree in the role of a name. -/
def nameChainOfFirst : List Tree → List Tree
  | [] => []
  | t :: ts => if t.hasField .name then t.nameChain else nameChainOfFirst ts

end

end Tree

/-- Whether the kind is that of a class, struct, union or enumeration. -/
def Kind.isTag : Kind → Bool
  | .classSpecifier | .structSpecifier | .unionSpecifier | .enumSpecifier => true
  | _ => false

namespace Tree

mutual

/-- What a type specifier names: a class or enumeration stands for its name if it has one. -/
def specifiedName : Tree → Tree
  | node root children =>
    if root.kind.isTag then (specifiedNameOfFirst? children).getD (node root children)
    else node root children

/-- What the first tree in the role of a name stands for. -/
def specifiedNameOfFirst? : List Tree → Option Tree
  | [] => none
  | t :: ts => if t.hasField .name then some t.specifiedName else specifiedNameOfFirst? ts

end

end Tree

/-- The parts of a declarator that declares a function. -/
structure FunctionDeclarator where
  /-- The pointers and references around the function, the outermost first. -/
  wrappers : List Tree
  /-- The layer with the parameters. -/
  function : Tree
  /-- The name, or the whole declarator of a conversion function. -/
  name : Tree
  /-- The attributes written around the function. -/
  attributes : List Tree

namespace FunctionDeclarator

/-- Whether a node of the kind is the name of a function. -/
def isName : Kind → Bool
  | .identifier | .fieldIdentifier | .destructorName | .operatorName | .qualifiedIdentifier
  | .templateFunction => true
  | _ => false

/-- The parts of a declarator with the given layers, if it declares a function. -/
def ofSpine? : List Tree → Option FunctionDeclarator
  | [] => none
  | layer :: inner =>
    match layer.kind with
    | .functionDeclarator => do
      let name ← layer.child? .declarator
      if isName name.kind then some ⟨[], layer, name, []⟩ else none
    | .operatorCast => do
      let function ← layer.declaratorSpine.find? (·.kind = .abstractFunctionDeclarator)
      some ⟨[], function, layer, []⟩
    | .pointerDeclarator | .referenceDeclarator =>
      (ofSpine? inner).map fun parts => { parts with wrappers := layer :: parts.wrappers }
    | .attributedDeclarator =>
      let attributes := layer.namedChildren.filter (·.kind = .attributeDeclaration)
      (ofSpine? inner).map fun parts => { parts with attributes := attributes ++ parts.attributes }
    | .parenthesizedDeclarator => ofSpine? inner
    | _ => none

/-- The parts of a declarator, if it declares a function. -/
def ofTree? (declarator : Tree) : Option FunctionDeclarator :=
  ofSpine? declarator.spine

end FunctionDeclarator

end ClassEdit
