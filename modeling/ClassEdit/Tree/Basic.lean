import ClassEdit.Text.Location
import ClassEdit.Tree.Kind

/-!
# Syntax trees

A syntax tree covers a text: every node has the byte range it covers, and its children cover parts
of that range in order. Named nodes stand for constructs, the others for terminals; a missing node
stands for what error recovery made up and covers nothing.

## Main definitions

* `Node`: what a tree knows about its root.
* `Tree`: a node with its children in order.
* `Tree.child?`: the first child in a given role.
* `Tree.ofPreorder?`: the tree listed in pre-order with the number of children of every node.
-/

namespace ClassEdit

/-- What a tree knows about its root. -/
structure Node where
  kind : Kind
  /-- The role in the parent. -/
  field : Option Field
  start : Nat
  stop : Nat
  isNamed : Bool
  isMissing : Bool
deriving DecidableEq, Repr, Inhabited

/-- A node of the syntax tree with its children. -/
inductive Tree where
  | node (root : Node) (children : List Tree)
deriving Inhabited

namespace Tree

/-- The root of the tree. -/
def root : Tree → Node
  | node root _ => root

/-- The children in order. -/
def children : Tree → List Tree
  | node _ children => children

/-- What the tree stands for. -/
def kind (t : Tree) : Kind := t.root.kind

/-- The bytes that the tree covers. -/
def range (t : Tree) : Range := Range.ofOffsets t.root.start t.root.stop

/-- Whether the tree has the given role in its parent. -/
def hasField (field : Field) (t : Tree) : Bool :=
  t.root.field == some field

/-- The first child in the given role. -/
def child? (field : Field) (t : Tree) : Option Tree :=
  t.children.find? (hasField field)

/-- All children in the given role. -/
def childrenIn (field : Field) (t : Tree) : List Tree :=
  t.children.filter (hasField field)

/-- The children that stand for constructs. -/
def namedChildren (t : Tree) : List Tree :=
  t.children.filter (·.root.isNamed)

mutual

/-- The number of nodes on the longest path from the root down. -/
def height : Tree → Nat
  | node _ children => heightOfAll children + 1

/-- The greatest height among some trees. -/
def heightOfAll : List Tree → Nat
  | [] => 0
  | t :: ts => max t.height (heightOfAll ts)

end

/-! ## Trees from pre-order lists -/

/-- Adds a node in front of a row of trees: it takes the first `arity` trees as its children. -/
def adopt (entry : Node × Nat) (row : List Tree) : List Tree :=
  node entry.1 (row.take entry.2) :: row.drop entry.2

/-- The tree whose nodes, each with the number of its children, are listed in pre-order. -/
def ofPreorder? (entries : List (Node × Nat)) : Option Tree :=
  (entries.foldr adopt []).head?

end Tree

end ClassEdit
