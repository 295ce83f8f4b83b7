import ClassEdit.Proofs.TreeShape
import Mathlib.Logic.Function.Iterate

/-!
# The walk along the leaves

The tokens of a tree can be collected with a cursor that stands at one node and makes three moves:
down to the first child, on to the next sibling, and up to the parent. The walk goes down as far as
it can, but not into a literal that is one token itself. It collects the token of the leaf it has
come to, and climbs until there is a next sibling to go on to. It ends when it would have to climb
above the root.

Such a walk keeps no record of where it has been. It comes back to every node it has gone down from,
and only after everything below that node has been collected, so no leaf is left out and none is
collected twice. Each node is come to once and left once, which bounds the number of turns.

## Main definitions

* `Cursor`: a node of a tree with the siblings after it and the nodes above it.
* `Cursor.firstChild?`, `Cursor.nextSibling?`, `Cursor.parent?`: the moves.
* `LeafWalk.start`, `LeafWalk.turn`: the walk, turn by turn.

## Main statements

* `LeafWalk.turns_visiting`: from coming to a node to leaving it, the tokens below it are collected.
* `LeafWalk.turns_start`: the walk ends, and the tokens it has collected.
-/

namespace ClassEdit

/-- A node of a tree, with the siblings after it, and the nodes above it, the nearest first, each
with the siblings after that. -/
structure Cursor where
  focus : Tree
  later : List Tree
  above : List (Tree × List Tree)

namespace Cursor

/-- The cursor at the root, above which and after which there is nothing. -/
def ofTree (t : Tree) : Cursor :=
  ⟨t, [], []⟩

/-- Goes down to the first child. -/
def firstChild? (c : Cursor) : Option Cursor :=
  match c.focus.children with
  | [] => none
  | first :: later => some ⟨first, later, (c.focus, c.later) :: c.above⟩

/-- Goes on to the next sibling. -/
def nextSibling? (c : Cursor) : Option Cursor :=
  match c.later with
  | [] => none
  | next :: later => some ⟨next, later, c.above⟩

/-- Goes up to the parent. -/
def parent? (c : Cursor) : Option Cursor :=
  match c.above with
  | [] => none
  | (parent, later) :: above => some ⟨parent, later, above⟩

end Cursor

namespace Tree

/-- Whether the tree is a leaf for the tokens: it has no children, or they do not count. -/
def isLeaf (t : Tree) : Bool :=
  t.kind.isWholeLiteral || t.children.isEmpty

section Leaf

variable {root : Node} {children : List Tree}

theorem leaves_of_isLeaf (h : (node root children).isLeaf = true) :
    (node root children).leaves = [node root children] := by
  rw [leaves]
  exact if_pos h

theorem leaves_of_not_isLeaf (h : ¬ (node root children).isLeaf = true) :
    (node root children).leaves = children.flatMap leaves := by
  rw [leaves, ← leavesOfAll_eq_flatMap]
  exact if_neg h

theorem tokens_of_isLeaf (text : List Char) (h : (node root children).isLeaf = true) :
    (node root children).tokens text = (Token.ofLeaf? text (node root children)).toList := by
  rw [tokens, leaves_of_isLeaf h, List.filterMap_cons]
  cases Token.ofLeaf? text (node root children) <;> rfl

theorem tokens_of_not_isLeaf (text : List Char) (h : ¬ (node root children).isLeaf = true) :
    (node root children).tokens text = children.flatMap (tokens text) := by
  rw [tokens, leaves_of_not_isLeaf h, List.filterMap_flatMap]
  rfl

theorem length_nodes :
    (node root children).nodes.length = (children.flatMap nodes).length + 1 := by
  rw [nodes, nodesOfAll_eq_flatMap, List.length_cons]

end Leaf

end Tree

/-! ## The walk -/

/-- What the walk does next. -/
inductive LeafWalk.Stage where
  /-- It has come to a node. -/
  | visiting (c : Cursor)
  /-- It is done with a node and with everything below. -/
  | leaving (c : Cursor)
  | ended

/-- How far the walk has come, with the tokens it has collected. -/
structure LeafWalk where
  tokens : List Token
  stage : LeafWalk.Stage

namespace LeafWalk

/-- The walk starts at the root. -/
def start (t : Tree) : LeafWalk :=
  ⟨[], .visiting (.ofTree t)⟩

/-- Goes down from a node, if it is none of the literals that count as one leaf. -/
def descend? (c : Cursor) : Option Cursor :=
  if c.focus.kind.isWholeLiteral then none else c.firstChild?

/-- One turn of the walk over the tree of a text. -/
def turn (text : List Char) (walk : LeafWalk) : LeafWalk :=
  match walk.stage with
  | .visiting c =>
    match descend? c with
    | some child => ⟨walk.tokens, .visiting child⟩
    | none => ⟨walk.tokens ++ (Token.ofLeaf? text c.focus).toList, .leaving c⟩
  | .leaving c =>
    match c.nextSibling? with
    | some next => ⟨walk.tokens, .visiting next⟩
    | none =>
      match c.parent? with
      | some parent => ⟨walk.tokens, .leaving parent⟩
      | none => ⟨walk.tokens, .ended⟩
  | .ended => walk

variable {text : List Char} {collected : List Token} {root : Node} {children : List Tree}
  {t next : Tree} {later : List Tree} {above : List (Tree × List Tree)}

/-- A leaf is collected. -/
theorem turn_leaf (h : (Tree.node root children).isLeaf = true) :
    turn text ⟨collected, .visiting ⟨.node root children, later, above⟩⟩ =
      ⟨collected ++ (Tree.node root children).tokens text,
        .leaving ⟨.node root children, later, above⟩⟩ := by
  have hdown : descend? ⟨.node root children, later, above⟩ = none := by
    unfold descend?
    split
    next => rfl
    next hliteral =>
      have hnil : children = [] := by simpa [Tree.isLeaf, Tree.children, hliteral] using h
      rw [hnil]
      rfl
  simp only [turn, hdown, Tree.tokens_of_isLeaf text h]

/-- From any other node the walk goes down to the first child. -/
theorem turn_inner (h : ¬ (Tree.node root (t :: children)).isLeaf = true) :
    turn text ⟨collected, .visiting ⟨.node root (t :: children), later, above⟩⟩ =
      ⟨collected, .visiting ⟨t, children, (.node root (t :: children), later) :: above⟩⟩ := by
  have hliteral : ¬ (Tree.node root (t :: children)).kind.isWholeLiteral = true := by
    simpa [Tree.isLeaf, Tree.children] using h
  have hdown : descend? ⟨.node root (t :: children), later, above⟩ =
      some ⟨t, children, (.node root (t :: children), later) :: above⟩ := by
    rw [descend?, if_neg hliteral]
    rfl
  simp only [turn, hdown]

theorem turn_leaving_cons :
    turn text ⟨collected, .leaving ⟨t, next :: later, above⟩⟩ =
      ⟨collected, .visiting ⟨next, later, above⟩⟩ := rfl

theorem turn_leaving_nil {parent : Tree × List Tree} :
    turn text ⟨collected, .leaving ⟨t, [], parent :: above⟩⟩ =
      ⟨collected, .leaving ⟨parent.1, parent.2, above⟩⟩ := rfl

/-- Wherever the tree is: from coming to it to leaving it, its tokens are collected. -/
def Collects (text : List Char) (t : Tree) : Prop :=
  ∀ collected later above, ∃ turns < 2 * t.nodes.length,
    (turn text)^[turns] ⟨collected, .visiting ⟨t, later, above⟩⟩ =
      ⟨collected ++ t.tokens text, .leaving ⟨t, later, above⟩⟩

/-- From coming to the first of some siblings to leaving their parent, the tokens of all of them are
collected. -/
theorem turns_row (parent : Tree × List Tree) (above : List (Tree × List Tree))
    (h : ∀ sibling ∈ t :: later, Collects text sibling) (collected : List Token) :
    ∃ turns ≤ 2 * ((t :: later).flatMap Tree.nodes).length,
      (turn text)^[turns] ⟨collected, .visiting ⟨t, later, parent :: above⟩⟩ =
        ⟨collected ++ (t :: later).flatMap (Tree.tokens text),
          .leaving ⟨parent.1, parent.2, above⟩⟩ := by
  induction later generalizing t collected with
  | nil =>
    obtain ⟨turns, hlt, hturns⟩ := h t List.mem_cons_self collected [] (parent :: above)
    rw [List.flatMap_singleton, List.flatMap_singleton]
    exact ⟨turns + 1, hlt, by rw [Function.iterate_succ_apply', hturns, turn_leaving_nil]⟩
  | cons next later ih =>
    obtain ⟨hfirst, hrest⟩ := List.forall_mem_cons.1 h
    obtain ⟨turns, hlt, hturns⟩ := hfirst collected (next :: later) (parent :: above)
    obtain ⟨more, hle, hmore⟩ := ih hrest (collected ++ t.tokens text)
    refine ⟨more + (turns + 1), ?_, ?_⟩
    · rw [List.flatMap_cons, List.length_append]
      omega
    · rw [Function.iterate_add_apply, Function.iterate_succ_apply', hturns, turn_leaving_cons,
        hmore, List.append_assoc, ← List.flatMap_cons]

/-- The walk comes back to every node it has come to. -/
theorem turns_visiting (text : List Char) (t : Tree) : Collects text t := by
  induction t using Tree.induction with
  | step root children ih =>
    intro collected later above
    rw [Tree.length_nodes]
    by_cases hleaf : (Tree.node root children).isLeaf = true
    · exact ⟨1, by omega, turn_leaf hleaf⟩
    · cases children with
      | nil => simp [Tree.isLeaf, Tree.children] at hleaf
      | cons first rest =>
        obtain ⟨turns, hle, hturns⟩ :=
          turns_row (.node root (first :: rest), later) above ih collected
        refine ⟨turns + 1, by omega, ?_⟩
        rw [Function.iterate_succ_apply, turn_inner hleaf, hturns,
          Tree.tokens_of_not_isLeaf text hleaf]

/-- With two turns for each node, or more, the walk is at its end, and it has collected the tokens
of the tree. -/
theorem turns_start (text : List Char) (t : Tree) {turns : Nat}
    (hturns : 2 * t.nodes.length ≤ turns) :
    (turn text)^[turns] (start t) = ⟨t.tokens text, .ended⟩ := by
  obtain ⟨needed, hlt, hleaving⟩ := turns_visiting text t [] [] []
  obtain ⟨more, rfl⟩ := Nat.exists_eq_add_of_le' (show needed + 1 ≤ turns by omega)
  have hended : (turn text)^[needed + 1] (start t) = ⟨t.tokens text, .ended⟩ := by
    rw [Function.iterate_succ_apply', start, Cursor.ofTree, hleaving]
    rfl
  rw [Function.iterate_add_apply, hended]
  exact Function.iterate_fixed rfl more

end LeafWalk

end ClassEdit
