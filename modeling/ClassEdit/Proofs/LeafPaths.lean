import ClassEdit.Proofs.LeafWalk
import ClassEdit.Proofs.TokenOrder
import Mathlib.Data.List.Basic
import Mathlib.Data.List.Forall2

/-!
# The leaves of a tree and their places

Equal trees may stand at several places of a tree, so what it means that each leaf gives one token
is said about places. A place is the way down from the root, and places are in lexicographic order
in the order in which the tree is written down: a node before what is below it, and what is below
a child before the next child. No token comes from below a literal that is one token itself.

## Main definitions

* `Tree.at?`: the tree at a place.
* `Tree.IsLeafAt`: a leaf of the tree at a place.
* `Tree.ShowsToken`: the leaf gives a token.
* `Token.Covers`: the token is the one of a leaf.

## Main statements

* `Tree.map_at?_leafPaths`, `Tree.pairwise_leafPaths`, `Tree.mem_leafPaths_iff`: the places of the
  leaves.
* `Tree.WellFormed.tokens_at_leaves`: the tokens that the walk over a well-formed tree collects.
-/

namespace ClassEdit

/-- A place in a tree: the number of the child to go down to, step by step from the root. -/
abbrev Path := List Nat

namespace Tree

/-- The tree at a place. -/
def at? (t : Tree) : Path → Option Tree
  | [] => some t
  | index :: path => t.children[index]?.bind fun child => child.at? path

/-- At a place there is a leaf that is not inside of a literal. -/
structure IsLeafAt (t : Tree) (path : Path) (leaf : Tree) : Prop where
  at_eq : t.at? path = some leaf
  isLeaf : leaf.isLeaf = true
  outside : ∀ above s, above <+: path → above ≠ path → t.at? above = some s →
    s.kind.isWholeLiteral = false

/-- The leaf gives a token: it is no comment, it is not missing, and something of it shows. -/
def ShowsToken (text : List Char) (leaf : Tree) : Prop :=
  leaf.kind ≠ .comment ∧ leaf.root.isMissing = false ∧
    ∃ part, Text.slice? text leaf.root.start leaf.root.stop = some part ∧
      ∃ c ∈ part, Text.isBlank c = false

end Tree

/-- The token has the range of the leaf, and the kind that its text gives. -/
def Token.Covers (text : List Char) (leaf : Tree) (token : Token) : Prop :=
  token.start = leaf.root.start ∧ token.stop = leaf.root.stop ∧
    ∃ part, Text.slice? text leaf.root.start leaf.root.stop = some part ∧
      token.kind = TokenKind.ofTree part leaf

namespace Tree

mutual

/-- The places of the leaves in order. -/
def leafPaths : Tree → List Path
  | node root children =>
    if root.kind.isWholeLiteral || children.isEmpty then [[]] else leafPathsOfAll 0 children

/-- The places of the leaves of some trees, the first of which is child number `index`. -/
def leafPathsOfAll (index : Nat) : List Tree → List Path
  | [] => []
  | t :: ts => t.leafPaths.map (index :: ·) ++ leafPathsOfAll (index + 1) ts

end

theorem leafPathsOfAll_eq_flatMap (index : Nat) (ts : List Tree) :
    leafPathsOfAll index ts =
      (ts.zipIdx index).flatMap fun child => child.1.leafPaths.map (child.2 :: ·) := by
  induction ts generalizing index with
  | nil => rfl
  | cons t ts ih => rw [leafPathsOfAll, ih, List.zipIdx_cons, List.flatMap_cons]

section Leaf

variable {root : Node} {children : List Tree}

theorem leafPaths_of_isLeaf (h : (node root children).isLeaf = true) :
    (node root children).leafPaths = [[]] := by
  rw [leafPaths]
  exact if_pos h

theorem leafPaths_of_not_isLeaf (h : ¬ (node root children).isLeaf = true) :
    (node root children).leafPaths =
      children.zipIdx.flatMap fun child => child.1.leafPaths.map (child.2 :: ·) := by
  rw [leafPaths, ← leafPathsOfAll_eq_flatMap]
  exact if_neg h

end Leaf

/-- At the places of the leaves there are the leaves. -/
theorem map_at?_leafPaths (t : Tree) : t.leafPaths.map t.at? = t.leaves.map some := by
  induction t using induction with
  | step root children ih =>
    by_cases hleaf : (node root children).isLeaf = true
    · rw [leafPaths_of_isLeaf hleaf, leaves_of_isLeaf hleaf]
      rfl
    · rw [leafPaths_of_not_isLeaf hleaf, leaves_of_not_isLeaf hleaf, List.map_flatMap,
        List.map_flatMap]
      conv => rhs; rw [← List.zipIdx_map_fst 0 children, List.flatMap_map]
      refine List.flatMap_congr fun child hchild => ?_
      have hget := List.mem_zipIdx_iff_getElem?.1 hchild
      rw [← ih child.1 (List.mem_of_getElem? hget), List.map_map]
      refine List.map_congr_left fun path _ => ?_
      simp [at?, Tree.children, hget]

/-- The places of the leaves come in the order of the tree, and each of them once. -/
theorem pairwise_leafPaths (t : Tree) : t.leafPaths.Pairwise (· < ·) := by
  induction t using induction with
  | step root children ih =>
    by_cases hleaf : (node root children).isLeaf = true
    · rw [leafPaths_of_isLeaf hleaf]
      exact List.pairwise_singleton _ _
    · rw [leafPaths_of_not_isLeaf hleaf, List.pairwise_flatMap]
      constructor
      · intro child hchild
        have hmem := List.mem_of_getElem? (List.mem_zipIdx_iff_getElem?.1 hchild)
        rw [List.pairwise_map]
        exact (ih child.1 hmem).imp fun hlt => List.cons_lt_cons_iff.2 (.inr ⟨rfl, hlt⟩)
      · have hindex : children.zipIdx.Pairwise fun a b => a.2 < b.2 := by
          rw [← List.pairwise_map, List.zipIdx_map_snd]
          exact List.pairwise_lt_range'
        refine hindex.imp fun hlt x hx y hy => ?_
        obtain ⟨_, -, rfl⟩ := List.mem_map.1 hx
        obtain ⟨_, -, rfl⟩ := List.mem_map.1 hy
        exact List.cons_lt_cons_iff.2 (.inl hlt)

/-- Below a node that is no leaf there is a leaf where there is one of a child. -/
theorem isLeafAt_cons_iff {root : Node} {children : List Tree} {leaf : Tree} {index : Nat}
    {path : Path} (h : root.kind.isWholeLiteral = false) :
    (node root children).IsLeafAt (index :: path) leaf ↔
      ∃ child, children[index]? = some child ∧ child.IsLeafAt path leaf := by
  constructor
  · rintro ⟨hat, hleaf, houtside⟩
    obtain ⟨child, hchild, hpath⟩ := Option.bind_eq_some_iff.1 hat
    refine ⟨child, hchild, hpath, hleaf, fun above s habove hne hs => ?_⟩
    refine houtside (index :: above) s (List.cons_prefix_cons.2 ⟨rfl, habove⟩) (by simpa) ?_
    rw [at?, hchild]
    exact hs
  · rintro ⟨child, hchild, hpath, hleaf, houtside⟩
    refine ⟨Option.bind_eq_some_iff.2 ⟨child, hchild, hpath⟩, hleaf, ?_⟩
    intro above s habove hne hs
    cases above with
    | nil =>
      obtain rfl := Option.some.inj hs
      exact h
    | cons first above =>
      obtain ⟨rfl, hinner⟩ := List.cons_prefix_cons.1 habove
      rw [at?, Tree.children, hchild] at hs
      exact houtside above s hinner (by simpa using hne) hs

/-- The places listed are those of the leaves. -/
theorem mem_leafPaths_iff {t : Tree} {path : Path} :
    path ∈ t.leafPaths ↔ ∃ leaf, t.IsLeafAt path leaf := by
  induction t using induction generalizing path with
  | step root children ih =>
    by_cases hleaf : (node root children).isLeaf = true
    · rw [leafPaths_of_isLeaf hleaf, List.mem_singleton]
      constructor
      · rintro rfl
        refine ⟨_, rfl, hleaf, fun above s habove hne => ?_⟩
        exact absurd (List.prefix_nil.1 habove) hne
      · rintro ⟨leaf, hat, -, houtside⟩
        -- A place further down would be inside of a literal or have no tree.
        cases path with
        | nil => rfl
        | cons index path =>
          have hliteral := houtside [] _ (List.nil_prefix) (by simp) rfl
          obtain ⟨child, hchild, -⟩ := Option.bind_eq_some_iff.1 hat
          have hmem := List.mem_of_getElem? hchild
          grind [isLeaf]
    · have hliteral : root.kind.isWholeLiteral = false := by grind [isLeaf, kind, Tree.root]
      rw [leafPaths_of_not_isLeaf hleaf, List.mem_flatMap]
      cases path with
      | nil =>
        constructor
        · rintro ⟨child, -, hpath⟩
          simp at hpath
        · rintro ⟨leaf, hat, hisLeaf, -⟩
          obtain rfl := Option.some.inj hat
          exact absurd hisLeaf hleaf
      | cons index path =>
        simp only [isLeafAt_cons_iff hliteral]
        constructor
        · rintro ⟨⟨child, _⟩, hchild, hpath⟩
          have hget := List.mem_zipIdx_iff_getElem?.1 hchild
          obtain ⟨_, hinner, heq⟩ := List.mem_map.1 hpath
          obtain ⟨rfl, rfl⟩ := List.cons.inj heq
          obtain ⟨leaf, hat⟩ := (ih child (List.mem_of_getElem? hget)).1 hinner
          exact ⟨leaf, child, hget, hat⟩
        · rintro ⟨leaf, child, hget, hat⟩
          refine ⟨(child, index), List.mem_zipIdx_iff_getElem?.2 hget, ?_⟩
          exact List.mem_map_of_mem ((ih child (List.mem_of_getElem? hget)).2 ⟨leaf, hat⟩)

/-! ## Tokens -/

variable {text : List Char} {tree leaf : Tree}

theorem isSome_ofLeaf?_iff : (Token.ofLeaf? text leaf).isSome = true ↔ leaf.ShowsToken text := by
  constructor
  · intro h
    obtain ⟨token, htoken⟩ := Option.isSome_iff_exists.1 h
    obtain ⟨hcomment, part, hpart, hshows, -⟩ := Token.ofLeaf?_eq_some htoken
    refine ⟨hcomment, ?_, part, hpart, hshows⟩
    cases hmissing : leaf.root.isMissing with
    | false => rfl
    | true => simp [Token.ofLeaf?, hmissing] at htoken
  · rintro ⟨hcomment, hmissing, part, hpart, c, hc, hblank⟩
    have htrim : Text.trim part ≠ [] := by
      rw [Ne, Text.trim_eq_nil_iff]
      intro hall
      simp [hall c hc] at hblank
    simp [Token.ofLeaf?, hcomment, hmissing, hpart, htrim]

theorem covers_of_ofLeaf? {token : Token} (h : Token.ofLeaf? text leaf = some token) :
    token.Covers text leaf := by
  obtain ⟨-, part, hpart, -, hkind, hstart, hstop⟩ := Token.ofLeaf?_eq_some h
  exact ⟨hstart, hstop, part, hpart, hkind⟩

/-- The token of the leaf at a place, if there is one. -/
def tokenAt? (text : List Char) (t : Tree) (path : Path) : Option Token :=
  (t.at? path).bind (Token.ofLeaf? text)

theorem tokens_eq_filterMap_leafPaths (text : List Char) (t : Tree) :
    t.tokens text = t.leafPaths.filterMap (t.tokenAt? text) := by
  have hplaces : t.leafPaths.filterMap (t.tokenAt? text) =
      (t.leafPaths.map t.at?).filterMap (·.bind (Token.ofLeaf? text)) := by
    rw [List.filterMap_map]
    rfl
  rw [hplaces, map_at?_leafPaths, List.filterMap_map]
  rfl

/-- The walk over a well-formed tree ends with its tokens, and these are those of its leaves that
give one. Each of these gives one token, and they do so in the order of the tree. No token is empty,
the tokens begin and end at positions of the text, and each ends before the next one starts. -/
theorem WellFormed.tokens_at_leaves (h : tree.WellFormed text) :
    (∀ turns, 2 * tree.nodes.length ≤ turns →
      (LeafWalk.turn text)^[turns] (LeafWalk.start tree) = ⟨tree.tokens text, .ended⟩) ∧
    ∃ paths : List Path, paths.Pairwise (· < ·) ∧
      (∀ path, path ∈ paths ↔ ∃ leaf, tree.IsLeafAt path leaf ∧ leaf.ShowsToken text) ∧
      List.Forall₂ (fun path token => ∃ leaf, tree.at? path = some leaf ∧ token.Covers text leaf)
        paths (tree.tokens text) ∧
      (∀ token ∈ tree.tokens text, token.start < token.stop ∧
        token.stop ≤ Text.byteLength text ∧ Text.IsBoundary text token.start ∧
        Text.IsBoundary text token.stop) ∧
      (tree.tokens text).Pairwise fun a b => a.start < b.start ∧ a.stop ≤ b.start := by
  have hlexed : (Source.ofTree { text } tree).Lexed := Source.lexed_ofTree h
  refine ⟨fun turns hturns => LeafWalk.turns_start text tree hturns,
    tree.leafPaths.filter fun path => (tree.tokenAt? text path).isSome,
    (pairwise_leafPaths tree).filter _, fun path => ?_, ?_, fun token htoken => ?_, ?_⟩
  · rw [List.mem_filter, mem_leafPaths_iff]
    constructor
    · rintro ⟨⟨leaf, hleaf⟩, hsome⟩
      rw [tokenAt?, hleaf.at_eq, Option.bind_some, isSome_ofLeaf?_iff] at hsome
      exact ⟨leaf, hleaf, hsome⟩
    · rintro ⟨leaf, hleaf, hshows⟩
      rw [tokenAt?, hleaf.at_eq, Option.bind_some, isSome_ofLeaf?_iff]
      exact ⟨⟨leaf, hleaf⟩, hshows⟩
  · have htokens : (tree.leafPaths.filter fun path => (tree.tokenAt? text path).isSome).map
        (tree.tokenAt? text) = (tree.tokens text).map some := by
      rw [tokens_eq_filterMap_leafPaths, List.map_filterMap_some_eq_filter_map_isSome,
        List.filter_map]
      rfl
    rw [← List.forall₂_eq_eq_eq, List.forall₂_map_left_iff, List.forall₂_map_right_iff] at htokens
    refine htokens.imp fun path token htoken => ?_
    obtain ⟨leaf, hleaf, hcovers⟩ := Option.bind_eq_some_iff.1 htoken
    exact ⟨leaf, hleaf, covers_of_ofLeaf? hcovers⟩
  · have hstop := hlexed.isBoundary_stop htoken
    exact ⟨hlexed.nonempty token htoken, hstop.le_byteLength, hlexed.isBoundary_start htoken, hstop⟩
  · refine hlexed.pairwise.imp_of_mem fun {a b} ha _ hab => ⟨?_, hab⟩
    exact (hlexed.nonempty a ha).trans_le hab

/-- A call with a comment among its arguments, and without the semicolon that should end it. -/
def callText : List Char :=
  "f(\"é;\" /* ; */, ' ')".toList

/-- The tree of `callText`. -/
def callTree : Tree :=
  .node ⟨.other, none, 0, 21, true, false⟩
    [.node ⟨.identifier, none, 0, 1, true, false⟩ [],
      .node ⟨.other, some .arguments, 1, 21, true, false⟩
        [.terminal 1 2,
          .node ⟨.stringLiteral, none, 2, 7, true, false⟩
            [.terminal 2 3, .terminal 3 6, .terminal 6 7],
          .node ⟨.comment, none, 8, 15, true, false⟩ [],
          .node ⟨.comma, none, 15, 16, false, false⟩ [],
          .node ⟨.charLiteral, none, 17, 20, true, false⟩
            [.terminal 17 18, .terminal 18 19, .terminal 19 20],
          .terminal 20 21],
      .node ⟨.other, none, 21, 21, false, true⟩ []]

theorem tokens_at_leaves_callTree :
    callTree.WellFormed callText ∧
    callTree.tokens callText = [⟨.identifier, 0, 1⟩, ⟨.lParen, 1, 1⟩, ⟨.stringLiteral, 2, 5⟩,
      ⟨.comma, 15, 1⟩, ⟨.charConstant, 17, 3⟩, ⟨.rParen, 20, 1⟩] ∧
    (LeafWalk.turn callText)^[32] (LeafWalk.start callTree) =
      ⟨callTree.tokens callText, .ended⟩ ∧
    ∃ paths : List Path, paths.Pairwise (· < ·) ∧ paths.length = 6 ∧
      (∀ path, path ∈ paths ↔
        ∃ leaf, callTree.IsLeafAt path leaf ∧ leaf.ShowsToken callText) ∧
      List.Forall₂ (fun path token => ∃ leaf, callTree.at? path = some leaf ∧
        token.Covers callText leaf) paths (callTree.tokens callText) := by
  have hwf : callTree.WellFormed callText := by decide
  have htokens : callTree.tokens callText = [⟨.identifier, 0, 1⟩, ⟨.lParen, 1, 1⟩,
      ⟨.stringLiteral, 2, 5⟩, ⟨.comma, 15, 1⟩, ⟨.charConstant, 17, 3⟩, ⟨.rParen, 20, 1⟩] := by
    decide
  obtain ⟨hwalk, paths, horder, hmem, hcovers, -⟩ := WellFormed.tokens_at_leaves hwf
  exact ⟨hwf, htokens, hwalk 32 (by decide), paths, horder,
    by rw [hcovers.length_eq, htokens]; rfl, hmem, hcovers⟩

end Tree

end ClassEdit
