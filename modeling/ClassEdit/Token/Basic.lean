import ClassEdit.Text.Blank
import ClassEdit.Text.Bytes
import ClassEdit.Text.Letter
import ClassEdit.Tree.Basic

/-!
# Tokens

The tokens of a text are the leaves of its syntax tree in order. A literal is one token although
the grammar divides it further; comments, missing nodes and blanks are no tokens.

## Main definitions

* `Token`: a kind and the bytes covered.
* `Token.ofLeaf?`: the token that a leaf stands for.
* `Tree.leaves`: the leaves of a tree, literals taken whole.
* `Tree.tokens`: the tokens of a tree.
-/

namespace ClassEdit

/-- The kinds of tokens. -/
inductive TokenKind where
  /-- A name or a keyword. -/
  | identifier
  | numericConstant
  | charConstant
  | stringLiteral
  | semi
  | lBrace
  | rBrace
  | lParen
  | rParen
  | lSquare
  | rSquare
  | colon
  | colonColon
  | comma
  | less
  | greater
  | amp
  | ampAmp
  | star
  | equal
  | tilde
  /-- The start of a preprocessor directive. -/
  | hash
  /-- Any other punctuation. -/
  | punctuation
deriving DecidableEq, Repr, Inhabited

/-- A token: its kind, the offset of its first byte and the number of its bytes. -/
structure Token where
  kind : TokenKind
  start : Nat
  length : Nat
deriving DecidableEq, Repr, Inhabited

namespace Token

/-- The offset past the last byte. -/
def stop (t : Token) : Nat := t.start + t.length

end Token

namespace TokenKind

/-- The kind of a token that its first character decides. -/
def ofFirstChar (c : Char) : TokenKind :=
  if c = '#' then hash
  else if c.isDigit then numericConstant
  else if c = '_' || c = '$' || Text.isLetter c then identifier
  else punctuation

/-- The kind of a token that is no literal. -/
def ofText (text : List Char) : TokenKind :=
  match text with
  | [';'] => semi
  | ['{'] => lBrace
  | ['}'] => rBrace
  | ['('] => lParen
  | [')'] => rParen
  | ['['] => lSquare
  | [']'] => rSquare
  | [':'] => colon
  | [':', ':'] => colonColon
  | [','] => comma
  | ['<'] => less
  | ['>'] => greater
  | ['&'] => amp
  | ['&', '&'] => ampAmp
  | ['*'] => star
  | ['='] => equal
  | ['~'] => tilde
  | c :: _ => ofFirstChar c
  | [] => punctuation

/-- The kind of the literals of a syntax kind. -/
def ofLiteral? : Kind → Option TokenKind
  | .numberLiteral => some numericConstant
  | .charLiteral => some charConstant
  | .stringLiteral | .rawStringLiteral | .systemLibString => some stringLiteral
  | _ => none

/-- The kind of the token that covers `text`. A literal with a user-defined suffix has the kind of
the literal it starts with. -/
def ofTree (text : List Char) : Tree → TokenKind
  | .node root [] => (ofLiteral? root.kind).getD (ofText text)
  | .node root (first :: _) =>
    if root.kind = .userDefinedLiteral then ofTree text first
    else (ofLiteral? root.kind).getD (ofText text)

end TokenKind

/-- The token that covers the bytes of a leaf of the syntax tree. -/
def Token.ofLeaf? (source : List Char) (leaf : Tree) : Option Token :=
  if leaf.kind = .comment || leaf.root.isMissing then none
  else do
    let text ← Text.slice? source leaf.root.start leaf.root.stop
    if (Text.trim text).isEmpty then none
    else some ⟨TokenKind.ofTree text leaf, leaf.root.start, Text.byteLength text⟩

/-- Whether nodes of the kind are one token together with everything below them. -/
def Kind.isWholeLiteral : Kind → Bool
  | .stringLiteral | .rawStringLiteral | .charLiteral | .userDefinedLiteral => true
  | _ => false

namespace Tree

mutual

/-- The leaves of the tree in order, a literal counting as one leaf. -/
def leaves : Tree → List Tree
  | node root children =>
    if root.kind.isWholeLiteral || children.isEmpty then [node root children]
    else leavesOfAll children

/-- The leaves of some trees in order. -/
def leavesOfAll : List Tree → List Tree
  | [] => []
  | t :: ts => t.leaves ++ leavesOfAll ts

end

/-- The tokens of the tree, whose text is `source`. -/
def tokens (source : List Char) (t : Tree) : List Token :=
  t.leaves.filterMap (Token.ofLeaf? source)

end Tree

end ClassEdit
