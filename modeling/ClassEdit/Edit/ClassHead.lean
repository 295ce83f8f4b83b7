import ClassEdit.Declaration.Basic
import ClassEdit.Edit.Insertion
import ClassEdit.Render.Overrides
import ClassEdit.Token.Source

/-!
# The head of a class

The head of a class goes from the class-key up to the brace that opens its body. A new base goes to
the end of the head.

## Main definitions

* `Source.tokensFrom`: the tokens from a location on.
* `ClassHead.ofTokens`: the end of the head in a row of tokens.
* `Record.head`: the end of the head of a class.
* `addBase`: the insertion that adds a base to a class.
-/

namespace ClassEdit

/-- The token at the offset, or else the first one after it, and all tokens that follow. -/
def Source.tokensFrom (s : Source) (offset : Nat) : List Token :=
  s.tokens.toList.drop (s.indexAt offset)

/-- The end of the head of a class. -/
structure ClassHead where
  /-- The last token of the head. -/
  last : Token
  /-- The brace that opens the body. -/
  brace : Token
deriving DecidableEq, Repr

namespace ClassHead

/-- The first brace after the token `last` and the token before it. -/
def ofTokens (last : Token) : List Token → Except EditError ClassHead
  | [] => .error (.emptyToken last.start)
  | token :: rest =>
    if token.kind = .lBrace then .ok ⟨last, token⟩ else ofTokens token rest

end ClassHead

/-- The end of the head of a class. -/
def Record.head (r : Record) (source : Source) : Except EditError ClassHead :=
  match source.tokensFrom r.start with
  | [] => .error (.emptyToken r.start)
  | first :: rest => ClassHead.ofTokens first rest

/-- The insertion that adds a base to a class: after the bases it has, or else as its first base
with public access. -/
def addBase (content : List Char) (derived base : Record) (source : Source) :
    Except EditError Insertion := do
  let head ← derived.head source
  if head.last.stop > Text.byteLength content then .error .invalidToken
  else if derived.bases.isEmpty then
    .ok ⟨head.last.stop, " : public " ++ base.spelledName⟩
  else .ok ⟨head.last.stop, ", " ++ base.spelledName⟩

end ClassEdit
