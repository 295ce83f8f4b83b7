import ClassEdit.Text.Document
import ClassEdit.Token.Basic

/-!
# Sources

A source is a document together with its tokens in order. Since the tokens neither overlap nor
change places, a location is looked up among them by bisection.

## Main definitions

* `Source.tokenAt?`: the token at a location, or the first one after it.
* `Source.nextToken?`: the token after that one.
* `Source.tokenEnd`: the location past the token that starts at a location.
* `Source.tokensIn`: the tokens that start in a range.
* `Source.slice`: the text of a range.
-/

namespace ClassEdit

/-- A document and its tokens. -/
structure Source where
  document : Document
  tokens : Array Token

namespace Source

/-- The source with the given text and syntax tree. -/
def ofTree (document : Document) (tree : Tree) : Source :=
  ⟨document, (tree.tokens document.text).toArray⟩

/-- The whole text. -/
def text (s : Source) : List Char := s.document.text

/-- The index of the first token that ends after the offset. -/
def indexAt (s : Source) (offset : Nat) : Nat :=
  partitionPoint (fun token => token.stop ≤ offset) s.tokens

/-- The token that covers the location, or else the first one after it. -/
def tokenAt? (s : Source) (location : Location) : Option Token := do
  let offset ← location
  s.tokens[s.indexAt offset]?

/-- The token that follows the one at the location. -/
def nextToken? (s : Source) (location : Location) : Option Token := do
  let offset ← location
  s.tokens[s.indexAt offset + 1]?

/-- The location past the token that starts at `location`; the location itself if none does. -/
def tokenEnd (s : Source) (location : Location) : Location :=
  match s.tokenAt? location with
  | some token => if some token.start = location then some token.stop else location
  | none => location

/-- The tokens that start in the range, in order. -/
def tokensIn (s : Source) (range : Range) : List Token :=
  match range.bounds? with
  | none => []
  | some (start, stop) =>
    let first := partitionPoint (fun token => token.start < start) s.tokens
    let last := partitionPoint (fun token => token.start < stop) s.tokens
    (s.tokens.toList.drop first).take (last - first)

/-- The line of a location, counted from 1. What stands past the end or nowhere counts as standing
at the end. -/
def lineNumber (s : Source) (location : Location) : Nat :=
  let length := s.document.length
  s.document.lineNumber (min (location.getD length) length)

/-- The text of a range; empty if the range is no part of the text. -/
def slice (s : Source) (range : Range) : String :=
  match range.bounds? with
  | some (start, stop) => String.ofList ((Text.slice? s.text start stop).getD [])
  | none => ""

/-- The text that a syntax tree covers. -/
def textOf (s : Source) (t : Tree) : String :=
  s.slice t.range

end Source

end ClassEdit
