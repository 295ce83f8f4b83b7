import ClassEdit.Text.Search
import ClassEdit.Text.Blank
import ClassEdit.Tree.Basic

/-!
# Listings of syntax trees

A front end writes a syntax tree as a listing with a node on every line, in pre-order:

    children start stop flags field kind

The flags are `n` for a named node, `m` for a missing one, both or `-`; a node without a role in its
parent has the field `-`. The kind is the rest of the line.

## Main definitions

* `Tree.ofListing?`: the tree of a listing.
-/

namespace ClassEdit

/-- The number that decimal digits stand for. -/
def decimal? (cs : List Char) : Option Nat :=
  if !cs.isEmpty && cs.all Char.isDigit then
    some (cs.foldl (fun n c => 10 * n + (c.toNat - 48)) 0)
  else none

/-- The node on a line of a listing, with the number of its children. -/
def Node.ofLine? (line : List Char) : Option (Node × Nat) := do
  match Text.parts (· = ' ') line with
  | children :: start :: stop :: flags :: field :: kind =>
    let node : Node := {
      kind := Kind.ofName (String.ofList ([' '].intercalate kind))
      field := if field = ['-'] then none else some (Field.ofName (String.ofList field))
      start := ← decimal? start
      stop := ← decimal? stop
      isNamed := flags.contains 'n'
      isMissing := flags.contains 'm' }
    return (node, ← decimal? children)
  | _ => none

/-- Whether the node comes from error recovery. -/
def Node.isRecovered (n : Node) : Bool :=
  n.kind = .error || n.isMissing

/-- The tree of a listing, and whether the text has syntax errors. -/
def Tree.ofListing? (listing : List Char) : Option (Tree × Bool) := do
  let lines := (Text.parts (· = '\n') listing).filter fun line => !line.isEmpty
  let entries ← lines.mapM Node.ofLine?
  return (← Tree.ofPreorder? entries, entries.any (·.1.isRecovered))

end ClassEdit
