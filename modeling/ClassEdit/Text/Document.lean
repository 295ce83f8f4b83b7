import ClassEdit.Text.Bisect
import ClassEdit.Text.Bytes

/-!
# Documents and their lines

A document is a text with a table of the offsets at which its lines start. A line ends before its
newline; a newline at the end of the text opens one more, empty line.

## Main definitions

* `Document.lineStarts`: the offset of the first byte of every line.
* `Document.lineColumn`: the line and column of an offset.
* `Document.line?`: the text of a line.
-/

namespace ClassEdit

/-- A text, with the path it was read from if there is one. -/
structure Document where
  path : Option String := none
  text : List Char

namespace Document

/-- The offsets right after the newlines of a text that starts at `offset`. -/
def newlineEnds (offset : Nat) : List Char → List Nat
  | [] => []
  | c :: cs =>
    let next := offset + c.utf8Size
    if c = '\n' then next :: newlineEnds next cs else newlineEnds next cs

/-- The number of bytes of the text. -/
def length (d : Document) : Nat :=
  Text.byteLength d.text

/-- The offset of the first byte of every line. -/
def lineStarts (d : Document) : Array Nat :=
  (0 :: newlineEnds 0 d.text).toArray

/-- The number of lines. -/
def lineCount (d : Document) : Nat :=
  d.lineStarts.size

/-- The line that holds the offset, counted from 0, and the distance from its start. An offset past
the end belongs to the last line. -/
def lineColumn (d : Document) (offset : Nat) : Nat × Nat :=
  let starts := d.lineStarts
  let line := partitionPoint (· ≤ offset) starts - 1
  (line, offset - starts.getD line 0)

/-- The line that holds the offset, counted from 1. -/
def lineNumber (d : Document) (offset : Nat) : Nat :=
  (d.lineColumn offset).1 + 1

/-- The offset at which the line starts, for a line counted from 1. -/
def lineStart? (d : Document) (number : Nat) : Option Nat :=
  match number with
  | 0 => none
  | index + 1 => d.lineStarts[index]?

/-- The text without the newlines at its end. -/
def dropNewlines (cs : List Char) : List Char :=
  (cs.reverse.dropWhile (· = '\n')).reverse

/-- The text of a line, counted from 0, without its newline. -/
def line? (d : Document) (index : Nat) : Option (List Char) := do
  let starts := d.lineStarts
  let start ← starts[index]?
  let stop := starts.getD (index + 1) d.length
  return dropNewlines (← Text.slice? d.text start stop)

end Document

end ClassEdit
