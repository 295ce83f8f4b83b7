import ClassEdit.Edit.Error
import ClassEdit.Text.Bytes

/-!
# Insertions

An edit is a list of texts to insert, each at an offset of the text before the edit. They are made
from the highest offset down, so that the offsets still to come stay right; of several at one
offset the first in the list ends up first in the text.

## Main definitions

* `Insertion`: a text and the offset it goes to.
* `applyInsertions`: the text after the edit.
-/

namespace ClassEdit

/-- A text to insert at an offset. -/
structure Insertion where
  offset : Nat
  text : String
deriving DecidableEq, Repr

namespace Insertion

/-- The order in which insertions are made: highest offset first, and of several at one offset the
last first. -/
def schedule (insertions : List Insertion) : List Insertion :=
  insertions.reverse.mergeSort fun a b => b.offset ≤ a.offset

/-- Makes one insertion. A text without a position at the offset stays as it is. -/
def insertInto (insertion : Insertion) (cs : List Char) : List Char :=
  match Text.splitAt? cs insertion.offset with
  | some (before, after) => before ++ insertion.text.toList ++ after
  | none => cs

end Insertion

/-- Makes one insertion, whose offset is one of `content`, in a text. -/
def makeInsertion (content : List Char) (text : List Char) (i : Insertion) :
    Except EditError (List Char) :=
  if Text.IsBoundary content i.offset then .ok (i.insertInto text)
  else .error (.invalidOffset i.offset (Text.byteLength content))

/-- Makes the insertions, whose offsets are those of `content`. -/
def applyInsertions (content : List Char) (insertions : List Insertion) :
    Except EditError (List Char) :=
  (Insertion.schedule insertions).foldlM (makeInsertion content) content

end ClassEdit
