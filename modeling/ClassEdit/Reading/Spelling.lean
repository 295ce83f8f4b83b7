import ClassEdit.Text.Blank
import ClassEdit.Text.Letter
import ClassEdit.Text.Search

/-!
# Normal spellings

The same name or expression can be written with more or fewer blanks. In its normal spelling the
words are one space apart, and there is no space around `::` nor inside of angle brackets.

## Main definitions

* `normalSpelling`: the normal spelling of a text.
* `operatorSpelling`: the normal spelling of the name of an operator function.
* `attributeWord`: the first word of the argument of an attribute.
-/

namespace ClassEdit

/-- The words of a text, one space apart. -/
def singleSpaced (text : String) : String :=
  " ".intercalate ((Text.words text.toList).map String.ofList)

/-- The normal spelling of a text. -/
def normalSpelling (text : String) : String :=
  [(" ::", "::"), (":: ", "::"), ("< ", "<"), (" >", ">"), (" <", "<"), (" ,", ",")].foldl
    (fun spelling rule => Text.replaced spelling rule.1 rule.2) (singleSpaced text)

/-- The text without any repetition of `pattern` in front, the first `skip` characters being part
of one. -/
def dropRepeated (pattern : List Char) : Nat → List Char → List Char
  | _, [] => []
  | skip + 1, _ :: cs => dropRepeated pattern skip cs
  | 0, c :: cs =>
    if pattern.isPrefixOf (c :: cs) then dropRepeated pattern (pattern.length - 1) cs else c :: cs

/-- The normal spelling of the name of an operator function: a word such as `new` is kept apart
from the keyword, and a symbol is not. -/
def operatorSpelling (text : String) : String :=
  let symbol := Text.trim (dropRepeated "operator".toList 0 (Text.trim text.toList))
  let symbol := normalSpelling (String.ofList symbol)
  if symbol.toList.head?.any fun c => c.isAlpha || c == '"' then
    "operator " ++ Text.replaced (Text.replaced symbol " [" "[") "[ " "["
  else "operator" ++ Text.replaced symbol " " ""

/-- The first word of the argument of an attribute, which may stand in parentheses. -/
def attributeWord (text : String) : String :=
  String.ofList ((Text.trim (text.toList.dropWhile (· = '('))).takeWhile Text.isNameChar)

end ClassEdit
