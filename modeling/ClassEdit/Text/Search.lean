/-!
# Occurrences of one text in another

Unless said otherwise searches go from left to right, and an occurrence that starts inside an
earlier one does not count.

## Main definitions

* `replaceAll`: every occurrence replaced.
* `splitOn`: the parts between the occurrences.
* `afterLast`: what follows the last occurrence, found from the right.
* `stripStart?`: what follows a given start.
-/

namespace ClassEdit.Text

/-- Replaces the occurrences of `pattern`, the first `skip` characters being part of an occurrence
that has been replaced already. -/
def replaceFrom (pattern replacement : List Char) : Nat → List Char → List Char
  | _, [] => []
  | skip + 1, _ :: cs => replaceFrom pattern replacement skip cs
  | 0, c :: cs =>
    if pattern.isPrefixOf (c :: cs) then
      replacement ++ replaceFrom pattern replacement (pattern.length - 1) cs
    else c :: replaceFrom pattern replacement 0 cs

/-- The text with every occurrence of the non-empty `pattern` replaced. -/
def replaceAll (pattern replacement cs : List Char) : List Char :=
  replaceFrom pattern replacement 0 cs

/-- The parts of a text between the occurrences of `pattern`, the first `skip` characters being
part of an occurrence. -/
def splitFrom (pattern : List Char) : Nat → List Char → List (List Char)
  | _, [] => [[]]
  | skip + 1, _ :: cs => splitFrom pattern skip cs
  | 0, c :: cs =>
    if pattern.isPrefixOf (c :: cs) then [] :: splitFrom pattern (pattern.length - 1) cs
    else match splitFrom pattern 0 cs with
      | [] => [[c]]
      | part :: rest => (c :: part) :: rest

/-- The parts of a text between the occurrences of the non-empty `pattern`. -/
def splitOn (pattern cs : List Char) : List (List Char) :=
  splitFrom pattern 0 cs

/-- Whether `pattern` occurs in a text. -/
def occursIn (pattern : List Char) : List Char → Bool
  | [] => pattern.isEmpty
  | c :: cs => pattern.isPrefixOf (c :: cs) || occursIn pattern cs

/-- What follows the last occurrence of the non-empty `pattern`; the whole text if there is none. -/
def afterLast (pattern cs : List Char) : List Char :=
  ((splitOn pattern.reverse cs.reverse).headD []).reverse

/-- What follows `start` in a text that starts with it. -/
def stripStart? (start cs : List Char) : Option (List Char) :=
  if start.isPrefixOf cs then some (cs.drop start.length) else none

/-- The string with every occurrence of the non-empty `pattern` replaced. -/
def replaced (s pattern replacement : String) : String :=
  String.ofList (replaceAll pattern.toList replacement.toList s.toList)

/-- What follows `start` in a string that starts with it. -/
def afterStart? (start s : String) : Option String :=
  (stripStart? start.toList s.toList).map String.ofList

/-- The string without `start` in front, if it stands there. -/
def dropStart (start s : String) : String :=
  (afterStart? start s).getD s

/-- Whether the string ends with `suffix`. -/
def endsIn (s suffix : String) : Bool :=
  suffix.toList.isSuffixOf s.toList

/-- The byte offset of the first newline of a text. -/
def newlineOffset? : List Char → Option Nat
  | [] => none
  | c :: cs => if c = '\n' then some 0 else (newlineOffset? cs).map (· + c.utf8Size)

end ClassEdit.Text
