import ClassEdit.Unit.Basic

/-!
# Finding declarations by name

A class is found by its qualified name, or by the end of it where that is enough to tell it from
the others.

## Main definitions

* `TranslationUnit.findFunction?`: a function by name.
* `TranslationUnit.findRecord`: a class by name.
* `LookupError`: why there is no such class.
-/

namespace ClassEdit

/-- Why a name does not stand for a class. -/
inductive LookupError where
  | notFound (name : String)
  /-- The name may stand for any of the candidates. -/
  | ambiguous (name : String) (candidates : List String)
deriving DecidableEq, Repr

namespace LookupError

/-- The sentence that reports the cause. -/
def message : LookupError → String
  | notFound name => "No class or struct definition named `" ++ name ++ "`"
  | ambiguous name candidates =>
    "`" ++ name ++ "` is ambiguous, candidates: " ++ ", ".intercalate candidates

/-- The stable identifier of the cause. -/
def code : LookupError → String
  | notFound _ => "implementor::cpp::record_not_found"
  | ambiguous _ _ => "implementor::cpp::ambiguous_record"

/-- What the user can do about it. -/
def help : LookupError → String
  | notFound _ =>
    "only definitions with a body are considered; try the qualified name, e.g. `ns::Name`"
  | ambiguous _ _ => "use one of the qualified names"

end LookupError

/-- Puts a name into a list of names in increasing order, unless it is there. -/
def insertName (name : String) : List String → List String
  | [] => [name]
  | other :: rest =>
    if name = other then other :: rest
    else if name < other then name :: other :: rest
    else other :: insertName name rest

/-- The distinct names of a list in increasing order. -/
def distinctNames (names : List String) : List String :=
  names.foldr insertName []

namespace TranslationUnit

/-- The first function with the qualified name, or else the first with the name. -/
def findFunction? (u : TranslationUnit) (name : String) : Option Function :=
  let name := Text.dropStart "::" name
  (u.functions.find? (·.qualifiedName == name)).or (u.functions.find? (·.name == name))

/-- The first class with the qualified name, or else the only class whose qualified name ends in
the name. -/
def findRecord (u : TranslationUnit) (name : String) : Except LookupError Record :=
  let name := Text.dropStart "::" name
  match u.records.find? (·.qualifiedName == name) with
  | some record => .ok record
  | none =>
    let candidates := u.records.filter fun record =>
      Text.endsIn record.qualifiedName ("::" ++ name)
    match candidates, distinctNames (candidates.map (·.qualifiedName)) with
    | [], _ => .error (.notFound name)
    | record :: _, [_] => .ok record
    | _, names => .error (.ambiguous name names)

/-- Whether `base` is a direct or indirect base of `derived`. -/
def isDerivedFrom (u : TranslationUnit) (derived base : Record) : Bool :=
  !(u.baseGraph.visit (fun _ id => ((), id != base.id)) derived.resolvedBases ()).2

/-- The direct and indirect bases of a class, each once, in the order of a visit. -/
def basesOf (u : TranslationUnit) (record : Record) : List Record :=
  (u.baseGraph.reachedFrom record.resolvedBases).filterMap (u.records[·]?)

end TranslationUnit

end ClassEdit
