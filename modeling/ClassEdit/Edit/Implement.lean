import ClassEdit.Edit.PublicPlace

/-!
# Implementing an interface

A class implements an interface once it derives from it and declares an override for each of its
pure member functions.

## Main definitions

* `Implementation`: the edit that makes a class implement an interface.
* `Implementation.apply`: the text after the edit.
* `TranslationUnit.implement`: the edit for two classes of a unit.
-/

namespace ClassEdit

/-- The edit that makes a class implement an interface. -/
structure Implementation where
  /-- The overrides in order. -/
  declarations : List String
  /-- Adds the interface to the bases, unless it is one already. -/
  baseSpecifier : Option Insertion
  /-- Declares the overrides, unless there are none. -/
  overrides : Option Insertion
  /-- Whether the overrides bring an access label with them. -/
  needsLabel : Bool
deriving DecidableEq, Repr

namespace Implementation

/-- The insertions of the edit. -/
def insertions (i : Implementation) : List Insertion :=
  i.baseSpecifier.toList ++ i.overrides.toList

/-- The text after the edit. -/
def apply (i : Implementation) (content : List Char) : Except EditError (List Char) :=
  applyInsertions content i.insertions

end Implementation

/-- Whether a line starts at the offset. -/
def isLineStart (content : List Char) (offset : Nat) : Bool :=
  match Text.splitAt? content offset with
  | some (before, _) => before.isEmpty || before.getLast? = some '\n'
  | none => false

/-- The text of a section of declarations, one on each line. -/
def sectionText (declarations : List String) (needsLabel atLineStart : Bool) : String :=
  (if atLineStart then "" else "\n") ++ (if needsLabel then "public:\n" else "") ++
    String.join (declarations.map (· ++ "\n"))

/-- The insertion that declares the overrides. -/
def insertOverrides (content : List Char) (declarations : List String) (place : PublicPlace) :
    Insertion :=
  ⟨place.offset, sectionText declarations place.needsLabel (isLineStart content place.offset)⟩

namespace TranslationUnit

/-- The insertion that makes a class derive from another, unless it does already. -/
def deriveFrom? (u : TranslationUnit) (derived base : Record) :
    Except EditError (Option Insertion) :=
  if u.isDerivedFrom derived base then .ok none
  else (addBase u.source.text derived base u.source).map some

/-- The edit that makes `derived` implement `interface`. -/
def implement (u : TranslationUnit) (derived interface : Record) (options : RenderOptions) :
    Except EditError Implementation := do
  if derived.id = interface.id then .error (.selfImplementation derived.qualifiedName)
  else
    let baseSpecifier ← u.deriveFrom? derived interface
    let declarations := u.overrides interface options
    if declarations.isEmpty then
      return ⟨declarations, baseSpecifier, none, false⟩
    else
      let place ← findPublicPlace u.source.text derived u.source
      return ⟨declarations, baseSpecifier,
        some (insertOverrides u.source.text declarations place), place.needsLabel⟩

end TranslationUnit

end ClassEdit
