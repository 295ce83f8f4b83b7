import ClassEdit.Render.Declaration
import ClassEdit.Text.Letter
import ClassEdit.Unit.Lookup

/-!
# Override declarations

A class implements an interface by declaring an override of every pure member function of the
interface and of its bases. The declarations go into another class, so names are written without
the interface in front.

## Main definitions

* `stripScope`: a text without a scope in front of its names.
* `Record.overrides`: the overrides of the pure members of one class.
* `TranslationUnit.overrides`: the overrides that an interface asks for.
-/

namespace ClassEdit

/-- Whether a name goes on after the character. -/
def continuesName (c : Char) : Bool :=
  Text.isNameChar c || c == ':'

/-- Deletes the occurrences of `scope` that start a name. `before` is the character before the rest
of the text; the first `inside` characters of the rest belong to an occurrence, which is deleted
unless `kept`. -/
def stripScopeFrom (scope : List Char) (before : Option Char) (inside : Nat) (kept : Bool) :
    List Char → List Char
  | [] => []
  | c :: cs =>
    match inside with
    | inside + 1 =>
      let rest := stripScopeFrom scope (some c) inside kept cs
      if kept then c :: rest else rest
    | 0 =>
      if scope.isPrefixOf (c :: cs) then
        let kept := before.any continuesName
        let rest := stripScopeFrom scope (some c) (scope.length - 1) kept cs
        if kept then c :: rest else rest
      else c :: stripScopeFrom scope (some c) 0 true cs

/-- The text without the occurrences of `scope` that start a name. -/
def stripScope (scope cs : List Char) : List Char :=
  stripScopeFrom scope none 0 true cs

namespace Record

/-- The qualified name of the class as the text can spell it. -/
def spelledName (r : Record) : String :=
  Style.qualified.spellScopes r.qualifiedName

/-- The override of a pure member function of the class. -/
def renderOverride (r : Record) (source : Source) (options : RenderOptions) (method : Method) :
    String :=
  String.ofList
    (stripScope (r.spelledName ++ "::").toList (method.render source options).toList) ++
    " override;"

/-- The overrides of the pure member functions of the class. -/
def overrides (r : Record) (source : Source) (options : RenderOptions) : List String :=
  r.pureMethods.map (r.renderOverride source options)

end Record

/-- The overrides that an interface asks for: those of its bases and then its own. -/
def TranslationUnit.overrides (u : TranslationUnit) (record : Record) (options : RenderOptions) :
    List String :=
  (u.basesOf record ++ [record]).flatMap fun r => r.overrides u.source options

end ClassEdit
