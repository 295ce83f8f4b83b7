import ClassEdit.Token.Source
import ClassEdit.Declaration.Basic
import ClassEdit.Types.Spelling

/-!
# Rendering of functions

A function is rendered on one line from fragments, one space apart: its attributes, its return
type, its name with the parameters and, for a member, its qualifiers and exception specification.
Attributes and exception specifications are taken from the text, everything else is spelled with
names from the global scope.

## Main definitions

* `RenderOptions`: what is left out.
* `Function.render`: a function that is no member.
* `Method.render`: a member function.
-/

namespace ClassEdit

/-- What is left out of rendered functions. -/
structure RenderOptions where
  /-- Leave out the attributes. -/
  ignoresAttributes : Bool := false
deriving DecidableEq, Repr

/-- The fragments that are not empty, one space apart. -/
def joinFragments (fragments : List String) : String :=
  " ".intercalate (fragments.filter fun fragment => !fragment.isEmpty)

namespace Function

/-- The attributes in double square brackets. -/
def renderAttributes (f : Function) (source : Source) : String :=
  " ".intercalate ((f.attributes.filter (·.form = .standard)).map fun attr =>
    "[[" ++ source.slice attr.range ++ "]]")

/-- The return type; empty if the text has none. -/
def renderReturnType (f : Function) (source : Source) : String :=
  if (Text.trim (source.slice f.returnRange).toList).isEmpty then ""
  else f.returnType.spell .qualified

/-- The parameters in parentheses. -/
def renderParameters (f : Function) : String :=
  spellParameters (f.params.map fun param => param.type.declare .qualified param.name)
    f.isVariadic

/-- The fragments of a function up to its parameters. -/
def fragments (f : Function) (source : Source) (options : RenderOptions) : List String :=
  [if options.ignoresAttributes then "" else f.renderAttributes source,
    f.renderReturnType source,
    Style.qualified.spellScopes f.qualifiedName ++ f.renderParameters]

/-- A function that is no member. -/
def render (f : Function) (source : Source) (options : RenderOptions) : String :=
  joinFragments (f.fragments source options)

end Function

namespace Method

/-- The fragments of a member function after its parameters. -/
def qualifierFragments (m : Method) (source : Source) : List String :=
  [if m.cv.isConst then "const" else "",
    (m.refQualifier.map ValueKind.sigil).getD "",
    source.slice m.exceptionRange]

/-- A member function. -/
def render (m : Method) (source : Source) (options : RenderOptions) : String :=
  joinFragments (m.toFunction.fragments source options ++ m.qualifierFragments source)

end Method

end ClassEdit
