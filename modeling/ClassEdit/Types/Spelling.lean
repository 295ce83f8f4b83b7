import ClassEdit.Types.Basic

/-!
# Spelling of types

A type is spelled around a declarator from the inside out: each layer adds its sigil or suffix to
the declarator, in parentheses where a suffix would bind tighter than a sigil, until the leaf is
written in front of it.

## Main definitions

* `Style`: whether names are spelled as written or from the global scope.
* `Style.spellScopes`: a qualified name as the style spells it.
* `CType.spellAround`: the type around a declarator.
* `CType.spell`: the type alone.
* `CType.declare`: a declaration of a name with the type.
-/

namespace ClassEdit

/-- The scope of what is declared in an unnamed namespace. -/
def unnamedNamespace : String := "(anonymous namespace)"

/-- How names are spelled. -/
inductive Style where
  /-- As they were written. -/
  | written
  /-- From the global scope, without the scopes that have no name. -/
  | qualified
deriving DecidableEq, Repr, Inhabited

namespace Style

/-- A qualified name without the scopes that the style leaves out. -/
def spellScopes (style : Style) (name : String) : String :=
  match style with
  | written => name
  | qualified => Text.replaced name (unnamedNamespace ++ "::") ""

/-- A type name as the style spells it. -/
def spellName (style : Style) (name : TypeName) : String :=
  match style with
  | written => name.written
  | qualified => style.spellScopes name.qualifiedName

end Style

/-- A leaf with its qualifiers in front. -/
def Cv.before (cv : Cv) (leaf : String) : String :=
  " ".intercalate (cv.words ++ [leaf])

/-- Puts a leaf in front of a declarator. Only a sigil after a sigil needs no space. -/
def joinDeclarator (leaf declarator : String) : String :=
  match declarator.toList with
  | [] => leaf
  | '[' :: _ | '(' :: _ => leaf ++ " " ++ declarator
  | _ :: _ =>
    if leaf.toList.getLast? = some '*' || leaf.toList.getLast? = some '&' then leaf ++ declarator
    else leaf ++ " " ++ declarator

/-- Puts a sigil in front of a declarator. A qualifier is kept apart from the sigil after it. -/
def joinSigil (sigil declarator : String) : String :=
  if sigil.toList.getLast?.any Char.isAlpha &&
      declarator.toList.head?.any (fun c => c = '*' || c = '&') then
    sigil ++ " " ++ declarator
  else sigil ++ declarator

/-- Adds a sigil to the declarator of a layer; in parentheses if the target has a suffix. -/
def CType.wrapSigil (target : CType) (sigil declarator : String) : String :=
  if target.decays then "(" ++ joinSigil sigil declarator ++ ")" else joinSigil sigil declarator

/-- A parenthesised list. -/
def spellParameters (params : List String) (isVariadic : Bool) : String :=
  "(" ++ ", ".intercalate (params ++ if isVariadic then ["..."] else []) ++ ")"

/-- The argument list of a template. -/
def spellArguments (arguments : List String) : String :=
  "<" ++ ", ".intercalate arguments ++ ">"

mutual

/-- The type around a declarator. -/
def CType.spellAround (style : Style) (t : CType) (declarator : String) : String :=
  match t with
  | .builtin cv type => joinDeclarator (cv.before type.name) declarator
  | .named cv name => joinDeclarator (cv.before (style.spellName name)) declarator
  | .template cv name arguments =>
    joinDeclarator
      (cv.before (style.spellName name ++
        spellArguments (TemplateArgument.spellAll style arguments)))
      declarator
  | .pointer cv target =>
    target.spellAround style
      (target.wrapSigil ("*" ++ " ".intercalate cv.words) declarator)
  | .reference _ kind target =>
    target.spellAround style (target.wrapSigil kind.sigil declarator)
  | .array _ element size =>
    element.spellAround style (declarator ++ "[" ++ size.getD "" ++ "]")
  | .function _ result params isVariadic =>
    result.spellAround style
      (declarator ++ spellParameters (CType.spellAll style params) isVariadic)
  | .spelled cv text => joinDeclarator (cv.before text) declarator

/-- Types alone. -/
def CType.spellAll (style : Style) : List CType → List String
  | [] => []
  | t :: ts => t.spellAround style "" :: CType.spellAll style ts

/-- A template argument. -/
def TemplateArgument.spell (style : Style) : TemplateArgument → String
  | .type t => t.spellAround style ""
  | .expression text => text

/-- Template arguments. -/
def TemplateArgument.spellAll (style : Style) : List TemplateArgument → List String
  | [] => []
  | a :: as => a.spell style :: TemplateArgument.spellAll style as

end

namespace CType

/-- The type alone. -/
def spell (style : Style) (t : CType) : String :=
  t.spellAround style ""

/-- Whether a declared name stands inside the spelling of the type and not after it. -/
def enclosesName : CType → Bool
  | array .. | function .. => true
  | pointer _ target | reference _ _ target => target.enclosesName
  | _ => false

/-- A declaration of `name` with the type; the type alone if there is no name. -/
def declare (style : Style) (t : CType) (name : String) : String :=
  if name.isEmpty then t.spell style
  else if t.enclosesName then t.spellAround style name
  else t.spell style ++ " " ++ name

end CType

end ClassEdit
