import ClassEdit.Text.Search

/-!
# C++ types

A type is a leaf (a builtin type, a name, a template with its arguments, or a spelling that is not
looked into) under pointers, references, arrays and functions. Every layer carries the qualifiers
written on it.

## Main definitions

* `Cv`: the `const` and `volatile` qualifiers of a layer.
* `TypeName`: a written name and, if it is declared, its qualified name.
* `CType`: the types.
* `CType.decayed`: the type of a parameter declared with a type.
-/

namespace ClassEdit

/-- The qualifiers of a layer of a type. -/
structure Cv where
  isConst : Bool := false
  isVolatile : Bool := false
deriving DecidableEq, Repr, Inhabited

namespace Cv

/-- No qualifiers. -/
def plain : Cv := {}

/-- The qualifiers of either. -/
def union (a b : Cv) : Cv :=
  ⟨a.isConst || b.isConst, a.isVolatile || b.isVolatile⟩

/-- The qualifier that a keyword stands for. -/
def ofWord (word : String) : Cv :=
  ⟨word == "const", word == "volatile"⟩

/-- The keywords of the qualifiers. -/
def words (cv : Cv) : List String :=
  (if cv.isConst then ["const"] else []) ++ (if cv.isVolatile then ["volatile"] else [])

end Cv

/-- Whether a reference, or a function called on an object, takes lvalues or rvalues. -/
inductive ValueKind where
  | lvalue
  | rvalue
deriving DecidableEq, Repr, Inhabited

namespace ValueKind

/-- How the kind is written. -/
def sigil : ValueKind → String
  | lvalue => "&"
  | rvalue => "&&"

end ValueKind

/-- The types that the language has names for. Integers have a flag that tells whether they are
signed; plain `char` is neither signed nor unsigned. -/
inductive Builtin where
  | void
  | bool
  | char (signed : Option Bool)
  | short (signed : Bool)
  | int (signed : Bool)
  | long (signed : Bool)
  | longLong (signed : Bool)
  | float
  | double
  | longDouble
  /-- A builtin type with a name of its own, such as `wchar_t`. -/
  | other (name : String)
deriving DecidableEq, Repr, Inhabited

namespace Builtin

/-- The builtin type with a one-word name. -/
def ofWord (word : String) : Builtin :=
  match word with
  | "void" => void
  | "bool" => bool
  | "char" => char none
  | "int" => int true
  | "float" => float
  | "double" => double
  | name => other name

/-- The name of the type. -/
def name : Builtin → String
  | void => "void"
  | bool => "bool"
  | char none => "char"
  | char (some true) => "signed char"
  | char (some false) => "unsigned char"
  | short signed => if signed then "short" else "unsigned short"
  | int signed => if signed then "int" else "unsigned int"
  | long signed => if signed then "long" else "unsigned long"
  | longLong signed => if signed then "long long" else "unsigned long long"
  | float => "float"
  | double => "double"
  | longDouble => "long double"
  | other name => name

end Builtin

/-- A type name as written, with the name it has from the global scope if it is declared. -/
structure TypeName where
  written : String
  qualified : Option String
deriving DecidableEq, Repr, Inhabited

namespace TypeName

/-- The name from the global scope; a name that is not declared is taken as written. -/
def qualifiedName (n : TypeName) : String :=
  n.qualified.getD n.written

/-- The last component of the name: what follows the last `::`. -/
def unqualifiedName (n : TypeName) : String :=
  String.ofList (Text.afterLast "::".toList n.qualifiedName.toList)

end TypeName

mutual

/-- The types. -/
inductive CType where
  | builtin (cv : Cv) (type : Builtin)
  | named (cv : Cv) (name : TypeName)
  | template (cv : Cv) (name : TypeName) (arguments : List TemplateArgument)
  | pointer (cv : Cv) (target : CType)
  | reference (cv : Cv) (kind : ValueKind) (target : CType)
  | array (cv : Cv) (element : CType) (size : Option String)
  | function (cv : Cv) (result : CType) (params : List CType) (isVariadic : Bool)
  /-- A type known by its spelling only, such as `auto`. -/
  | spelled (cv : Cv) (text : String)

/-- The arguments of a template: types, or expressions known by their spelling. -/
inductive TemplateArgument where
  | type (type : CType)
  | expression (text : String)

end

instance : Inhabited CType := ⟨.builtin .plain .void⟩

namespace CType

/-- The qualifiers of the outermost layer. -/
def cv : CType → Cv
  | builtin cv _ | named cv _ | template cv _ _ | pointer cv _ | reference cv _ _ | array cv _ _
  | function cv _ _ _ | spelled cv _ => cv

/-- The type with more qualifiers on its outermost layer. -/
def qualify (extra : Cv) : CType → CType
  | builtin cv type => builtin (cv.union extra) type
  | named cv name => named (cv.union extra) name
  | template cv name arguments => template (cv.union extra) name arguments
  | pointer cv target => pointer (cv.union extra) target
  | reference cv kind target => reference (cv.union extra) kind target
  | array cv element size => array (cv.union extra) element size
  | function cv result params isVariadic => function (cv.union extra) result params isVariadic
  | spelled cv text => spelled (cv.union extra) text

/-- A pointer to the type. -/
def pointerTo (t : CType) : CType :=
  pointer .plain t

/-- What a pointer or reference leads to. -/
def target? : CType → Option CType
  | pointer _ target | reference _ _ target => some target
  | _ => none

/-- Whether values of the type turn into pointers when they are passed. -/
def decays : CType → Bool
  | array .. | function .. => true
  | _ => false

/-- The type of a parameter declared with the type: an array turns into a pointer to its elements,
which takes over the qualifiers of the array, and a function into a pointer to it. -/
def decayed : CType → CType
  | array cv element _ => pointer cv element
  | function _ result params isVariadic => pointerTo (function .plain result params isVariadic)
  | t => t

end CType

end ClassEdit
