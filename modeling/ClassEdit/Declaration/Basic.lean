import ClassEdit.Text.Location
import ClassEdit.Types.Basic

/-!
# Declarations

What is kept of the declarations of a translation unit: its classes with their bases and member
functions, and the functions of its namespaces, each with the places of the text that matter for
writing it again or adding to it.

## Main definitions

* `Function`: a function as declared.
* `Method`: a member function.
* `BaseSpecifier`: an entry of the base clause of a class.
* `Record`: the definition of a class or struct.
-/

namespace ClassEdit

/-- A class definition is known by its position among those of the translation unit. -/
abbrev RecordId := Nat

/-- Who may use a member or a base. -/
inductive Access where
  | pub
  | priv
  | prot
deriving DecidableEq, Repr, Inhabited

namespace Access

/-- The access that a keyword stands for. -/
def ofWord? (word : String) : Option Access :=
  match word with
  | "public" => some pub
  | "private" => some priv
  | "protected" => some prot
  | _ => none

/-- The keyword. -/
def word : Access → String
  | pub => "public"
  | priv => "private"
  | prot => "protected"

end Access

/-- The keyword that a definition starts with. -/
inductive ClassKey where
  | cls
  | struct
deriving DecidableEq, Repr, Inhabited

/-- The access of what stands before any label, and of a base without one. -/
def ClassKey.defaultAccess : ClassKey → Access
  | .cls => .priv
  | .struct => .pub

/-- The ways to write an attribute. -/
inductive AttributeForm where
  /-- Between double square brackets. -/
  | standard
  /-- After `__attribute__`. -/
  | gnu
  /-- After `__declspec`. -/
  | declspec
  /-- A word such as `final` at the end of a declaration. -/
  | keyword
deriving DecidableEq, Repr, Inhabited

/-- An attribute of a declaration, with the place of its text inside the brackets. -/
structure Attribute where
  name : String
  form : AttributeForm
  range : Range
deriving DecidableEq, Repr

/-- A parameter of a function; one without a name has the empty name. -/
structure Parameter where
  name : String
  type : CType
  range : Range

/-- A function as declared. -/
structure Function where
  name : String
  qualifiedName : String
  returnType : CType
  /-- The place of the return type, which constructors, destructors and conversions lack. -/
  returnRange : Range
  params : List Parameter
  /-- Whether the parameters end in `...`. -/
  isVariadic : Bool
  exceptionRange : Range
  attributes : List Attribute
  /-- The offset of the first token. -/
  first : Nat
  /-- The offset of the last token before a terminating `;`. -/
  last : Nat

/-- The kinds of member functions. -/
inductive MethodKind where
  | ordinary
  | constructor
  | destructor
  | conversion
deriving DecidableEq, Repr, Inhabited

/-- A member function. -/
structure Method extends Function where
  parent : RecordId
  kind : MethodKind
  access : Access
  isVirtual : Bool
  /-- Whether it has no definition in its class. -/
  isPure : Bool
  isStatic : Bool
  cv : Cv
  refQualifier : Option ValueKind
  /-- Whether it is declared by the language and not in the text. -/
  isImplicit : Bool

/-- An entry of a base clause, with the class it names if that is defined in the unit. -/
structure BaseSpecifier where
  written : String
  access : Access
  isVirtual : Bool
  range : Range
  record : Option RecordId
deriving DecidableEq, Repr

/-- The definition of a class or struct. -/
structure Record where
  id : RecordId
  name : String
  qualifiedName : String
  key : ClassKey
  /-- The offset of the class-key. -/
  start : Nat
  /-- The offset of the brace that closes the body. -/
  close : Nat
  bases : List BaseSpecifier
  methods : List Method
  /-- Whether objects of the class carry their type at run time. -/
  isDynamic : Bool

namespace Record

/-- The bases that are defined in the unit. -/
def resolvedBases (r : Record) : List RecordId :=
  r.bases.filterMap (·.record)

/-- The pure member functions in order of declaration. -/
def pureMethods (r : Record) : List Method :=
  r.methods.filter (·.isPure)

end Record

/-- A name with the scope it is declared in. -/
def qualify (scope name : String) : String :=
  if scope.isEmpty then name else scope ++ "::" ++ name

end ClassEdit
