import ClassEdit.Declaration.BaseGraph

/-!
# Dynamic classes and their implicit members

A class is dynamic if it declares a virtual function, has a virtual base or derives from a dynamic
class. The language declares the assignment operators and the destructor of a dynamic class where
the text does not.

## Main definitions

* `dynamicFlags`: which classes are dynamic.
* `Record.implicitMethods`: the members that the language declares.
* `Record.complete`: a class with its implicit members.
-/

namespace ClassEdit

/-! ## Dynamic classes -/

/-- What is known of every class: nothing, or whether it is dynamic. -/
abbrev DynamicState := List (Option Bool)

/-- Whether some element satisfies a test that passes a state along; the elements after it are not
tested. There is no answer if a test gives none. -/
def anyWithState {α σ : Type} (test : α → σ → Option (Bool × σ)) :
    List α → σ → Option (Bool × σ)
  | [], state => some (false, state)
  | a :: as, state =>
    match test a state with
    | none => none
    | some (true, state) => some (true, state)
    | some (false, state) => anyWithState test as state

/-- Whether the class has a virtual function of its own. -/
def Record.hasVirtualMethod (r : Record) : Bool :=
  r.methods.any fun method => method.isVirtual || method.isPure

/-- Looks at a class: whether it is dynamic, and what is known then. -/
abbrev DynamicSearch := RecordId → DynamicState → Option (Bool × DynamicState)

/-- Whether a base makes its class dynamic, where `search` looks at another class. -/
def testBase (search : DynamicSearch) (base : BaseSpecifier) (state : DynamicState) :
    Option (Bool × DynamicState) :=
  if base.isVirtual then some (true, state)
  else match base.record with
    | some id => search id state
    | none => some (false, state)

/-- Looks into a class of which nothing is known. -/
def lookInto (search : DynamicSearch) (record : Record) (state : DynamicState) :
    Option (Bool × DynamicState) :=
  if record.hasVirtualMethod then some (true, state)
  else anyWithState (testBase search) record.bases state

/-- Looks at a class, where `search` looks at another class. A class that is being looked at counts
as not dynamic, which ends the search in a cycle of bases. -/
def lookAt (records : List Record) (search : DynamicSearch) : DynamicSearch := fun id state =>
  match state.getD id none, records[id]? with
  | some known, _ => some (known, state)
  | none, none => some (false, state)
  | none, some record =>
    (lookInto search record (state.set id (some false))).map fun (isDynamic, state) =>
      (isDynamic, state.set id (some isDynamic))

/-- Whether a class is dynamic. The search gives no answer if it would look at more than `depth`
classes, one for another. -/
def isDynamicWithin (records : List Record) : Nat → DynamicSearch
  | 0 => fun _ _ => none
  | depth + 1 => lookAt records (isDynamicWithin records depth)

/-- Which of some classes are dynamic, each in turn. -/
def dynamicFlagsFrom (records : List Record) : List RecordId → DynamicState → List Bool
  | [], _ => []
  | id :: ids, state =>
    let (isDynamic, state) :=
      (isDynamicWithin records (records.length + 1) id state).getD (false, state)
    isDynamic :: dynamicFlagsFrom records ids state

/-- Which of the classes of a unit are dynamic. -/
def dynamicFlags (records : List Record) : List Bool :=
  dynamicFlagsFrom records (List.range records.length) (records.map fun _ => none)

/-! ## Implicit members -/

/-- Whether the parameters are one pointer or reference to a class of the name, and then whether it
is an rvalue reference. -/
def takesClass? (name : String) (params : List Parameter) : Option Bool :=
  match params with
  | [param] =>
    match param.type.target? with
    | some (.named _ target) =>
      if target.unqualifiedName == name then
        some (param.type matches .reference _ .rvalue _)
      else none
    | _ => none
  | _ => none

namespace Record

/-- The class as a type. -/
def asType (r : Record) (cv : Cv) : CType :=
  .named cv ⟨r.name, some r.qualifiedName⟩

/-- A member that the language declares, placed at the start of the class. -/
def implicitMethod (r : Record) (name : String) (returnType : CType) (params : List CType)
    (kind : MethodKind) : Method where
  name := name
  qualifiedName := qualify r.qualifiedName name
  returnType := returnType
  returnRange := .nowhere
  params := params.map fun type => ⟨"", type, .nowhere⟩
  isVariadic := false
  exceptionRange := .nowhere
  attributes := []
  first := r.start
  last := r.start
  parent := r.id
  kind := kind
  access := .pub
  isVirtual := false
  isPure := false
  isStatic := false
  cv := .plain
  refQualifier := none
  isImplicit := true

/-- Whether the class declares an assignment of a pointer or reference to itself; `isMove` asks for
an rvalue reference. -/
def declaresAssignment (r : Record) (isMove : Bool) : Bool :=
  r.methods.any fun method =>
    method.kind ≠ .destructor && method.kind ≠ .constructor && method.name == "operator=" &&
      takesClass? r.name method.params == some isMove

/-- Whether the class declares a constructor from a pointer or reference to itself. -/
def declaresCopyConstructor (r : Record) : Bool :=
  r.methods.any fun method =>
    method.kind = .constructor && (takesClass? r.name method.params).isSome

/-- Whether the class declares its destructor. -/
def declaresDestructor (r : Record) : Bool :=
  r.methods.any (·.kind = .destructor)

/-- The assignment of an argument of the given type. -/
def implicitAssignment (r : Record) (param : CType) : Method :=
  r.implicitMethod "operator=" (.reference .plain .lvalue (r.asType .plain)) [param] .ordinary

/-- The assignment operators and the destructor that the language declares for a dynamic class. -/
def implicitMethods (r : Record) : List Method :=
  let copy := r.implicitAssignment (.reference .plain .lvalue (r.asType ⟨true, false⟩))
  let move := r.implicitAssignment (.reference .plain .rvalue (r.asType .plain))
  let destructor := r.implicitMethod ("~" ++ r.name) (.builtin .plain .void) [] .destructor
  let suppressesMove := r.declaresCopyConstructor || r.declaresAssignment false ||
    r.declaresAssignment true || r.declaresDestructor
  (if r.declaresAssignment false then [] else [copy]) ++
    (if suppressesMove then [] else [move]) ++
    (if r.declaresDestructor then [] else [destructor])

/-- The class, now known to be dynamic or not, with its implicit members. -/
def complete (r : Record) (isDynamic : Bool) : Record :=
  { r with
    isDynamic
    methods := r.methods ++ if isDynamic then r.implicitMethods else [] }

end Record

end ClassEdit
