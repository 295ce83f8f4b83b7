import ClassEdit.Proofs.ClassNumbers
import ClassEdit.Proofs.MemberOrder

/-!
# Members that the language declares

A dynamic class has a copy assignment, a move assignment and a destructor even if its text declares
none of them. Which of these are added depends on the members that the text does declare: an
assignment or a constructor counts if it takes one reference to the class. A parameter is compared
by the last part of the name of its target, and it may be a pointer as well. So members that only
look like these suppress the implicit ones too.

## Main definitions

* `Method.TakesReferenceTo`: a member with one parameter, a reference to a class.
* `Method.TakesLookalike`: a member with one parameter that is taken for such a reference.
* `Method.SuppressesMove`, `Method.ResemblesSuppressor`: the members that leave a class without an
  implicit move assignment, by rights and by mistake.
* `Record.HasMember`: a class has a member that is implicit, or not.

## Main statements

* `takesClass?_eq_some_iff`: the parameters that are taken for references to a class.
* `Record.mem_implicitMethods_iff`: the implicit members, one by one.
* `Record.hasMember_copy_complete_iff`, `Record.hasMember_move_complete_iff`: the implicit members
  of a completed class, in terms of those that the text declares.
* `TranslationUnit.implicit_members_iff`: when the implicit members of a dynamic class are the ones
  that references to the class leave over.
-/

namespace ClassEdit

/-! ## The last part of a name -/

namespace Text

theorem splitFrom_of_notMem {c : Char} {pattern cs : List Char} (h : c ∉ cs) :
    splitFrom (c :: pattern) 0 cs = [cs] := by
  induction cs with
  | nil => rfl
  | cons d cs ih =>
    rw [List.mem_cons, not_or] at h
    rw [splitFrom, if_neg (by simp [List.isPrefixOf, h.1]), ih h.2]

theorem splitFrom_append_of_notMem {c : Char} {pattern cs : List Char} (h : c ∉ cs)
    (rest : List Char) :
    ∃ parts, splitFrom (c :: pattern) 0 (cs ++ c :: (pattern ++ rest)) = cs :: parts := by
  induction cs with
  | nil =>
    refine ⟨splitFrom (c :: pattern) pattern.length (pattern ++ rest), ?_⟩
    rw [List.nil_append, splitFrom, if_pos (List.isPrefixOf_iff_prefix.2 ⟨rest, by simp⟩)]
    rfl
  | cons d cs ih =>
    rw [List.mem_cons, not_or] at h
    obtain ⟨parts, hparts⟩ := ih h.2
    refine ⟨parts, ?_⟩
    rw [List.cons_append, splitFrom, if_neg (by simp [List.isPrefixOf, h.1]), hparts]

end Text

/-- The last part of a qualified name is the name. -/
theorem afterLast_qualify (scope : String) {name : String} (h : ':' ∉ name.toList) :
    Text.afterLast "::".toList (qualify scope name).toList = name.toList := by
  have hreverse : ':' ∉ name.toList.reverse := by simpa using h
  rw [Text.afterLast, Text.splitOn]
  change ((Text.splitFrom [':', ':'] 0 _).headD []).reverse = _
  rw [qualify]
  split
  · rw [Text.splitFrom_of_notMem hreverse]
    simp
  · obtain ⟨parts, hparts⟩ :=
      @Text.splitFrom_append_of_notMem ':' [':'] _ hreverse scope.toList.reverse
    have hlist : (scope ++ "::" ++ name).toList.reverse =
        name.toList.reverse ++ ':' :: ([':'] ++ scope.toList.reverse) := by simp
    rw [hlist, hparts]
    simp

/-! ## Parameters that refer to a class -/

namespace Method

/-- The member has one parameter, a reference to the class. -/
def TakesReferenceTo (m : Method) (r : Record) (kind : ValueKind) : Prop :=
  ∃ param cv targetCv name, m.params = [param] ∧
    param.type = .reference cv kind (.named targetCv name) ∧ name.qualifiedName = r.qualifiedName

/-- The member has one parameter that is taken for a reference to the class: a pointer to a class
of its name, or a reference to another class of its name. -/
def TakesLookalike (m : Method) (r : Record) (kind : ValueKind) : Prop :=
  ∃ param cv targetCv name, m.params = [param] ∧ name.unqualifiedName = r.name ∧
    (kind = .lvalue ∧ param.type = .pointer cv (.named targetCv name) ∨
      param.type = .reference cv kind (.named targetCv name) ∧
        name.qualifiedName ≠ r.qualifiedName)

/-- The member is an assignment operator. -/
def IsAssignment (m : Method) : Prop :=
  m.kind ≠ .destructor ∧ m.kind ≠ .constructor ∧ m.name = "operator="

/-- The member is an assignment that takes a reference to the class. -/
def IsAssignmentOf (m : Method) (r : Record) (kind : ValueKind) : Prop :=
  m.IsAssignment ∧ m.TakesReferenceTo r kind

/-- The member is a constructor that takes a reference to the class. -/
def IsConstructorOf (m : Method) (r : Record) (kind : ValueKind) : Prop :=
  m.kind = .constructor ∧ m.TakesReferenceTo r kind

/-- The member is an assignment that is taken for one of the class. -/
def ResemblesAssignmentOf (m : Method) (r : Record) (kind : ValueKind) : Prop :=
  m.IsAssignment ∧ m.TakesLookalike r kind

/-- The member is a constructor that is taken for one from the class. -/
def ResemblesConstructorOf (m : Method) (r : Record) (kind : ValueKind) : Prop :=
  m.kind = .constructor ∧ m.TakesLookalike r kind

/-- A class with the member has no implicit move assignment: the member is the destructor, or an
assignment or a constructor that takes a reference to the class. -/
def SuppressesMove (m : Method) (r : Record) : Prop :=
  m.kind = .destructor ∨ ∃ kind, m.IsAssignmentOf r kind ∨ m.IsConstructorOf r kind

/-- The member is an assignment or a constructor that is taken for one from a reference to the
class. -/
def ResemblesSuppressor (m : Method) (r : Record) : Prop :=
  ∃ kind, m.ResemblesAssignmentOf r kind ∨ m.ResemblesConstructorOf r kind

end Method

/-- A parameter counts if it is a reference to the class, or looks like one. -/
theorem takesClass?_eq_some_iff {r : Record}
    (hname : Text.afterLast "::".toList r.qualifiedName.toList = r.name.toList) (m : Method)
    (kind : ValueKind) : takesClass? r.name m.params = some (decide (kind = .rvalue)) ↔
      m.TakesReferenceTo r kind ∨ m.TakesLookalike r kind := by
  have hlast : ∀ name : TypeName, name.qualifiedName = r.qualifiedName →
      name.unqualifiedName = r.name := by
    intro name heq
    rw [TypeName.unqualifiedName, heq, hname, String.ofList_toList]
  constructor
  · intro h
    unfold takesClass? at h
    split at h
    case h_2 => cases h
    case h_1 param hparams =>
      split at h
      case h_2 => cases h
      case h_1 targetCv name htarget =>
        split at h
        case isFalse => cases h
        case isTrue hsame =>
          have hsame := eq_of_beq hsame
          cases htype : param.type with
          | pointer cv target =>
            rw [htype] at htarget h
            obtain rfl := Option.some.inj htarget
            cases kind with
            | lvalue => exact .inr ⟨param, cv, targetCv, name, hparams, hsame, .inl ⟨rfl, htype⟩⟩
            | rvalue => cases h
          | reference cv given target =>
            rw [htype] at htarget h
            obtain rfl := Option.some.inj htarget
            obtain rfl : given = kind := by cases given <;> cases kind <;> simp at h ⊢
            by_cases hqualified : name.qualifiedName = r.qualifiedName
            · exact .inl ⟨param, cv, targetCv, name, hparams, htype, hqualified⟩
            · exact .inr ⟨param, cv, targetCv, name, hparams, hsame, .inr ⟨htype, hqualified⟩⟩
          | builtin | named | template | array | function | spelled =>
            rw [htype] at htarget
            cases htarget
  · rintro (⟨param, cv, targetCv, name, hparams, htype, hqualified⟩ |
      ⟨param, cv, targetCv, name, hparams, hsame, ⟨rfl, htype⟩ | ⟨htype, -⟩⟩)
    · cases kind <;> simp [takesClass?, hparams, htype, CType.target?, hlast name hqualified]
    · simp [takesClass?, hparams, htype, CType.target?, hsame]
    · cases kind <;> simp [takesClass?, hparams, htype, CType.target?, hsame]

/-! ## What a class declares -/

namespace Record

/-- The class has a member of the kind, declared by the language or not. -/
def HasMember (r : Record) (isImplicit : Bool) (p : Method → Prop) : Prop :=
  ∃ m ∈ r.methods, m.isImplicit = isImplicit ∧ p m

variable {r : Record}

section Declared

variable (hname : Text.afterLast "::".toList r.qualifiedName.toList = r.name.toList)

include hname

theorem declaresAssignment_iff (kind : ValueKind) :
    r.declaresAssignment (decide (kind = .rvalue)) = true ↔
      ∃ m ∈ r.methods, m.IsAssignmentOf r kind ∨ m.ResemblesAssignmentOf r kind := by
  simp only [declaresAssignment, List.any_eq_true, Bool.and_eq_true, decide_eq_true_eq, beq_iff_eq,
    takesClass?_eq_some_iff hname, Method.IsAssignmentOf, Method.ResemblesAssignmentOf,
    Method.IsAssignment, ← and_or_left, and_assoc]

theorem declaresCopyConstructor_iff : r.declaresCopyConstructor = true ↔
    ∃ m ∈ r.methods, ∃ kind, m.IsConstructorOf r kind ∨ m.ResemblesConstructorOf r kind := by
  have hsome : ∀ m : Method, (takesClass? r.name m.params).isSome = true ↔
      ∃ kind, m.TakesReferenceTo r kind ∨ m.TakesLookalike r kind := by
    intro m
    simp only [← takesClass?_eq_some_iff hname]
    cases takesClass? r.name m.params with
    | none => simp
    | some isMove =>
      cases isMove with
      | true => exact iff_of_true rfl ⟨.rvalue, rfl⟩
      | false => exact iff_of_true rfl ⟨.lvalue, rfl⟩
  simp only [declaresCopyConstructor, List.any_eq_true, Bool.and_eq_true, decide_eq_true_eq, hsome,
    Method.IsConstructorOf, Method.ResemblesConstructorOf, ← and_or_left, exists_and_left]

theorem declaresSuppressor_iff :
    (r.declaresCopyConstructor || r.declaresAssignment false || r.declaresAssignment true ||
      r.declaresDestructor) = true ↔
      ∃ m ∈ r.methods, m.SuppressesMove r ∨ m.ResemblesSuppressor r := by
  have hcopy := declaresAssignment_iff hname .lvalue
  have hmove := declaresAssignment_iff hname .rvalue
  have hdestructor : r.declaresDestructor = true ↔ ∃ m ∈ r.methods, m.kind = .destructor := by
    simp [declaresDestructor]
  rw [Bool.or_eq_true, Bool.or_eq_true, Bool.or_eq_true, declaresCopyConstructor_iff hname,
    hdestructor]
  constructor
  · rintro (((⟨m, hm, kind, h | h⟩ | h) | h) | ⟨m, hm, h⟩)
    · exact ⟨m, hm, .inl (.inr ⟨kind, .inr h⟩)⟩
    · exact ⟨m, hm, .inr ⟨kind, .inr h⟩⟩
    · obtain ⟨m, hm, h⟩ := hcopy.1 h
      exact ⟨m, hm, h.imp (fun h => .inr ⟨_, .inl h⟩) (fun h => ⟨_, .inl h⟩)⟩
    · obtain ⟨m, hm, h⟩ := hmove.1 h
      exact ⟨m, hm, h.imp (fun h => .inr ⟨_, .inl h⟩) (fun h => ⟨_, .inl h⟩)⟩
    · exact ⟨m, hm, .inl (.inl h)⟩
  · have hassignment : ∀ {m : Method} {kind : ValueKind}, m ∈ r.methods →
        m.IsAssignmentOf r kind ∨ m.ResemblesAssignmentOf r kind →
        r.declaresAssignment false = true ∨ r.declaresAssignment true = true := by
      intro m kind hm h
      cases kind with
      | lvalue => exact .inl (hcopy.2 ⟨m, hm, h⟩)
      | rvalue => exact .inr (hmove.2 ⟨m, hm, h⟩)
    rintro ⟨m, hm, (h | ⟨kind, h | h⟩) | ⟨kind, h | h⟩⟩
    · exact .inr ⟨m, hm, h⟩
    · exact .inl (or_assoc.2 (.inr (hassignment hm (.inl h))))
    · exact .inl (.inl (.inl ⟨m, hm, kind, .inl h⟩))
    · exact .inl (or_assoc.2 (.inr (hassignment hm (.inr h))))
    · exact .inl (.inl (.inl ⟨m, hm, kind, .inr h⟩))

end Declared

/-! ## Implicit members -/

/-- The assignment from a reference to the class that the language declares. -/
def implicitAssignmentOf (r : Record) (kind : ValueKind) (cv : Cv) : Method :=
  r.implicitAssignment (.reference .plain kind (r.asType cv))

/-- The destructor that the language declares. -/
def implicitDestructor (r : Record) : Method :=
  r.implicitMethod ("~" ++ r.name) (.builtin .plain .void) [] .destructor

theorem mem_implicitMethods_iff {m : Method} : m ∈ r.implicitMethods ↔
    (m = r.implicitAssignmentOf .lvalue ⟨true, false⟩ ∧ r.declaresAssignment false = false) ∨
    (m = r.implicitAssignmentOf .rvalue .plain ∧
      (r.declaresCopyConstructor || r.declaresAssignment false || r.declaresAssignment true ||
        r.declaresDestructor) = false) ∨
    (m = r.implicitDestructor ∧ r.declaresDestructor = false) := by
  have hone : ∀ {present : Bool} {x : Method},
      m ∈ (if present then [] else [x]) ↔ m = x ∧ present = false := by
    intro present x
    cases present <;> simp
  unfold implicitMethods
  simp only [List.mem_append, hone, or_assoc]
  rfl

theorem isAssignmentOf_implicitAssignmentOf_iff {given kind : ValueKind} {cv : Cv} :
    (r.implicitAssignmentOf given cv).IsAssignmentOf r kind ↔ given = kind := by
  constructor
  · rintro ⟨-, param, _, _, _, hparams, htype, -⟩
    obtain rfl := List.singleton_inj.1 hparams
    cases htype
    rfl
  · rintro rfl
    exact ⟨⟨nofun, nofun, rfl⟩, _, _, _, _, rfl, rfl, rfl⟩

theorem not_isAssignmentOf_implicitDestructor (kind : ValueKind) :
    ¬ r.implicitDestructor.IsAssignmentOf r kind :=
  fun h => h.1.1 rfl

theorem exists_implicit_copy_iff :
    (∃ m ∈ r.implicitMethods, m.IsAssignmentOf r .lvalue) ↔
      r.declaresAssignment false = false := by
  simp [mem_implicitMethods_iff, or_and_right, exists_or, isAssignmentOf_implicitAssignmentOf_iff,
    not_isAssignmentOf_implicitDestructor]

theorem exists_implicit_move_iff :
    (∃ m ∈ r.implicitMethods, m.IsAssignmentOf r .rvalue) ↔
      (r.declaresCopyConstructor || r.declaresAssignment false || r.declaresAssignment true ||
        r.declaresDestructor) = false := by
  simp [mem_implicitMethods_iff, or_and_right, exists_or, isAssignmentOf_implicitAssignmentOf_iff,
    not_isAssignmentOf_implicitDestructor]

theorem exists_implicit_destructor_iff :
    (∃ m ∈ r.implicitMethods, m.kind = .destructor) ↔ r.declaresDestructor = false := by
  have hassignment : ∀ kind cv, (r.implicitAssignmentOf kind cv).kind = .ordinary :=
    fun _ _ => rfl
  have hdestructor : r.implicitDestructor.kind = .destructor := rfl
  simp [mem_implicitMethods_iff, or_and_right, exists_or, hassignment, hdestructor]

/-! ## Completed classes -/

section Complete

variable (hexplicit : ∀ m ∈ r.methods, m.isImplicit = false) {p : Method → Prop}

include hexplicit

theorem hasMember_complete_false_iff {isDynamic : Bool} :
    (r.complete isDynamic).HasMember false p ↔ ∃ m ∈ r.methods, p m := by
  constructor
  · rintro ⟨m, hm, himplicit, hp⟩
    obtain hm | hm := List.mem_append.1 hm
    · exact ⟨m, hm, hp⟩
    · split_ifs at hm
      · rw [isImplicit_of_mem_implicitMethods hm] at himplicit
        cases himplicit
      · cases hm
  · rintro ⟨m, hm, hp⟩
    exact ⟨m, List.mem_append_left _ hm, hexplicit m hm, hp⟩

theorem hasMember_complete_true_iff :
    (r.complete true).HasMember true p ↔ ∃ m ∈ r.implicitMethods, p m := by
  constructor
  · rintro ⟨m, hm, himplicit, hp⟩
    obtain hm | hm := List.mem_append.1 hm
    · rw [hexplicit m hm] at himplicit
      cases himplicit
    · exact ⟨m, hm, hp⟩
  · rintro ⟨m, hm, hp⟩
    exact ⟨m, List.mem_append_right _ hm, isImplicit_of_mem_implicitMethods hm, hp⟩

theorem hasMember_destructor_complete_iff :
    (r.complete true).HasMember true (·.kind = .destructor) ↔
      ¬ (r.complete true).HasMember false (·.kind = .destructor) := by
  rw [hasMember_complete_true_iff hexplicit, hasMember_complete_false_iff hexplicit,
    exists_implicit_destructor_iff, ← Bool.not_eq_true]
  simp [declaresDestructor]

variable (hname : Text.afterLast "::".toList r.qualifiedName.toList = r.name.toList)

include hname

theorem hasMember_copy_complete_iff :
    (r.complete true).HasMember true (·.IsAssignmentOf r .lvalue) ↔
      ¬ (r.complete true).HasMember false fun m =>
        m.IsAssignmentOf r .lvalue ∨ m.ResemblesAssignmentOf r .lvalue := by
  rw [hasMember_complete_true_iff hexplicit, hasMember_complete_false_iff hexplicit,
    exists_implicit_copy_iff, ← declaresAssignment_iff hname, Bool.not_eq_true]
  rfl

theorem hasMember_move_complete_iff :
    (r.complete true).HasMember true (·.IsAssignmentOf r .rvalue) ↔
      ¬ (r.complete true).HasMember false fun m =>
        m.SuppressesMove r ∨ m.ResemblesSuppressor r := by
  rw [hasMember_complete_true_iff hexplicit, hasMember_complete_false_iff hexplicit,
    exists_implicit_move_iff, ← declaresSuppressor_iff hname, Bool.not_eq_true]

end Complete

theorem hasMember_or_iff {isImplicit : Bool} {p q : Method → Prop} :
    (r.HasMember isImplicit fun m => p m ∨ q m) ↔
      r.HasMember isImplicit p ∨ r.HasMember isImplicit q := by
  simp only [HasMember, and_or_left, exists_or]

/-- A member that is there exactly if there is neither the one nor the other is there exactly if
there is not the one, provided there is the one or not the other. -/
theorem hasMember_iff_not_iff {p q s : Method → Prop}
    (h : r.HasMember true s ↔ ¬ r.HasMember false fun m => p m ∨ q m) :
    (r.HasMember true s ↔ ¬ r.HasMember false p) ↔ r.HasMember false p ∨ ¬ r.HasMember false q := by
  rw [h, hasMember_or_iff]
  tauto

end Record

namespace TranslationUnit

variable {document : Document} {tree : Tree} {hasErrors : Bool} {id : RecordId} {record : Record}

/-- A dynamic class has an implicit destructor exactly if its text declares none. It has an implicit
copy assignment exactly if its text declares no assignment from an lvalue reference to the class, if
and only if there is such an assignment or none that is taken for one. It has an implicit move
assignment exactly if its text declares no destructor and no assignment or constructor from a
reference to the class, if and only if there is such a member or none that is taken for one. -/
theorem implicit_members_iff
    (hrecord : (ofTree document tree hasErrors).records[id]? = some record)
    (hdynamic : record.isDynamic = true) (hcolon : ':' ∉ record.name.toList) :
    (record.HasMember true (·.kind = .destructor) ↔
      ¬ record.HasMember false (·.kind = .destructor)) ∧
    ((record.HasMember true (·.IsAssignmentOf record .lvalue) ↔
        ¬ record.HasMember false (·.IsAssignmentOf record .lvalue)) ↔
      record.HasMember false (·.IsAssignmentOf record .lvalue) ∨
        ¬ record.HasMember false (·.ResemblesAssignmentOf record .lvalue)) ∧
    ((record.HasMember true (·.IsAssignmentOf record .rvalue) ↔
        ¬ record.HasMember false (·.SuppressesMove record)) ↔
      record.HasMember false (·.SuppressesMove record) ∨
        ¬ record.HasMember false (·.ResemblesSuppressor record)) := by
  obtain ⟨definition, isDynamic, -, rfl⟩ := exists_definition hrecord
  obtain rfl : isDynamic = true := hdynamic
  have hname := afterLast_qualify definition.scope.name hcolon
  have hexplicit : ∀ m ∈ definition.readMethods (Source.ofTree document tree)
      (memberNames document tree) id, m.isImplicit = false := by
    intro m hm
    rw [RecordSource.readMethods_eq_filterMap] at hm
    obtain ⟨d, -, hread⟩ := List.mem_filterMap.1 hm
    exact (RecordSource.of_readDeclarator? hread).2
  -- What a member takes is asked of the name of the class only, which completing it keeps.
  exact ⟨Record.hasMember_destructor_complete_iff hexplicit,
    Record.hasMember_iff_not_iff (Record.hasMember_copy_complete_iff hexplicit hname),
    Record.hasMember_iff_not_iff (Record.hasMember_move_complete_iff hexplicit hname)⟩

/-! ## An assignment of a pointer -/

/-- A dynamic class with an assignment that takes a pointer to it. -/
def pointerAssignment : Document where
  text := "struct K \x7b virtual void f(); K &operator=(K *); \x7d;".toList

/-- The tree of the assignment in `pointerAssignment`. -/
def pointerAssignmentMember : Tree :=
  .node ⟨.fieldDeclaration, none, 29, 47, true, false⟩
    [.node ⟨.typeIdentifier, some .type, 29, 30, true, false⟩ [],
      .node ⟨.referenceDeclarator, some .declarator, 31, 46, true, false⟩
        [.terminal 31 32,
          .node ⟨.functionDeclarator, none, 32, 46, true, false⟩
            [.node ⟨.operatorName, some .declarator, 32, 41, true, false⟩
              [.terminal 32 40, .terminal 40 41],
              .node ⟨.other, some .parameters, 41, 46, true, false⟩
                [.terminal 41 42,
                  .node ⟨.parameterDeclaration, none, 42, 45, true, false⟩
                    [.node ⟨.typeIdentifier, some .type, 42, 43, true, false⟩ [],
                      .node ⟨.abstractPointerDeclarator, some .declarator, 44, 45, true, false⟩
                        [.terminal 44 45]],
                  .terminal 45 46]]],
      .terminal 46 47]

/-- The tree of `pointerAssignment`. -/
def pointerAssignmentTree : Tree :=
  .node ⟨.other, none, 0, 50, true, false⟩
    [.node ⟨.structSpecifier, none, 0, 49, true, false⟩
      [.terminal 0 6, .node ⟨.typeIdentifier, some .name, 7, 8, true, false⟩ [],
        .node ⟨.other, some .body, 9, 49, true, false⟩
          [.terminal 9 10,
            .node ⟨.fieldDeclaration, none, 11, 28, true, false⟩
              [.node ⟨.virtualWord, none, 11, 18, false, false⟩ [],
                .node ⟨.primitiveType, some .type, 19, 23, true, false⟩ [], letterDeclarator 24,
                .terminal 27 28],
            pointerAssignmentMember, .terminal 48 49]],
      .terminal 49 50]

/-- The class that a pointer leads to. -/
def pointedName? : CType → Option TypeName
  | .pointer _ (.named _ name) => some name
  | _ => none

theorem exists_of_pointedName? {t : CType} {name : TypeName} (h : pointedName? t = some name) :
    ∃ cv targetCv, t = .pointer cv (.named targetCv name) := by
  unfold pointedName? at h
  split at h
  · obtain rfl := Option.some.inj h
    exact ⟨_, _, rfl⟩
  · cases h

/-- The class declares no assignment from a reference, and has no implicit copy assignment. -/
theorem implicit_members_pointerAssignment :
    ∃ record, (ofTree pointerAssignment pointerAssignmentTree false).records[0]? = some record ∧
      record.isDynamic = true ∧
      record.methods.map (fun m => (m.name, m.isImplicit)) =
        [("f", false), ("operator=", false), ("~K", true)] ∧
      record.HasMember true (·.kind = .destructor) ∧
      ¬ record.HasMember false (·.IsAssignmentOf record .lvalue) ∧
      ¬ record.HasMember true (·.IsAssignmentOf record .lvalue) := by
  have hrun : ∃ record ∈ (ofTree pointerAssignment pointerAssignmentTree false).records[0]?,
      record.isDynamic = true ∧ record.name = "K" ∧
      record.methods.map (fun m => (m.name, m.isImplicit)) =
        [("f", false), ("operator=", false), ("~K", true)] ∧
      (∀ m ∈ record.methods, m.isImplicit = false → m.kind = .ordinary) ∧
      ∀ m ∈ record.methods, m.name = "operator=" →
        m.params.map (fun p => (pointedName? p.type).map (·.unqualifiedName)) = [some "K"] := by
    decide +kernel
  obtain ⟨record, hrecord, hdynamic, hname, hmethods, hordinary, hpointer⟩ := hrun
  obtain ⟨hdestructor, hcopy, -⟩ := implicit_members_iff hrecord hdynamic (hname ▸ by decide)
  have htakes : ∀ m ∈ record.methods, m.name = "operator=" → ∃ param cv targetCv name,
      m.params = [param] ∧ param.type = .pointer cv (.named targetCv name) ∧
        name.unqualifiedName = record.name := by
    intro m hm hoperator
    obtain ⟨param, _, hparams, htarget, hrest⟩ := List.map_eq_cons_iff.1 (hpointer m hm hoperator)
    obtain rfl := List.map_eq_nil_iff.1 hrest
    obtain ⟨name, htarget, hunqualified⟩ := Option.map_eq_some_iff.1 htarget
    obtain ⟨cv, targetCv, htype⟩ := exists_of_pointedName? htarget
    exact ⟨param, cv, targetCv, name, hparams, htype, hunqualified.trans hname.symm⟩
  have hnone : ¬ record.HasMember false (·.IsAssignmentOf record .lvalue) := by
    rintro ⟨m, hm, -, ⟨-, -, hoperator⟩, param, _, _, _, hparams, htype, -⟩
    obtain ⟨other, _, _, _, hother, hpointerType, -⟩ := htakes m hm hoperator
    obtain rfl := List.singleton_inj.1 (hparams.symm.trans hother)
    cases htype.symm.trans hpointerType
  have hresembles : record.HasMember false (·.ResemblesAssignmentOf record .lvalue) := by
    have hmem : ("operator=", false) ∈ record.methods.map (fun m => (m.name, m.isImplicit)) := by
      rw [hmethods]
      decide
    obtain ⟨m, hm, heq⟩ := List.mem_map.1 hmem
    obtain ⟨hoperator, hexplicit⟩ := Prod.mk.inj heq
    obtain ⟨param, cv, targetCv, name, hparams, htype, hsame⟩ := htakes m hm hoperator
    have hkind := hordinary m hm hexplicit
    exact ⟨m, hm, hexplicit, ⟨by rw [hkind]; decide, by rw [hkind]; decide, hoperator⟩,
      param, cv, targetCv, name, hparams, hsame, .inl ⟨rfl, htype⟩⟩
  refine ⟨record, hrecord, hdynamic, hmethods, hdestructor.2 ?_, hnone, fun hmember => ?_⟩
  · rintro ⟨m, hm, hexplicit, hkind⟩
    cases (hordinary m hm hexplicit).symm.trans hkind
  · have hdiffers := hcopy.not.2 (by simp [hnone, hresembles])
    exact hdiffers (iff_of_true hmember hnone)

end TranslationUnit

end ClassEdit
