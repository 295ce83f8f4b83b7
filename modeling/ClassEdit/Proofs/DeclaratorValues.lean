import ClassEdit.Proofs.MemberOrder

/-!
# Values of declarators

A declaration of a class can declare several members, and each of them can be given a value. The
value `0` makes a function pure. But a declaration is asked for its first value, whichever member
that belongs to, and all functions of the declaration are pure or none. So a function is pure by a
value of its own only if the first value of the declaration says the same.

## Main definitions

* `ownValue?`: the value of a declarator, which stands before the next comma.
* `Source.isZero`: the values that make a function pure.
* `AgreesWithOthers`: the first value of a declaration says the same as that of a declarator.

## Main statements

* `any_firstValue?_eq_iff`: when the first value of a declaration and that of a declarator say the
  same.
* `Context.parts_of_readFunction?`: what a function has from its declarator and its declaration.
* `TranslationUnit.isPure_by_ownValue_iff`: when a member function is pure by its own value.
-/

namespace ClassEdit

/-! ## Values -/

/-- The first value among some children of a declaration. -/
def firstValue? (row : List Tree) : Option Tree :=
  row.find? (Tree.hasField .defaultValue)

/-- The value of a declarator that the given children of the declaration follow: the one before the
next comma. -/
def ownValue? (after : List Tree) : Option Tree :=
  firstValue? (after.takeWhile (·.kind ≠ .comma))

/-- Whether a value is the number `0`. -/
def Source.isZero (source : Source) (value : Tree) : Bool :=
  value.kind = .numberLiteral && Text.trimmed (source.textOf value) == "0"

/-- Whether a declaration has its pure specifier as a clause of its own. -/
def Tree.hasPureClause (t : Tree) : Bool :=
  t.children.any (·.kind = .pureVirtualClause)

/-- The first value of a declaration says the same as that of a declarator of it, which has `before`
and `after` around it. -/
structure AgreesWithOthers (isZero : Tree → Bool) (before after : List Tree) : Prop where
  /-- If members before it have values then the first of these is like its own. -/
  earlier : ∀ value, firstValue? before = some value →
    isZero value = (ownValue? after).any isZero
  /-- If it has no value and no member before it has one, then the first one after it is not `0`. -/
  later : firstValue? before = none → ownValue? after = none →
    (firstValue? after).any isZero = false

section Rows

variable {before after : List Tree} {value : Tree}

theorem firstValue?_append (before after : List Tree) :
    firstValue? (before ++ after) = (firstValue? before).or (firstValue? after) :=
  List.find?_append

/-- The value of a declarator is the first one after it. -/
theorem firstValue?_of_ownValue? (h : ownValue? after = some value) :
    firstValue? after = some value := by
  rw [← List.takeWhile_append_dropWhile (p := (·.kind ≠ .comma)) (l := after), firstValue?_append]
  exact Option.or_eq_some_iff.2 (.inl h)

theorem firstValue?_around {declarator : Tree} (h : declarator.hasField .declarator = true)
    (before after : List Tree) : firstValue? (before ++ declarator :: after) =
      (firstValue? before).or (firstValue? after) := by
  have hne : declarator.hasField .defaultValue = false := by
    rw [Tree.hasField, beq_iff_eq] at h
    rw [Tree.hasField, h]
    rfl
  have hcons : firstValue? (declarator :: after) = firstValue? after := by
    rw [firstValue?, List.find?_cons, hne]
    rfl
  rw [firstValue?_append, hcons]

/-- A declarator is answered by the first value of its declaration as by its own if and only if the
values of other members agree with it. -/
theorem any_firstValue?_eq_iff (isZero : Tree → Bool) {declarator : Tree}
    (h : declarator.hasField .declarator = true) :
    (firstValue? (before ++ declarator :: after)).any isZero = (ownValue? after).any isZero ↔
      AgreesWithOthers isZero before after := by
  rw [firstValue?_around h]
  cases hbefore : firstValue? before with
  | some value =>
    rw [Option.some_or, Option.any_some]
    refine ⟨fun heq => ⟨fun other hother => ?_, fun hnone => ?_⟩, fun hagree => ?_⟩
    · obtain rfl := Option.some.inj (hbefore.symm.trans hother)
      exact heq
    · cases hbefore.symm.trans hnone
    · exact hagree.earlier value hbefore
  | none =>
    rw [Option.none_or]
    cases hown : ownValue? after with
    | some value =>
      rw [firstValue?_of_ownValue? hown]
      refine iff_of_true rfl ⟨fun other hother => ?_, fun _ hnone => ?_⟩
      · cases hbefore.symm.trans hother
      · cases hown.symm.trans hnone
    | none =>
      rw [Option.any_none]
      refine ⟨fun heq => ⟨fun other hother => ?_, fun _ _ => heq⟩,
        fun hagree => hagree.later hbefore hown⟩
      cases hbefore.symm.trans hother

end Rows

/-! ## Member functions of a declarator -/

theorem Context.isPure_eq (ctx : Context) (t : Tree) : ctx.isPure t =
    (t.hasPureClause ||
      (t.kind = .fieldDeclaration && (firstValue? t.children).any ctx.source.isZero)) :=
  rfl

/-- A function has its name and kind from the declarator, its pure specifier from the declaration,
and the place of its return type from both. -/
theorem Context.parts_of_readFunction? {ctx : Context} {t declarator : Tree} {qualifier : String}
    {signature : Signature} (h : ctx.readFunction? t declarator qualifier = some signature) :
    ∃ parts, FunctionDeclarator.ofTree? declarator = some parts ∧
      ctx.functionName parts.name = (signature.function.name, signature.kind) ∧
      signature.isPure = ctx.isPure t ∧
      signature.function.returnRange = (ctx.readReturn signature.kind t parts).2 := by
  obtain ⟨parts, hparts, h⟩ := Option.bind_eq_some_iff.1 h
  obtain rfl := Option.some.inj h
  exact ⟨parts, hparts, rfl, rfl, rfl⟩

/-- A member function is the function of its declarator, and a constructor if that has the name of
the class and no return type. -/
theorem signature_of_readMethod? {ctx : Context} {id : RecordId} {r : RecordSource}
    {access : Access} {t declarator : Tree} {method : Method}
    (h : readMethod? ctx id r access t declarator = some method) :
    ∃ signature, ctx.readFunction? t declarator r.qualifiedName = some signature ∧
      Text.occursIn "::".toList signature.function.name.toList = false ∧
      method.toFunction = signature.function ∧ method.isPure = signature.isPure ∧
      method.kind = if signature.kind = .ordinary && !signature.function.returnRange.isValid &&
        signature.function.name == r.name then .constructor else signature.kind := by
  obtain ⟨signature, hsignature, h⟩ := Option.bind_eq_some_iff.1 h
  simp only [Option.ite_none_left_eq_some, Option.some.injEq] at h
  obtain ⟨hplain, rfl⟩ := h
  exact ⟨signature, hsignature, Bool.eq_false_iff.2 hplain, rfl, rfl, rfl⟩

theorem isPure_of_readMethod? {ctx : Context} {id : RecordId} {r : RecordSource} {access : Access}
    {t declarator : Tree} {method : Method}
    (h : readMethod? ctx id r access t declarator = some method) :
    method.isPure = ctx.isPure t := by
  obtain ⟨signature, hsignature, -, -, hpure, -⟩ := signature_of_readMethod? h
  obtain ⟨parts, -, -, hdeclared, -⟩ := ctx.parts_of_readFunction? hsignature
  exact hpure.trans hdeclared

namespace RecordSource

variable {r : RecordSource} {source : Source} {names : Names} {id : RecordId} {d : BodyDeclarator}
  {method : Method}

theorem isPure_of_readDeclarator? (h : r.readDeclarator? source names id d = some method) :
    method.isPure = (d.declaration.hasPureClause || (d.declaration.kind = .fieldDeclaration &&
      (firstValue? d.declaration.children).any source.isZero)) := by
  rw [isPure_of_readMethod? h, Context.isPure_eq]

end RecordSource

theorem BodyDeclarator.hasField_declarator {body : Tree} {d : BodyDeclarator}
    (h : d ∈ body.bodyDeclarators) : d.declarator.hasField .declarator = true := by
  obtain ⟨-, hmem⟩ := Tree.mem_bodyDeclarators_iff.1 h
  rw [Tree.memberDeclarators] at hmem
  cases hrole : d.declaration.bodyRole with
  | declaration =>
    rw [hrole] at hmem
    exact (List.mem_filter.1 hmem).2
  | label | block | other =>
    rw [hrole] at hmem
    cases hmem

namespace TranslationUnit

variable {document : Document} {tree : Tree} {hasErrors : Bool} {id : RecordId} {record : Record}
  {definition : RecordSource} {d : BodyDeclarator} {method : Method}

theorem mem_methods_of_readDeclarator?
    (hrecord : (ofTree document tree hasErrors).records[id]? = some record)
    (hdefinition : (definitions document tree)[id]? = some definition)
    (hd : d ∈ definition.body.bodyDeclarators)
    (hmethod : definition.readDeclarator? (Source.ofTree document tree) (memberNames document tree)
      id d = some method) : method ∈ record.methods := by
  obtain ⟨read, isDynamic, hread, rfl⟩ := exists_definition hrecord
  obtain rfl := Option.some.inj (hdefinition.symm.trans hread)
  refine List.mem_append_left _ ?_
  change method ∈ definition.readMethods _ _ _
  rw [RecordSource.readMethods_eq_filterMap]
  exact List.mem_filterMap.2 ⟨d, hd, hmethod⟩

/-- A member function is pure exactly if its declaration has a pure clause or the value of its own
declarator is `0`, if and only if there is such a clause or the values of the other members of the
declaration agree with its own. Values count in declarations of fields only. -/
theorem isPure_by_ownValue_iff
    (hrecord : (ofTree document tree hasErrors).records[id]? = some record)
    (hdefinition : (definitions document tree)[id]? = some definition)
    (hd : d ∈ definition.body.bodyDeclarators) {before after : List Tree}
    (hsplit : d.declaration.children = before ++ d.declarator :: after)
    (hmethod : definition.readDeclarator? (Source.ofTree document tree) (memberNames document tree)
      id d = some method) :
    let isZero := (Source.ofTree document tree).isZero
    method ∈ record.methods ∧
    ((method.isPure = true ↔
        d.declaration.hasPureClause = true ∨ (ownValue? after).any isZero = true) ↔
      d.declaration.hasPureClause = true ∨
        (d.declaration.kind = .fieldDeclaration ∧ AgreesWithOthers isZero before after) ∨
        (d.declaration.kind ≠ .fieldDeclaration ∧ (ownValue? after).any isZero = false)) := by
  intro isZero
  refine ⟨mem_methods_of_readDeclarator? hrecord hdefinition hd hmethod, ?_⟩
  rw [RecordSource.isPure_of_readDeclarator? hmethod, hsplit,
    ← any_firstValue?_eq_iff isZero (BodyDeclarator.hasField_declarator hd), Bool.eq_iff_iff]
  cases d.declaration.hasPureClause with
  | true => simp
  | false =>
    by_cases hkind : d.declaration.kind = .fieldDeclaration
    · simp [hkind, isZero]
    · simp [hkind]

/-! ## A function without a value of its own -/

/-- A class with two functions in one declaration, the first of which is pure. -/
def sharedZero : Document where
  text := "struct A \x7b virtual void f() = 0, g(); \x7d;".toList

/-- The declaration in `sharedZero`. -/
def sharedZeroDeclaration : Tree :=
  .node ⟨.fieldDeclaration, none, 11, 37, true, false⟩
    [.node ⟨.virtualWord, none, 11, 18, false, false⟩ [],
      .node ⟨.primitiveType, some .type, 19, 23, true, false⟩ [], letterDeclarator 24,
      .terminal 28 29, .node ⟨.numberLiteral, some .defaultValue, 30, 31, true, false⟩ [],
      .node ⟨.comma, none, 31, 32, false, false⟩ [], letterDeclarator 33, .terminal 36 37]

/-- The class in `sharedZero`. -/
def sharedZeroDefinition : RecordSource where
  tree := .node ⟨.structSpecifier, none, 0, 39, true, false⟩
    [.terminal 0 6, .node ⟨.typeIdentifier, some .name, 7, 8, true, false⟩ [],
      .node ⟨.other, some .body, 9, 39, true, false⟩
        [.terminal 9 10, sharedZeroDeclaration, .terminal 38 39]]
  body := .node ⟨.other, some .body, 9, 39, true, false⟩
    [.terminal 9 10, sharedZeroDeclaration, .terminal 38 39]
  scope := []
  name := "A"

/-- The tree of `sharedZero`. -/
def sharedZeroTree : Tree :=
  .node ⟨.other, none, 0, 40, true, false⟩ [sharedZeroDefinition.tree, .terminal 39 40]

/-- The second function has no value, and is pure by that of the first one. -/
theorem isPure_by_ownValue_sharedZero :
    ∃ record method,
      (ofTree sharedZero sharedZeroTree false).records[0]? = some record ∧
      method ∈ record.methods ∧ method.name = "g" ∧ method.isPure = true ∧
      sharedZeroDeclaration.hasPureClause = false ∧ ownValue? [.terminal 36 37] = none ∧
      ¬ (method.isPure = true ↔ sharedZeroDeclaration.hasPureClause = true ∨
        (ownValue? [.terminal 36 37]).any (Source.ofTree sharedZero sharedZeroTree).isZero =
          true) := by
  have hrecord : (ofTree sharedZero sharedZeroTree false).records[0]?.isSome = true := by
    decide +kernel
  obtain ⟨record, hrecord⟩ := Option.isSome_iff_exists.1 hrecord
  have hdefinition : (definitions sharedZero sharedZeroTree)[0]? = some sharedZeroDefinition := rfl
  have hd : ⟨[.terminal 9 10], sharedZeroDeclaration, letterDeclarator 33⟩ ∈
      sharedZeroDefinition.body.bodyDeclarators :=
    Tree.mem_bodyDeclarators_iff.2 ⟨⟨[.terminal 38 39], rfl⟩, .tail _ (.head _)⟩
  have hread : (sharedZeroDefinition.readDeclarator? (Source.ofTree sharedZero sharedZeroTree)
      (memberNames sharedZero sharedZeroTree) 0
      ⟨[.terminal 9 10], sharedZeroDeclaration, letterDeclarator 33⟩).map
        (fun method => (method.name, method.isPure)) = some ("g", true) := by
    decide +kernel
  obtain ⟨method, hmethod, heq⟩ := Option.map_eq_some_iff.1 hread
  obtain ⟨hname, hpure⟩ := Prod.mk.inj heq
  have hsplit : sharedZeroDeclaration.children = sharedZeroDeclaration.children.take 6 ++
      letterDeclarator 33 :: [.terminal 36 37] := rfl
  obtain ⟨hmem, hiff⟩ := isPure_by_ownValue_iff hrecord hdefinition hd hsplit hmethod
  refine ⟨record, method, hrecord, hmem, hname, hpure, rfl, rfl, hiff.not.2 ?_⟩
  rintro (hclause | ⟨-, hagree⟩ | ⟨hkind, -⟩)
  · cases hclause
  · -- The value before it is `0`, and it has none.
    exact absurd (hagree.earlier _ rfl) (by decide +kernel)
  · exact hkind rfl

end TranslationUnit

end ClassEdit
