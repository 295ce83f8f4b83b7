import ClassEdit.Proofs.DeclaratorValues
import ClassEdit.Proofs.OverrideList
import ClassEdit.Proofs.SignatureRendering

/-!
# Overrides of constructors and destructors

An interface asks for an override of every pure member function. Whether the function can be a
member of another class at all is not asked: a pure destructor is overridden like any other
function, by a declaration with the name it has in the interface. So the overrides are ordinary
functions and conversions if and only if no class of the interface declares a constructor or
destructor with a pure specifier.

## Main definitions

* `Source.destructorName`: the name of a destructor without its blanks.
* `BodyDeclarator.hasPureSpecifier`: the declaration has a pure specifier.
* `BodyDeclarator.IsDestructor`, `RecordSource.IsConstructor`: what a declarator declares.
* `IsPureDeclarator`: a declarator with a pure specifier in the body of a class.

## Main statements

* `kind_of_readMethod?`: when a declarator declares a destructor or a constructor.
* `TranslationUnit.exists_declarator_of_isPure`: a pure member function is declared in the text.
* `TranslationUnit.pureRefs_ordinary_iff`: what kinds of members are overridden.
* `TranslationUnit.toList_renderOverride_of_isDestructor`: the override of a destructor.
* `TranslationUnit.overrides_ordinary_iff`: when no override declares a constructor or destructor.
-/

namespace ClassEdit

open Relation (ReflTransGen)

/-! ## The first character of a spelling -/

namespace Text

theorem head?_replaced {s pattern replacement : String} {c : Char}
    (hs : s.toList.head? = some c) (hpattern : pattern.toList.head?.any (· != c) = true) :
    (replaced s pattern replacement).toList.head? = some c := by
  obtain ⟨cs, hcs⟩ := List.head?_eq_some_iff.1 hs
  obtain ⟨p, hp, hne⟩ := (Option.any_eq_true _ _).1 hpattern
  obtain ⟨ps, hps⟩ := List.head?_eq_some_iff.1 hp
  have hstart : pattern.toList.isPrefixOf (c :: cs) = false := by
    rw [hps, List.isPrefixOf_cons_cons, beq_eq_false_iff_ne.2 (bne_iff_ne.1 hne), Bool.false_and]
  rw [replaced, String.toList_ofList, replaceAll, hcs, replaceFrom, hstart]
  rfl

theorem exists_words_cons {c : Char} (hc : isBlank c = false) (cs : List Char) :
    ∃ word rest, words (c :: cs) = (c :: word) :: rest := by
  rw [words, parts, if_neg (by rw [hc]; exact Bool.false_ne_true)]
  split
  · exact ⟨_, _, rfl⟩
  · exact ⟨_, _, rfl⟩

end Text

theorem head?_singleSpaced {text : String} {c : Char} (htext : text.toList.head? = some c)
    (hc : Text.isBlank c = false) : (singleSpaced text).toList.head? = some c := by
  obtain ⟨cs, hcs⟩ := List.head?_eq_some_iff.1 htext
  obtain ⟨word, rest, hwords⟩ := Text.exists_words_cons hc cs
  rw [singleSpaced, hcs, hwords, List.map_cons, String.toList_intercalate]
  cases rest <;> simp [List.intercalate]

/-- The name of a destructor, which is taken without its blanks. -/
def Source.destructorName (source : Source) (name : Tree) : String :=
  Text.replaced (normalSpelling (source.textOf name)) " " ""

theorem Source.head?_destructorName {source : Source} {name : Tree}
    (h : (source.textOf name).toList.head? = some '~') :
    (source.destructorName name).toList.head? = some '~' := by
  have hspaced := head?_singleSpaced h (by decide)
  rw [destructorName, normalSpelling]
  simp only [List.foldl_cons, List.foldl_nil]
  iterate 6 refine Text.head?_replaced ?_ (by decide)
  exact Text.head?_replaced hspaced (by decide)

/-! ## What a declarator declares -/

/-- The declaration has a pure specifier, be it a clause or the first value in it. -/
def BodyDeclarator.hasPureSpecifier (d : BodyDeclarator) (source : Source) : Bool :=
  d.declaration.hasPureClause || (d.declaration.kind = .fieldDeclaration &&
    (firstValue? d.declaration.children).any source.isZero)

/-- The declarator declares a destructor of the class: a qualified one is of another class. -/
structure BodyDeclarator.IsDestructor (d : BodyDeclarator) (source : Source) (name : Tree) :
    Prop where
  named : (FunctionDeclarator.ofTree? d.declarator).map (·.name) = some name
  kind : name.kind = .destructorName
  unqualified : Text.occursIn "::".toList (source.destructorName name).toList = false

/-- The declarator declares a constructor of the class: a function with the name of the class, but
without a type. -/
structure RecordSource.IsConstructor (r : RecordSource) (ctx : Context) (d : BodyDeclarator)
    (name : Tree) : Prop where
  named : (FunctionDeclarator.ofTree? d.declarator).map (·.name) = some name
  ordinary : ctx.functionName name = (r.name, .ordinary)
  untyped : d.declaration.child? .type = none
  unqualified : Text.occursIn "::".toList r.name.toList = false

/-- The declarator declares a destructor or a constructor, which another class cannot declare. -/
def RecordSource.DeclaresSpecial (r : RecordSource) (ctx : Context) (d : BodyDeclarator) : Prop :=
  ∃ name, d.IsDestructor ctx.source name ∨ r.IsConstructor ctx d name

namespace Context

variable {ctx : Context} {name : Tree}

theorem functionName_of_destructorName (h : name.kind = .destructorName) :
    ctx.functionName name = (ctx.source.destructorName name, .destructor) := by
  rw [functionName, h]
  rfl

theorem functionName_destructor_iff :
    (ctx.functionName name).2 = .destructor ↔ name.kind = .destructorName := by
  rw [functionName]
  split <;> simp_all

theorem functionName_ne_constructor : (ctx.functionName name).2 ≠ .constructor := by
  rw [functionName]
  split <;> simp

/-- Only a declaration without a type has no place of a returned type, conversions apart. -/
theorem isValid_readReturn {kind : MethodKind} {t : Tree} {parts : FunctionDeclarator}
    (hkind : kind ≠ .conversion) :
    (ctx.readReturn kind t parts).2.isValid = (t.child? .type).isSome := by
  simp only [readReturn]
  split
  · exact absurd rfl hkind
  next htype => rw [htype]; rfl
  next htype _ => rw [htype]; rfl
  next htype _ => rw [htype]; rfl

theorem readReturn_of_untyped {kind : MethodKind} {t : Tree} {parts : FunctionDeclarator}
    (h : t.child? .type = none) : (ctx.readReturn kind t parts).2 = .nowhere := by
  cases kind <;> simp only [readReturn, h]

end Context

section Methods

variable {ctx : Context} {id : RecordId} {r : RecordSource} {access : Access}
  {t declarator name : Tree} {method : Method}

theorem kind_of_readMethod? (h : readMethod? ctx id r access t declarator = some method) :
    ∃ name, (FunctionDeclarator.ofTree? declarator).map (·.name) = some name ∧
      method.name = (ctx.functionName name).1 ∧
      Text.occursIn "::".toList method.name.toList = false ∧
      (method.kind = .destructor ↔ name.kind = .destructorName) ∧
      (method.kind = .constructor ↔
        ctx.functionName name = (r.name, .ordinary) ∧ t.child? .type = none) := by
  obtain ⟨signature, hsignature, hplain, hfunction, -, hkind⟩ := signature_of_readMethod? h
  obtain ⟨parts, hparts, hname, -, hreturn⟩ := ctx.parts_of_readFunction? hsignature
  have hdeclared : signature.kind = (ctx.functionName parts.name).2 := by rw [hname]
  have hne : signature.kind ≠ .constructor := hdeclared ▸ ctx.functionName_ne_constructor
  refine ⟨parts.name, by rw [hparts, Option.map_some], by rw [hfunction, hname],
    by rw [hfunction, hplain], ?_⟩
  rw [hkind, ← ctx.functionName_destructor_iff, ← hdeclared, hname, Prod.mk.injEq]
  cases hordinary : signature.kind with
  | ordinary =>
    have hvalid : signature.function.returnRange.isValid = (t.child? .type).isSome := by
      rw [hreturn, ctx.isValid_readReturn (by rw [hordinary]; decide)]
    rw [hvalid]
    cases htype : t.child? .type with
    | some specifier => simp
    | none => by_cases hsame : signature.function.name = r.name <;> simp [hsame]
  | constructor => exact absurd hordinary hne
  | destructor => simp
  | conversion => simp

theorem returnRange_of_readMethod? (h : readMethod? ctx id r access t declarator = some method)
    (huntyped : t.child? .type = none) : method.returnRange = .nowhere := by
  obtain ⟨signature, hsignature, -, hfunction, -⟩ := signature_of_readMethod? h
  obtain ⟨parts, -, -, -, hreturn⟩ := ctx.parts_of_readFunction? hsignature
  rw [hfunction, hreturn, ctx.readReturn_of_untyped huntyped]

theorem exists_readMethod?
    (hname : (FunctionDeclarator.ofTree? declarator).map (·.name) = some name)
    (hplain : Text.occursIn "::".toList (ctx.functionName name).1.toList = false) :
    ∃ method, readMethod? ctx id r access t declarator = some method := by
  obtain ⟨parts, hparts, rfl⟩ := Option.map_eq_some_iff.1 hname
  obtain ⟨signature, hsignature⟩ : ∃ signature,
      ctx.readFunction? t declarator r.qualifiedName = some signature :=
    ⟨_, Option.bind_eq_some_iff.2 ⟨parts, hparts, rfl⟩⟩
  obtain ⟨other, hother, hspelled, -⟩ := ctx.parts_of_readFunction? hsignature
  obtain rfl := Option.some.inj (hparts.symm.trans hother)
  rw [hspelled] at hplain
  rw [readMethod?, hsignature, Option.bind_eq_bind, Option.bind_some,
    if_neg (Bool.eq_false_iff.1 hplain)]
  exact ⟨_, rfl⟩

end Methods

namespace RecordSource

variable {r : RecordSource} {source : Source} {names : Names} {id : RecordId} {d : BodyDeclarator}
  {method : Method} {name : Tree}

/-- The context in which the members of a class are read. -/
def memberContext (r : RecordSource) (source : Source) (names : Names) : Context :=
  ⟨source, names, r.name :: r.scope⟩

theorem kind_eq_destructor_iff (h : r.readDeclarator? source names id d = some method) :
    method.kind = .destructor ↔ ∃ name, d.IsDestructor source name := by
  obtain ⟨name, hname, hspelled, hplain, hdestructor, -⟩ := kind_of_readMethod? h
  rw [hdestructor]
  constructor
  · intro hkind
    rw [hspelled, Context.functionName_of_destructorName hkind] at hplain
    exact ⟨name, hname, hkind, hplain⟩
  · rintro ⟨other, hother⟩
    rw [Option.some.inj (hname.symm.trans hother.named)]
    exact hother.kind

theorem kind_eq_constructor_iff (h : r.readDeclarator? source names id d = some method) :
    method.kind = .constructor ↔
      ∃ name, r.IsConstructor (r.memberContext source names) d name := by
  obtain ⟨name, hname, hspelled, hplain, -, hconstructor⟩ := kind_of_readMethod? h
  rw [hconstructor]
  constructor
  · rintro ⟨hordinary, huntyped⟩
    rw [hspelled, hordinary] at hplain
    exact ⟨name, hname, hordinary, huntyped, hplain⟩
  · rintro ⟨other, hother⟩
    rw [Option.some.inj (hname.symm.trans hother.named)]
    exact ⟨hother.ordinary, hother.untyped⟩

theorem ordinary_or_conversion_iff (h : r.readDeclarator? source names id d = some method) :
    method.kind = .ordinary ∨ method.kind = .conversion ↔
      ¬ r.DeclaresSpecial (r.memberContext source names) d := by
  have hkinds : (method.kind = .ordinary ∨ method.kind = .conversion) ↔
      ¬ (method.kind = .destructor ∨ method.kind = .constructor) := by
    cases method.kind <;> decide
  rw [hkinds, kind_eq_destructor_iff h, kind_eq_constructor_iff h, ← exists_or]
  rfl

theorem DeclaresSpecial.exists_readDeclarator?
    (h : r.DeclaresSpecial (r.memberContext source names) d) (id : RecordId) :
    ∃ method, r.readDeclarator? source names id d = some method := by
  obtain ⟨name, h | h⟩ := h
  · refine exists_readMethod? h.named ?_
    rw [Context.functionName_of_destructorName h.kind]
    exact h.unqualified
  · refine exists_readMethod? h.named ?_
    rw [memberContext] at h
    rw [h.ordinary]
    exact h.unqualified

end RecordSource

/-! ## The overridden members -/

/-- A declarator with a pure specifier in the body of a class. -/
structure IsPureDeclarator (document : Document) (tree : Tree) (id : RecordId)
    (definition : RecordSource) (d : BodyDeclarator) : Prop where
  definition_eq : (definitions document tree)[id]? = some definition
  mem : d ∈ definition.body.bodyDeclarators
  pure : d.hasPureSpecifier (Source.ofTree document tree) = true

namespace TranslationUnit

variable {document : Document} {tree : Tree} {hasErrors : Bool} {id : RecordId} {record : Record}
  {definition : RecordSource} {d : BodyDeclarator} {method : Method}

/-- The members that the language declares are not pure, so a pure one is read from the text. -/
theorem exists_declarator_of_isPure
    (hrecord : (ofTree document tree hasErrors).records[id]? = some record) :
    ∀ method ∈ record.methods, method.isPure = true →
    ∃ definition d, IsPureDeclarator document tree id definition d ∧
      definition.readDeclarator? (Source.ofTree document tree) (memberNames document tree) id d =
        some method := by
  obtain ⟨definition, isDynamic, hdefinition, rfl⟩ := exists_definition hrecord
  refine Record.forall_mem_complete ?_ ?_
  · intro method hmethod hpure
    change method ∈ definition.readMethods _ _ _ at hmethod
    rw [RecordSource.readMethods_eq_filterMap] at hmethod
    obtain ⟨d, hd, hread⟩ := List.mem_filterMap.1 hmethod
    rw [RecordSource.isPure_of_readDeclarator? hread] at hpure
    exact ⟨definition, d, ⟨hdefinition, hd, hpure⟩, hread⟩
  · intro name returnType params kind _ hpure
    cases hpure

/-- A declarator that declares a member in a class declares it pure if it has a pure specifier. -/
theorem exists_pureRef_of_readDeclarator? (hasErrors : Bool) {ids : List RecordId} (hid : id ∈ ids)
    (hd : IsPureDeclarator document tree id definition d)
    (hread : definition.readDeclarator? (Source.ofTree document tree) (memberNames document tree)
      id d = some method) :
    ∃ ref ∈ (ofTree document tree hasErrors).pureRefs ids, ∃ owner,
      (ofTree document tree hasErrors).member? ref = some (owner, method) := by
  have hlt : id < (ofTree document tree hasErrors).records.length := by
    rw [length_records_ofTree]
    exact (List.getElem?_eq_some_iff.1 hd.definition_eq).1
  have hrecord := List.getElem?_eq_getElem hlt
  have hmem := mem_methods_of_readDeclarator? hrecord hd.definition_eq hd.mem hread
  obtain ⟨index, hindex⟩ := List.mem_iff_getElem?.1 hmem
  have hmember : (ofTree document tree hasErrors).member? ⟨id, index⟩ = some (_, method) :=
    member?_eq_some_iff.2 ⟨hrecord, hindex⟩
  refine ⟨⟨id, index⟩, mem_pureRefs_iff.2 ⟨hid, _, _, hmember, ?_⟩, _, hmember⟩
  rw [RecordSource.isPure_of_readDeclarator? hread]
  exact hd.pure

/-- The overridden members of some classes are ordinary functions and conversions if and only if no
pure declarator of these classes declares another kind of member. -/
theorem pureRefs_ordinary_iff {ids : List RecordId} :
    (∀ ref ∈ (ofTree document tree hasErrors).pureRefs ids, ∀ owner method,
      (ofTree document tree hasErrors).member? ref = some (owner, method) →
        method.kind = .ordinary ∨ method.kind = .conversion) ↔
    ∀ id ∈ ids, ∀ definition d, IsPureDeclarator document tree id definition d →
      ¬ definition.DeclaresSpecial (definition.memberContext (Source.ofTree document tree)
        (memberNames document tree)) d := by
  constructor
  · intro h id hid definition d hd hspecial
    obtain ⟨method, hread⟩ := hspecial.exists_readDeclarator? id
    obtain ⟨ref, href, owner, hmember⟩ :=
      exists_pureRef_of_readDeclarator? hasErrors hid hd hread
    have hkind := h ref href owner method hmember
    exact (RecordSource.ordinary_or_conversion_iff hread).1 hkind hspecial
  · intro h ref href owner method hmember
    obtain ⟨hid, _, _, hsame, hpure⟩ := mem_pureRefs_iff.1 href
    obtain ⟨rfl, rfl⟩ := Prod.mk.inj (Option.some.inj (hmember.symm.trans hsame))
    obtain ⟨hrecord, hindex⟩ := member?_eq_some_iff.1 hmember
    obtain ⟨definition, d, hd, hread⟩ :=
      exists_declarator_of_isPure hrecord method (List.mem_of_getElem? hindex) hpure
    exact (RecordSource.ordinary_or_conversion_iff hread).2 (h ref.record hid definition d hd)

/-- The override of a member: its attributes, its return type and its signature, each without the
scope of the class. -/
theorem toList_renderOverride_of_mem
    (hrecord : (ofTree document tree hasErrors).records[id]? = some record)
    (hword : IsWord record.spelledName) (hcolon : ':' ∉ record.name.toList)
    (hmem : method ∈ record.methods) (source : Source) (options : RenderOptions) :
    (record.renderOverride source options method).toList =
      stripScope record.scopeText (method.front source options) ++
        (stripScope record.scopeText (leading (method.renderReturnType source)) ++
          ((method.shown source).strip record.scopeText).text) ++ " override;".toList := by
  obtain ⟨hqualified, hplain⟩ := name_of_mem_methods hrecord hcolon method hmem
  refine Record.toList_renderOverride (Record.isScopeText_scopeText hword) ?_ hplain
  apply Method.toList_render
  rw [hqualified, spellScopes_qualify hword hplain]
  rfl

variable {start : RecordId} {owner : Record} {name : Tree}

/-- The override of a destructor without a type has nothing but attributes in front of its name. -/
theorem toList_renderOverride_of_isDestructor {source : Source} {names : Names}
    (hrecord : (ofTree document tree hasErrors).records[id]? = some owner)
    (hword : IsWord owner.spelledName) (hcolon : ':' ∉ owner.name.toList)
    (hmem : method ∈ owner.methods)
    (hread : definition.readDeclarator? source names id d = some method)
    (hdestructor : d.IsDestructor source name) (huntyped : d.declaration.child? .type = none)
    (options : RenderOptions) :
    ∃ rest, (owner.renderOverride source options method).toList =
      stripScope owner.scopeText (method.front source options) ++
        ((source.destructorName name).toList ++ '(' :: rest) := by
  obtain ⟨other, hother, hspelled, -⟩ := kind_of_readMethod? hread
  obtain rfl := Option.some.inj (hdestructor.named.symm.trans hother)
  rw [Context.functionName_of_destructorName hdestructor.kind] at hspelled
  have hreturn : leading (method.renderReturnType source) = [] := by
    rw [Function.renderReturnType, returnRange_of_readMethod? hread huntyped]
    rfl
  have hnone : stripScope owner.scopeText [] = [] := rfl
  have hname : ((method.shown source).strip owner.scopeText).name =
      (source.destructorName name).toList := congrArg String.toList hspelled
  rw [toList_renderOverride_of_mem hrecord hword hcolon hmem, hreturn, hnone, List.nil_append,
    ShownSignature.text, hname, List.append_assoc, List.append_assoc, List.cons_append]
  exact ⟨_, rfl⟩

/-- The classes of an interface are those that it reaches over bases. -/
theorem mem_classes_iff
    (hstart : (ofTree document tree hasErrors).records[start]? = some record) :
    id ∈ (ofTree document tree hasErrors).baseGraph.reachedFrom record.resolvedBases ++ [start] ↔
      ReflTransGen (ofTree document tree hasErrors).baseGraph.HasBase start id := by
  rw [List.mem_append, mem_reachedFrom_iff isClosed_baseGraph hstart, List.mem_singleton,
    Relation.reflTransGen_iff_eq_or_transGen, or_comm]

theorem basesOf_append_self {u : TranslationUnit} (hstart : u.records[start]? = some record) :
    u.basesOf record ++ [record] =
      (u.baseGraph.reachedFrom record.resolvedBases ++ [start]).filterMap (u.records[·]?) := by
  simp [basesOf, hstart]

/-- A pure member of a class of an interface is overridden. -/
theorem renderOverride_mem_overrides {options : RenderOptions}
    (hstart : (ofTree document tree hasErrors).records[start]? = some record)
    (hreach : ReflTransGen (ofTree document tree hasErrors).baseGraph.HasBase start id)
    (howner : (ofTree document tree hasErrors).records[id]? = some owner)
    (hmem : method ∈ owner.methods) (hpure : method.isPure = true) :
    owner.renderOverride (Source.ofTree document tree) options method ∈
      (ofTree document tree hasErrors).overrides record options := by
  rw [overrides, basesOf_append_self hstart]
  refine List.mem_flatMap.2 ⟨owner, ?_, List.mem_map_of_mem (List.mem_filter.2 ⟨hmem, hpure⟩)⟩
  exact List.mem_filterMap.2 ⟨id, (mem_classes_iff hstart).2 hreach, howner⟩

/-- The overrides of an interface are those of the pure members of its classes. All of these are
ordinary functions and conversions if and only if no class of the interface declares a destructor or
a constructor with a pure specifier. A destructor with one is overridden by a declaration that has
its name, so the declaration starts with `~` if attributes are left out. -/
theorem overrides_ordinary_iff (options : RenderOptions)
    (hstart : (ofTree document tree hasErrors).records[start]? = some record) :
    let u := ofTree document tree hasErrors
    let refs := u.pureRefs (u.baseGraph.reachedFrom record.resolvedBases ++ [start])
    (u.overrides record options).map some = refs.map (u.renderRef? options) ∧
    ((∀ ref ∈ refs, ∀ owner method, u.member? ref = some (owner, method) →
        method.kind = .ordinary ∨ method.kind = .conversion) ↔
      ∀ id definition d, ReflTransGen u.baseGraph.HasBase start id →
        IsPureDeclarator document tree id definition d → ¬ definition.DeclaresSpecial
          (definition.memberContext u.source (memberNames document tree)) d) ∧
    ∀ id definition d name owner, ReflTransGen u.baseGraph.HasBase start id →
      IsPureDeclarator document tree id definition d → d.IsDestructor u.source name →
      (u.source.textOf name).toList.head? = some '~' → d.declaration.child? .type = none →
      u.records[id]? = some owner → IsWord owner.spelledName → ':' ∉ owner.name.toList →
      ∃ text ∈ u.overrides record options, ∃ front rest,
        text.toList = front ++ ((u.source.destructorName name).toList ++ '(' :: rest) ∧
        (u.source.destructorName name).toList.head? = some '~' ∧
        (options.ignoresAttributes = true → front = []) := by
  intro u refs
  refine ⟨?_, ?_, ?_⟩
  · rw [overrides, basesOf_append_self hstart]
    exact map_some_overrides _
  · rw [pureRefs_ordinary_iff]
    refine ⟨fun h id definition d hreach hd => ?_, fun h id hid definition d hd => ?_⟩
    · exact h id ((mem_classes_iff hstart).2 hreach) definition d hd
    · exact h id definition d ((mem_classes_iff hstart).1 hid) hd
  · intro id definition d name owner hreach hd hdestructor htilde huntyped howner hword hcolon
    obtain ⟨method, hread⟩ := RecordSource.DeclaresSpecial.exists_readDeclarator?
      (r := definition) ⟨name, .inl hdestructor⟩ id
    have hmem := mem_methods_of_readDeclarator? howner hd.definition_eq hd.mem hread
    have hpure : method.isPure = true := by
      rw [RecordSource.isPure_of_readDeclarator? hread]
      exact hd.pure
    obtain ⟨rest, htext⟩ := toList_renderOverride_of_isDestructor howner hword hcolon hmem hread
      hdestructor huntyped options
    refine ⟨_, renderOverride_mem_overrides hstart hreach howner hmem hpure, _, rest, htext,
      Source.head?_destructorName htilde, fun hignores => ?_⟩
    rw [Method.front, hignores]
    rfl

/-- A class with a pure destructor, and a class with that base. -/
def pureDestructor : Document where
  text := "struct S \x7b virtual ~S() = 0; \x7d;\nstruct T : S \x7b\x7d;\n".toList

/-- The name of the destructor in `pureDestructor`. -/
def pureDestructorName : Tree :=
  .node ⟨.destructorName, some .declarator, 19, 21, true, false⟩
    [.terminal 19 20, .node ⟨.identifier, none, 20, 21, true, false⟩ []]

/-- The declarator of the destructor in `pureDestructor`. -/
def pureDestructorDeclarator : Tree :=
  .node ⟨.functionDeclarator, some .declarator, 19, 23, true, false⟩
    [pureDestructorName, .node ⟨.other, some .parameters, 21, 23, true, false⟩
      [.terminal 21 22, .terminal 22 23]]

/-- The declaration of the destructor in `pureDestructor`. -/
def pureDestructorDeclaration : Tree :=
  .node ⟨.functionDefinition, none, 11, 28, true, false⟩
    [.node ⟨.virtualWord, none, 11, 18, false, false⟩ [], pureDestructorDeclarator,
      .node ⟨.pureVirtualClause, none, 24, 28, true, false⟩ [.terminal 24 25, .terminal 27 28]]

/-- The first class in `pureDestructor`. -/
def pureDestructorClass : RecordSource where
  tree := .node ⟨.structSpecifier, none, 0, 30, true, false⟩
    [.terminal 0 6, .node ⟨.typeIdentifier, some .name, 7, 8, true, false⟩ [],
      .node ⟨.other, some .body, 9, 30, true, false⟩
        [.terminal 9 10, pureDestructorDeclaration, .terminal 29 30]]
  body := .node ⟨.other, some .body, 9, 30, true, false⟩
    [.terminal 9 10, pureDestructorDeclaration, .terminal 29 30]
  scope := []
  name := "S"

/-- The tree of `pureDestructor`. -/
def pureDestructorTree : Tree :=
  .node ⟨.other, none, 0, 49, true, false⟩
    [pureDestructorClass.tree, .terminal 30 31, middleTree 32, .terminal 47 48]

theorem isPureDeclarator_pureDestructor :
    IsPureDeclarator pureDestructor pureDestructorTree 0 pureDestructorClass
      ⟨[.terminal 9 10], pureDestructorDeclaration, pureDestructorDeclarator⟩ where
  definition_eq := rfl
  mem := Tree.mem_bodyDeclarators_iff.2 ⟨⟨[.terminal 29 30], rfl⟩, .head _⟩
  pure := rfl

theorem isDestructor_pureDestructor :
    BodyDeclarator.IsDestructor ⟨[.terminal 9 10], pureDestructorDeclaration,
      pureDestructorDeclarator⟩ (Source.ofTree pureDestructor pureDestructorTree)
      pureDestructorName where
  named := rfl
  kind := rfl
  unqualified := by decide +kernel

/-- The class without members of its own is asked to declare the destructor of its base. -/
theorem overrides_ordinary_pureDestructor :
    let u := ofTree pureDestructor pureDestructorTree false
    ∃ record, u.records[1]? = some record ∧ u.overrides record ⟨true⟩ = ["~S() override;"] ∧
      (∃ ref ∈ u.pureRefs (u.baseGraph.reachedFrom record.resolvedBases ++ [1]), ∃ owner method,
        u.member? ref = some (owner, method) ∧
          ¬ (method.kind = .ordinary ∨ method.kind = .conversion)) ∧
      ∃ text ∈ u.overrides record ⟨true⟩, text.toList.head? = some '~' := by
  intro u
  have hrun : (u.records[1]?.map fun record =>
      (u.baseGraph.reachedFrom record.resolvedBases, u.overrides record ⟨true⟩)) =
      some ([0], ["~S() override;"]) := by decide +kernel
  obtain ⟨record, hrecord, hrun⟩ := Option.map_eq_some_iff.1 hrun
  obtain ⟨hreached, hoverrides⟩ := Prod.mk.inj hrun
  have howners : (u.records[0]?.map fun owner => (owner.spelledName, owner.name)) =
      some ("S", "S") := by decide +kernel
  obtain ⟨owner, howner, hnames⟩ := Option.map_eq_some_iff.1 howners
  obtain ⟨hspelled, hname⟩ := Prod.mk.inj hnames
  have hreach : ReflTransGen u.baseGraph.HasBase 1 0 := by
    refine ((mem_reachedFrom_iff isClosed_baseGraph hrecord).1 ?_).to_reflTransGen
    rw [hreached]
    decide
  obtain ⟨-, hkinds, htexts⟩ := overrides_ordinary_iff ⟨true⟩ hrecord
  refine ⟨record, hrecord, hoverrides, ?_, ?_⟩
  · by_contra hnone
    refine hkinds.1 (fun ref href owner method hmember => ?_) 0 _ _ hreach
      isPureDeclarator_pureDestructor ⟨_, .inl isDestructor_pureDestructor⟩
    by_contra hkind
    exact hnone ⟨ref, href, owner, method, hmember, hkind⟩
  · obtain ⟨text, htext, front, rest, hsplit, htilde, hfront⟩ :=
      htexts 0 _ _ _ owner hreach isPureDeclarator_pureDestructor isDestructor_pureDestructor
        (by decide +kernel) rfl howner (hspelled ▸ by decide) (hname ▸ by decide)
    refine ⟨text, htext, ?_⟩
    rw [hsplit, hfront rfl, List.nil_append, List.head?_append, htilde]
    rfl

end TranslationUnit

end ClassEdit
