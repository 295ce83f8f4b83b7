import ClassEdit.Proofs.ImplementText
import ClassEdit.Proofs.ScopeNames
import ClassEdit.Proofs.UnitClasses

/-!
# The name of a new base

A new base is written with its qualified name, without a `::` in front and without the unnamed
namespaces around it. A base clause is looked up from the scopes around the class outwards, so the
name may stand for a type nearer to the class. At each scope the lookup tries one unnamed
namespace, and it goes in front of the whole name, so a class in an unnamed namespace inside of a
named one is not found at all.

## Main definitions

* `lookupNames`: the names that the lookup tries, in order.
* `IsVisibleFrom`: the lookup tries the name of the class at all.

## Main statements

* `Names.resolve_of_bases_nil`: the lookup takes the first of these names that is declared.
* `mem_lookupNames_iff_isVisibleFrom`: when the name of the class is among them.
* `addBase_denotes_iff`: when the name of a new base stands for the base.
-/

namespace ClassEdit

/-! ## The names that a lookup tries -/

/-- The names that the lookup tries in a scope and in the scopes around it. -/
def lookupNames (written : String) : Scope → List String
  | [] => namesIn written []
  | inner :: outer => namesIn written (inner :: outer) ++ lookupNames written outer

theorem mem_lookupNames_iff {written name : String} {scope : Scope} :
    name ∈ lookupNames written scope ↔ ∃ outer, outer <:+ scope ∧ name ∈ namesIn written outer := by
  induction scope with
  | nil => simp [lookupNames]
  | cons inner outer ih =>
    simp only [lookupNames, List.mem_append, ih, List.suffix_cons_iff]
    grind

namespace Names

variable {names : Names} {written : String}

theorem resolveIn_of_bases_nil (h : names.bases = []) (scope : Scope) (seen : List RecordId) :
    names.resolveIn written scope seen =
      ((namesIn written scope).find? names.table.declares, seen) := by
  have hsearch : ∀ record, names.searchBases written record seen = (none, seen) := by
    intro record
    simp [searchBases, h, BaseGraph.basesOf, BaseGraph.searchDeep]
  rw [resolveIn]
  cases (namesIn written scope).find? names.table.declares with
  | some found => rfl
  | none => cases names.table.record? scope.name <;> simp [hsearch]

theorem resolveFrom_of_bases_nil (h : names.bases = []) (scope : Scope) (seen : List RecordId) :
    names.resolveFrom written scope seen =
      (lookupNames written scope).find? names.table.declares := by
  induction scope with
  | nil => simp [resolveFrom, resolveIn_of_bases_nil h, lookupNames]
  | cons inner outer ih =>
    rw [resolveFrom, resolveIn_of_bases_nil h, lookupNames, List.find?_append]
    cases (namesIn written (inner :: outer)).find? names.table.declares with
    | some found => rfl
    | none => exact ih

/-- As long as no bases are known, a name stands for the first name tried that is declared. -/
theorem resolve_of_bases_nil (h : names.bases = []) (hstart : Text.afterStart? "::" written = none)
    (scope : Scope) :
    names.resolve written scope = (lookupNames written scope).find? names.table.declares := by
  rw [resolve, hstart]
  exact resolveFrom_of_bases_nil h scope []

end Names

/-! ## Classes in unnamed namespaces -/

/-- The unnamed namespaces among the scopes of a class are the outermost ones, and all but one of
them are around `scope` too. -/
def IsVisibleFrom (target scope : Scope) : Prop :=
  ∃ inner count, unnamedNamespace ∉ inner ∧
    target = inner ++ List.replicate count unnamedNamespace ∧
    List.replicate (count - 1) unnamedNamespace <:+ scope

/-- What follows the named scopes of a class is unnamed. -/
theorem eq_replicate_of_eq_filter_append {target rest : Scope}
    (h : target = target.filter (· ≠ unnamedNamespace) ++ rest) :
    rest = List.replicate rest.length unnamedNamespace := by
  have hfilter := congrArg (List.filter (· ≠ unnamedNamespace)) h
  simp only [List.filter_append, List.filter_filter, Bool.and_self, List.self_eq_append_right,
    List.filter_eq_nil_iff] at hfilter
  refine List.eq_replicate_iff.2 ⟨rfl, fun scope hscope => ?_⟩
  simpa using hfilter scope hscope

theorem filter_append_replicate {inner : Scope} (h : unnamedNamespace ∉ inner) (count : Nat) :
    (inner ++ List.replicate count unnamedNamespace).filter (· ≠ unnamedNamespace) = inner := by
  have hinner : inner.filter (· ≠ unnamedNamespace) = inner := by
    refine List.filter_eq_self.2 fun scope hscope => ?_
    have hne : scope ≠ unnamedNamespace := fun heq => h (heq ▸ hscope)
    simpa using hne
  rw [List.filter_append, hinner]
  simp

/-- A class can be seen if, after its named scopes and one unnamed namespace or none, its scopes
are those of a scope around. -/
theorem isVisibleFrom_iff {target scope : Scope} :
    IsVisibleFrom target scope ↔ ∃ outer, outer <:+ scope ∧
      (target = target.filter (· ≠ unnamedNamespace) ++ outer ∨
        target = target.filter (· ≠ unnamedNamespace) ++ unnamedNamespace :: outer) := by
  constructor
  · rintro ⟨inner, count, hinner, htarget, hscope⟩
    refine ⟨_, hscope, ?_⟩
    rw [htarget, filter_append_replicate hinner]
    cases count with
    | zero => exact .inl rfl
    | succ count => exact .inr rfl
  · have hinner : unnamedNamespace ∉ target.filter (· ≠ unnamedNamespace) := by simp
    rintro ⟨outer, hscope, htarget | htarget⟩
    · have houter := eq_replicate_of_eq_filter_append htarget
      refine ⟨_, outer.length, hinner, houter ▸ htarget, List.IsSuffix.trans ?_ hscope⟩
      have hdrop : List.replicate (outer.length - 1) unnamedNamespace = outer.drop 1 := by
        rw [houter, List.drop_replicate, List.length_replicate]
      exact hdrop ▸ List.drop_suffix 1 outer
    · have hrest := eq_replicate_of_eq_filter_append htarget
      have houter : outer = List.replicate outer.length unnamedNamespace :=
        (List.cons.inj hrest).2
      exact ⟨_, outer.length + 1, hinner, hrest ▸ htarget, houter ▸ hscope⟩

variable {target scope : Scope} {name : String}

theorem namesIn_name {inner : Scope} (hscope : scope.IsPlain) (hinner : inner ≠ []) :
    namesIn inner.name scope =
      [Scope.name (inner ++ scope), Scope.name (inner ++ unnamedNamespace :: scope)] := by
  have hunnamed : Scope.IsPlain (unnamedNamespace :: scope) := hscope.cons (.inr rfl)
  rw [namesIn, Scope.qualify_name_cons hscope unnamedNamespace, Scope.qualify_name hscope hinner,
    Scope.qualify_name hunnamed hinner]

/-- The lookup tries the name of a class if and only if the class can be seen. -/
theorem mem_lookupNames_iff_isVisibleFrom (htarget : target.IsPlain) (hscope : scope.IsPlain)
    (hname : IsIdentifier name) :
    qualify target.name name ∈
        lookupNames (Style.qualified.spellScopes (qualify target.name name)) scope ↔
      IsVisibleFrom target scope := by
  have hplain : ∀ {scopes : Scope}, scopes.IsPlain → Scope.IsPlain (name :: scopes) :=
    Scope.IsPlain.cons (.inl hname)
  rw [Scope.qualify_name_cons htarget, Scope.spellScopes_name htarget hname, mem_lookupNames_iff,
    isVisibleFrom_iff]
  refine exists_congr fun outer => and_congr_right fun hsuffix => ?_
  have houter : Scope.IsPlain outer := fun part h => hscope part (hsuffix.subset h)
  have hnamed := htarget.filter (· ≠ unnamedNamespace)
  rw [namesIn_name houter (List.cons_ne_nil _ _), List.mem_pair, List.cons_append,
    List.cons_append, Scope.name_inj (hplain htarget) (hplain (hnamed.append houter)),
    Scope.name_inj (hplain htarget) (hplain (hnamed.append (houter.cons (.inr rfl)))),
    List.cons_inj_right, List.cons_inj_right]

/-! ## Bases -/

theorem find?_eq_some_iff_takeWhile {p : String → Bool} {names : List String} {name : String} :
    names.find? p = some name ↔ p name = true ∧ name ∈ names ∧
      ∀ other ∈ names.takeWhile (· ≠ name), p other = false := by
  induction names with
  | nil => simp
  | cons first names ih =>
    by_cases hfirst : first = name
    · subst hfirst
      cases hp : p first <;> simp [hp, ih]
    · cases hp : p first <;> simp [hp, ih, hfirst, Ne.symm hfirst]

variable {document : Document} {tree : Tree} {hasErrors : Bool} {id : RecordId}
  {definition : RecordSource}

/-- A name stands for the first class with a qualified name if and only if it stands for that
name. -/
theorem resolveRecord_baseNames_iff
    (hdefinition : (definitions document tree)[id]? = some definition)
    (hfirst : ∀ other earlier, (definitions document tree)[other]? = some earlier →
      earlier.qualifiedName = definition.qualifiedName → id ≤ other) {written : String} :
    (baseNames document tree).resolveRecord written scope = some id ↔
      (baseNames document tree).resolve written scope = some definition.qualifiedName := by
  constructor
  · intro h
    obtain ⟨name, hname, hindex⟩ := exists_of_resolveRecord_baseNames h
    obtain ⟨hlt, hsame, -⟩ := List.findIdx?_eq_some_iff_getElem.1 hindex
    obtain ⟨_, rfl⟩ := List.getElem?_eq_some_iff.1 hdefinition
    rw [hname, of_decide_eq_true hsame]
  · intro h
    rw [Names.resolveRecord, h]
    refine (record?_baseNames _).trans (List.findIdx?_eq_some_iff_getElem.2 ?_)
    obtain ⟨hlt, rfl⟩ := List.getElem?_eq_some_iff.1 hdefinition
    refine ⟨hlt, by simp, fun other hother => ?_⟩
    have hle := hfirst other _ (List.getElem?_eq_getElem (hother.trans hlt))
    grind

theorem declares_qualifiedName (hdefinition : definition ∈ definitions document tree) :
    (baseNames document tree).table.declares definition.qualifiedName = true := by
  obtain ⟨item, hitem, heq⟩ := List.mem_filterMap.1 hdefinition
  refine (declares_typeTable _ _).2 ⟨item, hitem, ?_⟩
  cases item with
  | record source =>
    obtain rfl := Option.some.inj heq
    rfl
  | _ => cases heq

theorem baseNames_eq {names : Names} (htable : (baseNames document tree).table = names.table)
    (hrecords : (baseNames document tree).records = names.records) (hbases : names.bases = []) :
    baseNames document tree = names := by
  obtain ⟨table, records, bases⟩ := names
  subst hbases
  exact congrArg₂ (Names.mk · · []) htable hrecords

/-- In a scope, the spelled name of a class stands for it if and only if the class can be seen and
no name that is tried before is declared. -/
theorem resolveRecord_spellScopes_iff {written : String}
    (hdefinition : (definitions document tree)[id]? = some definition)
    (hfirst : ∀ other earlier, (definitions document tree)[other]? = some earlier →
      earlier.qualifiedName = definition.qualifiedName → id ≤ other)
    (htarget : definition.scope.IsPlain) (hname : IsIdentifier definition.name)
    (hscope : scope.IsPlain)
    (hwritten : written = Style.qualified.spellScopes definition.qualifiedName) :
    (baseNames document tree).resolveRecord written scope = some id ↔
      IsVisibleFrom definition.scope scope ∧
        ∀ name ∈ (lookupNames written scope).takeWhile (· ≠ definition.qualifiedName),
          (baseNames document tree).table.declares name = false := by
  have hdeclared := declares_qualifiedName (List.mem_of_getElem? hdefinition)
  have hmem : definition.qualifiedName ∈ lookupNames written scope ↔
      IsVisibleFrom definition.scope scope :=
    hwritten ▸ mem_lookupNames_iff_isVisibleFrom htarget hscope hname
  have hstart : Text.afterStart? "::" written = none := by
    rw [hwritten, RecordSource.qualifiedName, Scope.qualify_name_cons htarget,
      Scope.spellScopes_name htarget hname]
    exact Scope.afterStart?_name ((htarget.filter _).cons (.inl hname)) (List.cons_ne_nil _ _)
  rw [resolveRecord_baseNames_iff hdefinition hfirst, Names.resolve_of_bases_nil rfl hstart,
    find?_eq_some_iff_takeWhile, hmem, and_iff_right hdeclared]

namespace TranslationUnit

variable {interface : Record}

/-- The text that adds a base ends in the spelled name of the base. Let the base be the first class
with its qualified name. Then in the scope of the class, and so in a base clause of the class once
the text is read again, the name stands for the base if and only if the base can be seen there and
no name that the lookup tries before is declared. -/
theorem addBase_denotes_iff
    (hdefinition : (definitions document tree)[id]? = some definition)
    (hfirst : ∀ other earlier, (definitions document tree)[other]? = some earlier →
      earlier.qualifiedName = definition.qualifiedName → id ≤ other)
    (hinterface : (ofTree document tree hasErrors).records[id]? = some interface)
    (htarget : definition.scope.IsPlain) (hname : IsIdentifier definition.name)
    (hscope : scope.IsPlain) :
    let denotes := IsVisibleFrom definition.scope scope ∧
      ∀ name ∈ (lookupNames interface.spelledName scope).takeWhile (· ≠ interface.qualifiedName),
        (baseNames document tree).table.declares name = false
    (∀ derived insertion,
      addBase document.text derived interface (Source.ofTree document tree) = .ok insertion →
      insertion.text =
        (if derived.bases.isEmpty then " : public " else ", ") ++ interface.spelledName) ∧
    ((baseNames document tree).resolveRecord interface.spelledName scope = some id ↔ denotes) ∧
    ∀ (edited : Document) (editedTree : Tree) (editedErrors : Bool) (derivedId : RecordId)
      (reading : RecordSource) (derived : Record),
      baseNames edited editedTree = baseNames document tree →
      (definitions edited editedTree)[derivedId]? = some reading → reading.scope = scope →
      (ofTree edited editedTree editedErrors).records[derivedId]? = some derived →
      ∀ entry ∈ derived.bases, entry.written = interface.spelledName →
        (entry.record = some id ↔ denotes) := by
  intro denotes
  obtain ⟨read, _, hread, rfl⟩ := exists_definition hinterface
  obtain rfl := Option.some.inj (hdefinition.symm.trans hread)
  have hiff := resolveRecord_spellScopes_iff hdefinition hfirst htarget hname hscope rfl
  refine ⟨fun derived insertion hadd => ?_, hiff, ?_⟩
  · obtain ⟨-, -, -, htext⟩ := addBase_eq_ok hadd
    exact htext
  · intro edited editedTree editedErrors derivedId reading derived hnames hreading hsame hderived
      entry hentry hwritten
    obtain ⟨reread, _, hreread, rfl⟩ := exists_definition hderived
    obtain rfl := Option.some.inj (hreading.symm.trans hreread)
    rw [record_of_mem_readBases hentry, hnames, hwritten, hsame]
    exact hiff

/-- A class in a namespace, where a class has the name of one outside. -/
def nearerClass : Document where
  text := ("struct I \x7b\x7d;\nnamespace n \x7b\nstruct I \x7b\x7d;\n" ++
    "struct D \x7b\x7d;\n\x7d\n").toList

/-- `nearerClass` after the class outside has been added as a base. -/
def nearerClassEdited : Document where
  text := ("struct I \x7b\x7d;\nnamespace n \x7b\nstruct I \x7b\x7d;\n" ++
    "struct D : public I \x7b\x7d;\n\x7d\n").toList

/-- The tree of a class without members and bases. -/
def bareStructTree (start : Nat) : Tree :=
  .node ⟨.structSpecifier, none, start, start + 11, true, false⟩
    [.terminal start (start + 6),
      .node ⟨.typeIdentifier, some .name, start + 7, start + 8, true, false⟩ [],
      .node ⟨.other, some .body, start + 9, start + 11, true, false⟩
        [.terminal (start + 9) (start + 10), .terminal (start + 10) (start + 11)]]

/-- The tree of `nearerClass`. -/
def nearerClassTree : Tree :=
  .node ⟨.other, none, 0, 55, true, false⟩
    [bareStructTree 0, .terminal 11 12,
      .node ⟨.namespaceDefinition, none, 13, 54, true, false⟩
        [.terminal 13 22, .node ⟨.other, some .name, 23, 24, true, false⟩ [],
          .node ⟨.declarationList, some .body, 25, 54, true, false⟩
            [.terminal 25 26, bareStructTree 27, .terminal 38 39, bareStructTree 40,
              .terminal 51 52, .terminal 53 54]]]

/-- The tree of `nearerClassEdited`. -/
def nearerClassEditedTree : Tree :=
  .node ⟨.other, none, 0, 66, true, false⟩
    [bareStructTree 0, .terminal 11 12,
      .node ⟨.namespaceDefinition, none, 13, 65, true, false⟩
        [.terminal 13 22, .node ⟨.other, some .name, 23, 24, true, false⟩ [],
          .node ⟨.declarationList, some .body, 25, 65, true, false⟩
            [.terminal 25 26, bareStructTree 27, .terminal 38 39,
              .node ⟨.structSpecifier, none, 40, 62, true, false⟩
                [.terminal 40 46, .node ⟨.typeIdentifier, some .name, 47, 48, true, false⟩ [],
                  .node ⟨.baseClassClause, none, 49, 59, true, false⟩
                    [.node ⟨.colon, none, 49, 50, false, false⟩ [],
                      .node ⟨.accessSpecifier, none, 51, 57, true, false⟩ [.terminal 51 57],
                      .node ⟨.typeIdentifier, none, 58, 59, true, false⟩ []],
                  .node ⟨.other, some .body, 60, 62, true, false⟩
                    [.terminal 60 61, .terminal 61 62]],
              .terminal 62 63, .terminal 64 65]]]

/-- The names of both texts. -/
def nearerClassNames : Names where
  table := [("I", some 0), ("n::I", some 1), ("n::D", some 2)]
  records := ["I", "n::I", "n::D"]
  bases := []

theorem baseNames_nearerClass : baseNames nearerClass nearerClassTree = nearerClassNames :=
  baseNames_eq (by decide +kernel) (by decide +kernel) rfl

theorem baseNames_nearerClassEdited :
    baseNames nearerClassEdited nearerClassEditedTree = nearerClassNames :=
  baseNames_eq (by decide +kernel) (by decide +kernel) rfl

/-- The class outside is asked for, and the class in the namespace becomes the base. -/
theorem addBase_denotes_nearerClass :
    let u := ofTree nearerClass nearerClassTree false
    ∃ interface derived insertion edited, u.records[0]? = some interface ∧
      u.records[2]? = some derived ∧
      addBase nearerClass.text derived interface u.source = .ok insertion ∧
      insertion.text = " : public I" ∧
      applyInsertions nearerClass.text [insertion] = .ok nearerClassEdited.text ∧
      (baseNames nearerClass nearerClassTree).resolveRecord interface.spelledName ["n"] ≠ some 0 ∧
      (ofTree nearerClassEdited nearerClassEditedTree false).records[2]? = some edited ∧
      edited.resolvedBases = [1] ∧ ∀ entry ∈ edited.bases, entry.record ≠ some 0 := by
  intro u
  have hrun : (u.records[0]?.bind fun interface => u.records[2]?.map fun derived =>
      ((interface.spelledName, interface.qualifiedName),
        addBase nearerClass.text derived interface u.source)) =
      some (("I", "I"), .ok ⟨48, " : public I"⟩) := by decide +kernel
  obtain ⟨interface, hinterface, hrun⟩ := Option.bind_eq_some_iff.1 hrun
  obtain ⟨derived, hderived, hrun⟩ := Option.map_eq_some_iff.1 hrun
  obtain ⟨hnames, hadd⟩ := Prod.mk.inj hrun
  obtain ⟨hspelled, hqualified⟩ := Prod.mk.inj hnames
  have hdefinitions : ((definitions nearerClass nearerClassTree)[0]?.map fun definition =>
      (definition.scope, definition.name)) = some ([], "I") := by decide +kernel
  obtain ⟨definition, hdefinition, hname⟩ := Option.map_eq_some_iff.1 hdefinitions
  obtain ⟨htarget, hname⟩ := Prod.mk.inj hname
  have hreadings : (definitions nearerClassEdited nearerClassEditedTree)[2]?.map (·.scope) =
      some ["n"] := by decide +kernel
  obtain ⟨reading, hreading, hscope⟩ := Option.map_eq_some_iff.1 hreadings
  have hbases : ((ofTree nearerClassEdited nearerClassEditedTree false).records[2]?.map
      fun edited => (edited.bases.map (·.written), edited.resolvedBases)) =
      some (["I"], [1]) := by decide +kernel
  obtain ⟨edited, hedited, hbases⟩ := Option.map_eq_some_iff.1 hbases
  obtain ⟨hwritten, hresolved⟩ := Prod.mk.inj hbases
  have hplain : Scope.IsPlain ["n"] := by decide
  obtain ⟨-, hlookup, hreread⟩ := addBase_denotes_iff hdefinition (fun _ _ _ _ => Nat.zero_le _)
    hinterface (htarget ▸ by decide) (hname ▸ by decide) hplain
  rw [hspelled, hqualified, baseNames_nearerClass] at hlookup hreread
  -- The lookup tries the class in the namespace first.
  have hnearer : ¬ ∀ name ∈ (lookupNames "I" ["n"]).takeWhile (· ≠ "I"),
      nearerClassNames.table.declares name = false := by decide +kernel
  refine ⟨interface, derived, _, edited, hinterface, hderived, hadd, rfl, by decide +kernel,
    fun h => hnearer (hlookup.1 ?_).2, hedited, hresolved, fun entry hentry h => hnearer ?_⟩
  · rwa [hspelled, baseNames_nearerClass] at h
  · have hnamed : entry.written ∈ edited.bases.map (·.written) := List.mem_map_of_mem hentry
    rw [hwritten, List.mem_singleton] at hnamed
    exact ((hreread _ _ _ _ _ _ baseNames_nearerClassEdited hreading hscope hedited entry hentry
      hnamed).1 h).2

end TranslationUnit

end ClassEdit
