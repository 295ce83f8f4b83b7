import ClassEdit.Proofs.NameLookup
import ClassEdit.Proofs.OverrideList

/-!
# Names in base clauses

The bases of all classes are read before anything else, when no bases are known yet. A base clause
can therefore not name a type that a class around inherits, although a member declared in the same
scope can. The name is then looked for further out, so the entry stands for no class of the unit,
or for another class of that name.

## Main definitions

* `Names.FoundInBase`: a written name stands for a name that a class around inherits.

## Main statements

* `Names.resolve_without_bases`: without the bases a name stands for the same, unless it was found
  in a base.
* `TranslationUnit.record_eq_resolveRecord_iff`: when an entry of a base clause stands for the class
  that the name stands for in the scope of the clause.
-/

namespace ClassEdit

namespace Names

/-- The written name stands for a name that the class of a scope around inherits. No scope from
there to the innermost one declares it. -/
def FoundInBase (names : Names) (written : String) (scope : Scope) (name : String) : Prop :=
  names.resolve written scope = some name ∧ ∃ around, around <:+ scope ∧
    names.InheritedIn written around name ∧
    ∀ inner, inner <:+ scope → around.length ≤ inner.length →
      ∀ other, ¬ names.DeclaredIn written inner other

variable {names : Names} {written : String} {scope around : Scope} {name : String}

/-- Of the names tried, those of the innermost scope that declares any come first. -/
theorem find?_lookupNames_eq_some (haround : around <:+ scope)
    (hfind : (namesIn written around).find? names.table.declares = some name)
    (hinner : ∀ inner, inner <:+ scope → around.length < inner.length →
      ∀ other, ¬ names.DeclaredIn written inner other) :
    (lookupNames written scope).find? names.table.declares = some name := by
  induction scope with
  | nil =>
    obtain rfl := List.suffix_nil.1 haround
    exact hfind
  | cons first outer ih =>
    rw [lookupNames, List.find?_append]
    rcases List.suffix_cons_iff.1 haround with rfl | hsuffix
    · rw [hfind, Option.some_or]
    · have hlt : around.length < (first :: outer).length :=
        Nat.lt_succ_of_le hsuffix.length_le
      rw [find?_namesIn_eq_none_iff.2 (hinner _ List.suffix_rfl hlt), Option.none_or]
      exact ih hsuffix fun inner h => hinner inner (h.trans (List.suffix_cons _ _))

theorem find?_lookupNames_eq_none
    (h : ∀ around, around <:+ scope → ∀ other, ¬ names.DeclaredIn written around other) :
    (lookupNames written scope).find? names.table.declares = none := by
  rw [List.find?_eq_none]
  intro name hname hdeclared
  obtain ⟨around, haround, hmem⟩ := mem_lookupNames_iff.1 hname
  exact h around haround name ⟨hmem, hdeclared⟩

/-- Without the bases a name stands for the same, unless it was found in a base. -/
theorem resolve_without_bases (hbases : names.bases.length = names.records.length) :
    resolve { names with bases := [] } written scope = names.resolve written scope ∨
      ∃ name, names.FoundInBase written scope name := by
  cases hstart : Text.afterStart? "::" written with
  | some rest => exact .inl (by rw [resolve, resolve, hstart])
  | none =>
    rw [resolve_of_bases_nil rfl hstart, resolve_eq_resolveFrom hstart]
    cases hfrom : names.resolveFrom written scope [] with
    | none =>
      have hunknown := resolveFrom_eq_none hbases exhausted_nil hfrom
      exact .inl (find?_lookupNames_eq_none fun around h other => (hunknown around h other).1)
    | some name =>
      obtain ⟨around, haround, hfound, hinner⟩ := resolveFrom_eq_some hbases exhausted_nil hfrom
      rcases hfound with hfind | ⟨hnone, hinherited⟩
      · exact .inl (find?_lookupNames_eq_some haround hfind
          fun inner h hlt other => (hinner inner h hlt other).1)
      · refine .inr ⟨name, (resolve_eq_resolveFrom hstart).trans hfrom, around, haround,
          hinherited, fun inner h hle => ?_⟩
        rcases Nat.eq_or_lt_of_le hle with heq | hlt
        · -- Of the scopes around there is one of each length.
          have hsuffix := List.suffix_of_suffix_length_le haround h hle
          exact hsuffix.eq_of_length heq ▸ hnone
        · exact fun other => (hinner inner h hlt other).1

end Names

namespace TranslationUnit

variable {document : Document} {tree : Tree} {hasErrors : Bool} {id : RecordId}
  {definition : RecordSource} {derived : Record} {entry : BaseSpecifier}

theorem length_bases_memberNames :
    (memberNames document tree).bases.length = (memberNames document tree).records.length := by
  simp [memberNames, declaredNames, definitions]

/-- An entry of a base clause stands for the class that its name stands for in the scope around the
class once all bases are known, as for a member declared there, if and only if the name is not
found in a base of a class around, or the type found there is the class that the entry stands for
anyway. -/
theorem record_eq_resolveRecord_iff
    (hdefinition : (definitions document tree)[id]? = some definition)
    (hderived : (ofTree document tree hasErrors).records[id]? = some derived)
    (hentry : entry ∈ derived.bases) :
    let names := memberNames document tree
    entry.record = names.resolveRecord entry.written definition.scope ↔
      ∀ name, names.FoundInBase entry.written definition.scope name →
        names.table.record? name = entry.record := by
  intro names
  obtain ⟨read, _, hread, rfl⟩ := exists_definition hderived
  obtain rfl := Option.some.inj (hdefinition.symm.trans hread)
  have hrecord := record_of_mem_readBases hentry
  constructor
  · rintro heq name ⟨hresolve, -⟩
    rw [heq, Names.resolveRecord, hresolve]
    rfl
  · intro hsame
    rcases @Names.resolve_without_bases names entry.written definition.scope
      length_bases_memberNames with heq | ⟨name, hfound⟩
    · rw [hrecord]
      exact congrArg (·.bind names.table.record?) heq
    · rw [← hsame name hfound, Names.resolveRecord, hfound.1]
      rfl

/-- A class with a class `I` inside, and a class that derives from it, with a class inside that
derives from `I`. -/
def inheritedBase : Document where
  text := ("struct B \x7b struct I \x7b\x7d; \x7d;\n" ++
    "struct O : B \x7b struct D : I \x7b\x7d; \x7d;\n").toList

/-- The tree of a member declaration that defines a class. -/
def memberClassTree (definition : Tree) : Tree :=
  let root := definition.root
  .node ⟨.fieldDeclaration, none, root.start, root.stop + 1, true, false⟩
    [.node { root with field := some .type } definition.children,
      .terminal root.stop (root.stop + 1)]

/-- The tree of `inheritedBase`. -/
def inheritedBaseTree : Tree :=
  .node ⟨.other, none, 0, 62, true, false⟩
    [.node ⟨.structSpecifier, none, 0, 25, true, false⟩
      [.terminal 0 6, .node ⟨.typeIdentifier, some .name, 7, 8, true, false⟩ [],
        .node ⟨.other, some .body, 9, 25, true, false⟩
          [.terminal 9 10, memberClassTree (bareStructTree 11), .terminal 24 25]],
      .terminal 25 26,
      .node ⟨.structSpecifier, none, 27, 60, true, false⟩
        [.terminal 27 33, .node ⟨.typeIdentifier, some .name, 34, 35, true, false⟩ [],
          .node ⟨.baseClassClause, none, 36, 39, true, false⟩
            [.node ⟨.colon, none, 36, 37, false, false⟩ [],
              .node ⟨.typeIdentifier, none, 38, 39, true, false⟩ []],
          .node ⟨.other, some .body, 40, 60, true, false⟩
            [.terminal 40 41, memberClassTree (middleTree 42), .terminal 59 60]],
      .terminal 60 61]

/-- In the outer class the name stands for the class that it inherits, but not in the base
clause. -/
theorem record_eq_resolveRecord_inheritedBase :
    let u := ofTree inheritedBase inheritedBaseTree false
    let names := memberNames inheritedBase inheritedBaseTree
    u.records.map (·.qualifiedName) = ["B", "B::I", "O", "O::D"] ∧
    ∃ derived entry, u.records[3]? = some derived ∧ entry ∈ derived.bases ∧
      entry.written = "I" ∧ entry.record = none ∧ names.resolveRecord "I" ["O"] = some 1 ∧
      ∃ name, names.FoundInBase "I" ["O"] name ∧ names.table.record? name ≠ none := by
  intro u names
  have hnames : u.records.map (·.qualifiedName) = ["B", "B::I", "O", "O::D"] := by decide +kernel
  have hscopes : (definitions inheritedBase inheritedBaseTree)[3]?.map (·.scope) = some ["O"] := by
    decide +kernel
  obtain ⟨definition, hdefinition, hscope⟩ := Option.map_eq_some_iff.1 hscopes
  have hbases : (u.records[3]?.bind fun derived => derived.bases.head?.map fun entry =>
      (entry.written, entry.record)) = some ("I", none) := by decide +kernel
  obtain ⟨derived, hderived, hbases⟩ := Option.bind_eq_some_iff.1 hbases
  obtain ⟨entry, hentry, hbases⟩ := Option.map_eq_some_iff.1 hbases
  obtain ⟨hwritten, hrecord⟩ := Prod.mk.inj hbases
  have hmember : names.resolveRecord "I" ["O"] = some 1 := by decide +kernel
  have hiff := record_eq_resolveRecord_iff hdefinition hderived (List.mem_of_head? hentry)
  rw [hwritten, hscope, hrecord] at hiff
  refine ⟨hnames, derived, entry, hderived, List.mem_of_head? hentry, hwritten, hrecord, hmember,
    ?_⟩
  by_contra hnone
  push Not at hnone
  cases (hiff.2 hnone).trans hmember

end TranslationUnit

end ClassEdit
