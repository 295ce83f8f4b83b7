import ClassEdit.Proofs.BaseName

/-!
# What a written name stands for

A name is looked up from the innermost scope outwards, and at a scope that is a class also in the
bases of the class. One list of the classes seen serves for the whole lookup, so a base that has
been seen from an inner scope is passed over from an outer one. This never hides a name: when the
search from a scope ends without an answer, no class seen has one, and all their bases have been
seen too.

## Main definitions

* `BaseGraph.Exhausted`: nothing can be found any more among the classes seen.
* `Names.DeclaredIn`, `Names.InheritedIn`, `Names.FoundIn`: the names that a scope has for a written
  name, and the one of them that it stands for there.

## Main statements

* `BaseGraph.searchDeep_eq_some`, `BaseGraph.searchDeep_eq_none`: what a search finds, and what it
  leaves if it finds nothing.
* `Names.resolveFrom_eq_some`, `Names.resolveFrom_eq_none`: the scopes from the inside out.
* `Names.resolve_innermost`: what a written name stands for.
-/

namespace ClassEdit

open Relation (ReflTransGen TransGen)

/-! ## Searches over the bases -/

namespace BaseGraph

theorem lt_length_of_hasBase {g : BaseGraph} {id base : RecordId} (h : g.HasBase id base) :
    id < g.length := by
  by_contra hge
  have hnone : g[id]? = none := List.getElem?_eq_none (Nat.le_of_not_lt hge)
  simp [HasBase, basesOf, hnone] at h

variable {α : Type} {g : BaseGraph} {answer : RecordId → Option α}
  {stack seen after : List RecordId}

/-- None of the classes seen has an answer, and each of their bases has been seen or is still on
the stack. -/
def Exhausted (g : BaseGraph) (answer : RecordId → Option α) (stack seen : List RecordId) : Prop :=
  ∀ id ∈ seen, answer id = none ∧
    ∀ base ∈ g.basesOf id, base < g.length → base ∈ stack ∨ base ∈ seen

/-- From the classes seen nothing else can be reached, once the stack is empty. -/
theorem Exhausted.mem_of_path (h : g.Exhausted answer [] seen) {first id : RecordId}
    (hfirst : first ∈ seen) (hpath : ReflTransGen g.HasBase first id) (hid : id < g.length) :
    id ∈ seen := by
  induction hpath with
  | refl => exact hfirst
  | tail _ hbase ih =>
    have hmem := (h _ (ih (lt_length_of_hasBase hbase))).2 _ hbase hid
    simpa using hmem

/-- An answer is that of a class that can be reached from the stack. -/
theorem searchDeep_eq_some {a : α} (h : (g.searchDeep answer stack seen).1 = some a) :
    ∃ first ∈ stack, ∃ id < g.length, ReflTransGen g.HasBase first id ∧ answer id = some a := by
  fun_induction searchDeep g answer stack seen with
  | case1 => cases h
  | case2 seen id rest fresh found hfound =>
    obtain rfl := Option.some.inj h
    exact ⟨id, List.mem_cons_self, id, fresh.1, .refl, hfound⟩
  | case3 seen id rest fresh hnone ih =>
    obtain ⟨first, hfirst, last, hlast, hpath, hanswer⟩ := ih h
    rcases List.mem_append.1 hfirst with hbase | hrest
    · exact ⟨id, List.mem_cons_self, last, hlast, .head hbase hpath, hanswer⟩
    · exact ⟨first, List.mem_cons_of_mem _ hrest, last, hlast, hpath, hanswer⟩
  | case4 seen id rest hseen ih =>
    obtain ⟨first, hfirst, hrest⟩ := ih h
    exact ⟨first, List.mem_cons_of_mem _ hfirst, hrest⟩

/-- A search without an answer has seen the stack, and leaves nothing to find. -/
theorem searchDeep_eq_none (h : g.searchDeep answer stack seen = (none, after))
    (hseen : g.Exhausted answer stack seen) :
    g.Exhausted answer [] after ∧ (∀ id ∈ seen, id ∈ after) ∧
      ∀ id ∈ stack, id < g.length → id ∈ after := by
  fun_induction searchDeep g answer stack seen with
  | case1 seen =>
    obtain rfl := (Prod.mk.inj h).2
    exact ⟨hseen, fun _ hid => hid, by simp⟩
  | case2 seen id rest fresh found hfound => cases h
  | case3 seen id rest fresh hnone ih =>
    have hnext : g.Exhausted answer (g.basesOf id ++ rest) (id :: seen) := by
      intro other hother
      rcases List.mem_cons.1 hother with rfl | hother
      · exact ⟨hnone, fun base hbase _ => .inl (List.mem_append_left _ hbase)⟩
      · obtain ⟨hanswer, hbases⟩ := hseen other hother
        refine ⟨hanswer, fun base hbase hlt => ?_⟩
        have := hbases base hbase hlt
        grind
    obtain ⟨hafter, hkept, hstack⟩ := ih h hnext
    refine ⟨hafter, fun other hother => hkept other (List.mem_cons_of_mem _ hother), ?_⟩
    intro other hother hlt
    rcases List.mem_cons.1 hother with rfl | hother
    · exact hkept other List.mem_cons_self
    · exact hstack other (List.mem_append_right _ hother) hlt
  | case4 seen id rest hold ih =>
    have hmem : id < g.length → id ∈ seen := by
      intro hlt
      simpa [hlt] using hold
    have hnext : g.Exhausted answer rest seen := by
      intro other hother
      obtain ⟨hanswer, hbases⟩ := hseen other hother
      refine ⟨hanswer, fun base hbase hlt => ?_⟩
      have := hbases base hbase hlt
      grind
    obtain ⟨hafter, hkept, hstack⟩ := ih h hnext
    refine ⟨hafter, hkept, fun other hother hlt => ?_⟩
    rcases List.mem_cons.1 hother with rfl | hother
    · exact hkept other (hmem hlt)
    · exact hstack other hother hlt

/-- After a search from the bases of a class that found nothing, none of its bases has an answer,
direct or not. -/
theorem answer_eq_none_of_searchDeep {start : RecordId}
    (h : g.searchDeep answer (g.basesOf start) seen = (none, after))
    (hseen : g.Exhausted answer [] seen) :
    g.Exhausted answer [] after ∧
      ∀ id, TransGen g.HasBase start id → id < g.length → answer id = none := by
  have hstack : g.Exhausted answer (g.basesOf start) seen := by
    intro id hid
    obtain ⟨hanswer, hbases⟩ := hseen id hid
    exact ⟨hanswer, fun base hbase hlt => .inr (by simpa using hbases base hbase hlt)⟩
  obtain ⟨hafter, -, hdirect⟩ := searchDeep_eq_none h hstack
  refine ⟨hafter, fun id hpath hid => ?_⟩
  obtain ⟨first, hfirst, hrest⟩ := TransGen.head'_iff.1 hpath
  have hlt : first < g.length := by
    rcases hrest.cases_head with rfl | ⟨next, hnext, -⟩
    · exact hid
    · exact lt_length_of_hasBase hnext
  exact (hafter id (hafter.mem_of_path (hdirect first hfirst hlt) hrest hid)).1

end BaseGraph

/-! ## The names of a scope -/

namespace Names

/-- The name is that of the written name in the scope itself, or in an unnamed namespace there. -/
def DeclaredIn (names : Names) (written : String) (scope : Scope) (name : String) : Prop :=
  name ∈ namesIn written scope ∧ names.table.declares name = true

/-- The scope is a class, and the name is that of the written name in a direct or indirect base of
the class. -/
def InheritedIn (names : Names) (written : String) (scope : Scope) (name : String) : Prop :=
  ∃ record base baseName, names.table.record? scope.name = some record ∧
    TransGen names.bases.HasBase record base ∧ names.records[base]? = some baseName ∧
    name = qualify baseName written ∧ names.table.declares name = true

/-- The written name stands for the name in the scope: of the names that are declared there it is
the first one, and only if there is none it comes from a base. -/
def FoundIn (names : Names) (written : String) (scope : Scope) (name : String) : Prop :=
  (namesIn written scope).find? names.table.declares = some name ∨
    (∀ other, ¬ names.DeclaredIn written scope other) ∧ names.InheritedIn written scope name

/-- The scope has no name for the written name. -/
def IsUnknownIn (names : Names) (written : String) (scope : Scope) : Prop :=
  ∀ name, ¬ names.DeclaredIn written scope name ∧ ¬ names.InheritedIn written scope name

variable {names : Names} {written : String} {scope : Scope} {name : String}
  {seen after : List RecordId}

theorem FoundIn.not_isUnknownIn (h : names.FoundIn written scope name) :
    ¬ names.IsUnknownIn written scope := by
  intro hunknown
  rcases h with hfind | ⟨-, hinherited⟩
  · exact (hunknown name).1 ⟨List.mem_of_find?_eq_some hfind, List.find?_some hfind⟩
  · exact (hunknown name).2 hinherited

theorem find?_namesIn_eq_none_iff :
    (namesIn written scope).find? names.table.declares = none ↔
      ∀ name, ¬ names.DeclaredIn written scope name := by
  simp [List.find?_eq_none, DeclaredIn]

theorem inBase_eq_some_iff {base : RecordId} {baseName : String}
    (hbase : names.records[base]? = some baseName) :
    names.inBase written base = some name ↔
      name = qualify baseName written ∧ names.table.declares name = true := by
  simp only [inBase, List.getD_eq_getElem?_getD, hbase, Option.getD_some,
    Option.ite_none_right_eq_some, Option.some.injEq]
  grind

/-- One scope, if it has the name. -/
theorem resolveIn_eq_some (hbases : names.bases.length = names.records.length)
    (h : (names.resolveIn written scope seen).1 = some name) :
    names.FoundIn written scope name := by
  rw [resolveIn] at h
  split at h
  next found _ hfind =>
    obtain rfl := Option.some.inj h
    exact .inl hfind
  next record hfind hrecord =>
    refine .inr ⟨find?_namesIn_eq_none_iff.1 hfind, ?_⟩
    rw [searchBases] at h
    obtain ⟨first, hfirst, base, hlt, hpath, hanswer⟩ := BaseGraph.searchDeep_eq_some h
    rw [hbases] at hlt
    have hbase : names.records[base]? = some names.records[base] := List.getElem?_eq_getElem hlt
    exact ⟨record, base, _, hrecord, .head' hfirst hpath, hbase,
      (inBase_eq_some_iff hbase).1 hanswer⟩
  next => cases h

/-- One scope, if it does not have the name. -/
theorem resolveIn_eq_none (hbases : names.bases.length = names.records.length)
    (hseen : names.bases.Exhausted (names.inBase written) [] seen)
    (h : names.resolveIn written scope seen = (none, after)) :
    names.IsUnknownIn written scope ∧ names.bases.Exhausted (names.inBase written) [] after := by
  rw [resolveIn] at h
  split at h
  next => cases h
  next record hfind hrecord =>
    rw [searchBases] at h
    obtain ⟨hafter, hnone⟩ := BaseGraph.answer_eq_none_of_searchDeep h hseen
    refine ⟨fun name => ⟨find?_namesIn_eq_none_iff.1 hfind name, ?_⟩, hafter⟩
    rintro ⟨other, base, baseName, hother, hpath, hbase, hname⟩
    obtain rfl := Option.some.inj (hrecord.symm.trans hother)
    obtain ⟨hlt, -⟩ := List.getElem?_eq_some_iff.1 hbase
    have hanswer := hnone base hpath (hbases ▸ hlt)
    rw [(inBase_eq_some_iff hbase).2 hname] at hanswer
    cases hanswer
  next hfind hrecord =>
    obtain rfl := (Prod.mk.inj h).2
    refine ⟨fun name => ⟨find?_namesIn_eq_none_iff.1 hfind name, ?_⟩, hseen⟩
    rintro ⟨other, -, -, hother, -⟩
    rw [hrecord] at hother
    cases hother

/-! ## The scopes from the inside out -/

theorem resolveFrom_eq_none (hbases : names.bases.length = names.records.length)
    (hseen : names.bases.Exhausted (names.inBase written) [] seen)
    (h : names.resolveFrom written scope seen = none) :
    ∀ around, around <:+ scope → names.IsUnknownIn written around := by
  induction scope generalizing seen with
  | nil =>
    intro around haround
    obtain rfl := List.suffix_nil.1 haround
    exact (resolveIn_eq_none hbases hseen (Prod.ext h rfl)).1
  | cons inner outer ih =>
    intro around haround
    rw [resolveFrom] at h
    split at h
    next => cases h
    next after hin =>
      obtain ⟨hunknown, hafter⟩ := resolveIn_eq_none hbases hseen hin
      rcases List.suffix_cons_iff.1 haround with rfl | haround
      · exact hunknown
      · exact ih hafter h around haround

theorem resolveFrom_eq_some (hbases : names.bases.length = names.records.length)
    (hseen : names.bases.Exhausted (names.inBase written) [] seen)
    (h : names.resolveFrom written scope seen = some name) :
    ∃ around, around <:+ scope ∧ names.FoundIn written around name ∧
      ∀ inner, inner <:+ scope → around.length < inner.length →
        names.IsUnknownIn written inner := by
  induction scope generalizing seen with
  | nil =>
    refine ⟨[], List.suffix_rfl, resolveIn_eq_some hbases h, fun inner hinner hlt => ?_⟩
    obtain rfl := List.suffix_nil.1 hinner
    exact absurd hlt (Nat.lt_irrefl _)
  | cons first outer ih =>
    rw [resolveFrom] at h
    split at h
    next found _ hin =>
      obtain rfl := Option.some.inj h
      refine ⟨first :: outer, List.suffix_rfl, resolveIn_eq_some hbases (by rw [hin]), ?_⟩
      intro inner hinner hlt
      exact absurd hinner.length_le (Nat.not_le.2 hlt)
    next after hin =>
      obtain ⟨hunknown, hafter⟩ := resolveIn_eq_none hbases hseen hin
      obtain ⟨around, haround, hfound, hinner⟩ := ih hafter h
      refine ⟨around, haround.trans (List.suffix_cons _ _), hfound, fun inner hsuffix hlt => ?_⟩
      rcases List.suffix_cons_iff.1 hsuffix with rfl | hsuffix
      · exact hunknown
      · exact hinner inner hsuffix hlt

/-- Before the lookup no class has been seen. -/
theorem exhausted_nil : names.bases.Exhausted (names.inBase written) [] [] := by
  intro id hid
  cases hid

theorem resolve_eq_resolveFrom (h : Text.afterStart? "::" written = none) :
    names.resolve written scope = names.resolveFrom written scope [] := by
  rw [resolve, h]

theorem declares_of_resolveIn (h : (names.resolveIn written scope seen).1 = some name) :
    names.table.declares name = true := by
  rw [resolveIn] at h
  split at h
  next found _ hfind =>
    obtain rfl := Option.some.inj h
    exact List.find?_some hfind
  next record _ _ =>
    rw [searchBases] at h
    obtain ⟨-, -, base, -, -, hanswer⟩ := BaseGraph.searchDeep_eq_some h
    obtain ⟨hdeclares, heq⟩ := Option.ite_none_right_eq_some.1 hanswer
    exact Option.some.inj heq ▸ hdeclares
  next => cases h

/-- A name stands for a declared one, whatever the bases are. -/
theorem declares_of_resolve (h : names.resolve written scope = some name) :
    names.table.declares name = true := by
  have hfrom : ∀ scope seen, names.resolveFrom written scope seen = some name →
      names.table.declares name = true := by
    intro scope
    induction scope with
    | nil => exact fun seen h => declares_of_resolveIn h
    | cons inner outer ih =>
      intro seen h
      rw [resolveFrom] at h
      split at h
      next found _ hin =>
        obtain rfl := Option.some.inj h
        exact declares_of_resolveIn (by rw [hin])
      next => exact ih _ h
  rw [resolve] at h
  split at h
  next =>
    obtain ⟨hdeclares, heq⟩ := Option.ite_none_right_eq_some.1 h
    exact Option.some.inj heq ▸ hdeclares
  next => exact hfrom scope [] h

end Names

theorem Text.afterStart?_eq_none_iff {start s : String} :
    Text.afterStart? start s = none ↔ ¬ start.toList <+: s.toList := by
  simp [Text.afterStart?, Text.stripStart?]

namespace Names

/-- Let the graph of bases have an entry for each class; it may have cycles. A name that does not
start with `::` stands for nothing if and only if no scope from the innermost to the global one has
it, in itself, in an unnamed namespace there, or in a base of the class that the scope is. Otherwise
it stands for a name of the innermost scope that has any, and for one from a base only if the scope
itself declares none. -/
theorem resolve_innermost {names : Names} {written : String}
    (hbases : names.bases.length = names.records.length)
    (hwritten : ¬ "::".toList <+: written.toList) (scope : Scope) :
    (names.resolve written scope = none ↔
      ∀ around, around <:+ scope → names.IsUnknownIn written around) ∧
    ∀ name, names.resolve written scope = some name →
      ∃ around, around <:+ scope ∧ names.FoundIn written around name ∧
        ∀ inner, inner <:+ scope → around.length < inner.length →
          names.IsUnknownIn written inner := by
  rw [resolve_eq_resolveFrom (Text.afterStart?_eq_none_iff.2 hwritten)]
  refine ⟨⟨resolveFrom_eq_none hbases exhausted_nil, fun hunknown => ?_⟩,
    fun name => resolveFrom_eq_some hbases exhausted_nil⟩
  cases hfrom : names.resolveFrom written scope [] with
  | none => rfl
  | some name =>
    obtain ⟨around, haround, hfound, -⟩ := resolveFrom_eq_some hbases exhausted_nil hfrom
    exact absurd (hunknown around haround) hfound.not_isUnknownIn

/-- A class `O` with a class `O::I` inside. Both derive from `X`, which derives from `O::I` in turn,
and `O` also derives from `Y`, which has a type `T`. -/
def sharedBase : Names where
  table := [("O", some 0), ("O::I", some 1), ("X", some 2), ("Y", some 3), ("Y::T", none)]
  records := ["O", "O::I", "X", "Y"]
  bases := [[2, 3], [2], [1], []]

/-- From the inner class `X` has been seen when the bases of the outer one are searched. -/
theorem resolve_innermost_sharedBase :
    sharedBase.bases.length = sharedBase.records.length ∧
    ¬ "::".toList <+: "T".toList ∧ ¬ "::".toList <+: "U".toList ∧
    sharedBase.resolve "T" ["I", "O"] = some "Y::T" ∧
    (∃ around, around <:+ ["I", "O"] ∧ sharedBase.FoundIn "T" around "Y::T" ∧
      ∀ inner, inner <:+ ["I", "O"] → around.length < inner.length →
        sharedBase.IsUnknownIn "T" inner) ∧
    sharedBase.resolve "U" ["I", "O"] = none ∧
    ∀ around, around <:+ ["I", "O"] → sharedBase.IsUnknownIn "U" around := by
  have hlength : sharedBase.bases.length = sharedBase.records.length := by decide
  have hT : ¬ "::".toList <+: "T".toList := by decide
  have hU : ¬ "::".toList <+: "U".toList := by decide
  have hfound : sharedBase.resolve "T" ["I", "O"] = some "Y::T" := by decide +kernel
  have hnone : sharedBase.resolve "U" ["I", "O"] = none := by decide +kernel
  obtain ⟨-, hinnermost⟩ := resolve_innermost hlength hT ["I", "O"]
  obtain ⟨hunknown, -⟩ := resolve_innermost hlength hU ["I", "O"]
  exact ⟨hlength, hT, hU, hfound, hinnermost "Y::T" hfound, hnone, hunknown.1 hnone⟩

end Names

end ClassEdit
