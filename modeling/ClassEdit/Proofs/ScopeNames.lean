import ClassEdit.Reading.Collect

/-!
# Names and their scopes

A qualified name is a row of parts with `::` between them. Identifiers have no colon, so the parts
can be told from the name. The spelling of a name leaves out the parts that stand for unnamed
namespaces. Identifiers have no parenthesis, so it leaves out nothing else.

## Main definitions

* `IsNamePart`: no colon in a part of a name.
* `IsIdentifier`, `IsScopeName`: what declarations and scopes are called.
* `joinParts`: the name with the given parts.
* `IsDeclarationName`, `namedParts`: the parts of the name of a declaration, and those of them that
  are spelled.
* `Scope.IsPlain`: all scopes have such names.
* `RecordSource.components`: the parts of the name of a class.

## Main statements

* `qualify_joinParts`, `Scope.qualify_name`: qualification adds parts in front.
* `joinParts_inj`, `Scope.name_inj`: a name has its parts only.
* `Style.spellScopes_joinParts`, `Scope.spellScopes_name`: the spelling of a name.
* `Style.spellScopes_by_parts`: the spelling depends on the named parts only, and tells them.
* `RecordSource.qualifiedName_eq_joinParts`: the name of a class.
* `dropStart_of_components`: a written name, with or without colons in front.
-/

namespace ClassEdit

/-- A part of a qualified name. -/
def IsNamePart (part : String) : Prop :=
  part ≠ "" ∧ ':' ∉ part.toList

/-- A name that a text can declare. -/
def IsIdentifier (name : String) : Prop :=
  IsNamePart name ∧ '(' ∉ name.toList

/-- A name of a scope: an identifier, or what stands for an unnamed namespace. -/
def IsScopeName (name : String) : Prop :=
  IsIdentifier name ∨ name = unnamedNamespace

instance (part : String) : Decidable (IsNamePart part) :=
  inferInstanceAs (Decidable (_ ∧ _))

instance (name : String) : Decidable (IsIdentifier name) :=
  inferInstanceAs (Decidable (_ ∧ _))

instance (name : String) : Decidable (IsScopeName name) :=
  inferInstanceAs (Decidable (_ ∨ _))

theorem isNamePart_unnamedNamespace : IsNamePart unnamedNamespace := by
  decide

theorem IsScopeName.isNamePart {name : String} (h : IsScopeName name) : IsNamePart name := by
  obtain h | rfl := h
  · exact h.1
  · exact isNamePart_unnamedNamespace

theorem IsIdentifier.ne_unnamedNamespace {name : String} (h : IsIdentifier name) :
    name ≠ unnamedNamespace := by
  rintro rfl
  exact h.2 (by decide)

/-- The name with the given parts, the outermost first. -/
def joinParts (parts : List String) : String :=
  "::".intercalate parts

/-! ## The parts of a name -/

/-- Parts with `::` in front of each. -/
def partsAfter (parts : List String) : List Char :=
  parts.flatMap fun part => ':' :: ':' :: part.toList

theorem toList_joinParts_cons (part : String) (parts : List String) :
    (joinParts (part :: parts)).toList = part.toList ++ partsAfter parts := by
  induction parts generalizing part with
  | nil => simp [joinParts, partsAfter]
  | cons next parts ih =>
    have hrest := ih next
    simp only [joinParts, String.intercalate_cons_cons, String.toList_append] at hrest ⊢
    rw [hrest]
    simp [partsAfter]

/-- A part ends where the colons of the next one start. -/
theorem append_partsAfter_inj {a b : List Char} {xs ys : List String} (ha : ':' ∉ a)
    (hb : ':' ∉ b) (h : a ++ partsAfter xs = b ++ partsAfter ys) :
    a = b ∧ partsAfter xs = partsAfter ys := by
  have htake : ∀ (cs : List Char) (parts : List String), ':' ∉ cs →
      (cs ++ partsAfter parts).takeWhile (· ≠ ':') = cs := by
    intro cs parts hcs
    rw [List.takeWhile_append_of_pos (by grind)]
    cases parts <;> simp [partsAfter]
  have hab : a = b := by
    rw [← htake a xs ha, h, htake b ys hb]
  subst hab
  exact ⟨rfl, List.append_cancel_left h⟩

theorem partsAfter_inj {xs ys : List String} (hxs : ∀ x ∈ xs, IsNamePart x)
    (hys : ∀ y ∈ ys, IsNamePart y) (h : partsAfter xs = partsAfter ys) : xs = ys := by
  induction xs generalizing ys with
  | nil =>
    cases ys with
    | nil => rfl
    | cons y ys => simp [partsAfter] at h
  | cons x xs ih =>
    cases ys with
    | nil => simp [partsAfter] at h
    | cons y ys =>
      obtain ⟨hx, hxs⟩ := List.forall_mem_cons.1 hxs
      obtain ⟨hy, hys⟩ := List.forall_mem_cons.1 hys
      simp only [partsAfter, List.flatMap_cons, List.cons_append, List.cons.injEq, true_and] at h
      obtain ⟨hhead, hrest⟩ := append_partsAfter_inj hx.2 hy.2 h
      rw [String.toList_inj.1 hhead, ih hxs hys hrest]

theorem joinParts_ne_empty {part : String} {parts : List String} (h : IsNamePart part) :
    joinParts (part :: parts) ≠ "" := by
  intro hempty
  have := congrArg String.toList hempty
  rw [toList_joinParts_cons] at this
  exact h.1 (by simpa using (List.append_eq_nil_iff.1 this).1)

/-- A name has its parts only. -/
theorem joinParts_inj {xs ys : List String} (hxs : ∀ x ∈ xs, IsNamePart x)
    (hys : ∀ y ∈ ys, IsNamePart y) : joinParts xs = joinParts ys ↔ xs = ys := by
  refine ⟨fun h => ?_, congrArg joinParts⟩
  match xs, ys with
  | [], [] => rfl
  | [], y :: ys => exact absurd h.symm (joinParts_ne_empty (hys y List.mem_cons_self))
  | x :: xs, [] => exact absurd h (joinParts_ne_empty (hxs x List.mem_cons_self))
  | x :: xs, y :: ys =>
    refine partsAfter_inj hxs hys ?_
    have hlist := congrArg String.toList h
    rw [toList_joinParts_cons, toList_joinParts_cons] at hlist
    simpa [partsAfter] using hlist

theorem qualify_joinParts {xs ys : List String} (hxs : ∀ x ∈ xs, IsNamePart x) (hys : ys ≠ []) :
    qualify (joinParts xs) (joinParts ys) = joinParts (xs ++ ys) := by
  cases xs with
  | nil => simp [qualify, joinParts]
  | cons x xs =>
    have hne : joinParts (x :: xs) ≠ "" := joinParts_ne_empty (hxs x List.mem_cons_self)
    rw [qualify, if_neg (by simpa using hne), joinParts, joinParts, joinParts,
      String.intercalate_append_of_ne_nil (List.cons_ne_nil _ _) hys]

/-- A name of parts does not start with colons. -/
theorem afterStart?_joinParts {part : String} {parts : List String} (h : IsNamePart part) :
    Text.afterStart? "::" (joinParts (part :: parts)) = none := by
  rw [Text.afterStart?, toList_joinParts_cons]
  cases hpart : part.toList with
  | nil => exact absurd (by simpa using hpart) h.1
  | cons c cs =>
    have hne : ':' ≠ c := fun hc => h.2 (by rw [hpart, hc]; exact List.mem_cons_self)
    simp [Text.stripStart?, List.isPrefixOf, hne]

/-! ## The spelling of a name -/

namespace Text

variable {pattern replacement : List Char}

theorem replaceFrom_length_append (cs rest : List Char) :
    replaceFrom pattern replacement cs.length (cs ++ rest) =
      replaceFrom pattern replacement 0 rest := by
  induction cs with
  | nil => rfl
  | cons c cs ih => simpa [replaceFrom] using ih

theorem replaceFrom_pattern_append (hpattern : pattern ≠ []) (rest : List Char) :
    replaceFrom pattern replacement 0 (pattern ++ rest) =
      replacement ++ replaceFrom pattern replacement 0 rest := by
  obtain ⟨c, cs, rfl⟩ := List.exists_cons_of_ne_nil hpattern
  rw [List.cons_append, replaceFrom, if_pos (by simp [List.isPrefixOf_iff_prefix])]
  simp [replaceFrom_length_append]

/-- Characters that no occurrence starts with are kept. -/
theorem replaceFrom_append_of_notMem {c : Char} {part : List Char}
    (hpattern : pattern.head? = some c) (hpart : c ∉ part) (rest : List Char) :
    replaceFrom pattern replacement 0 (part ++ rest) =
      part ++ replaceFrom pattern replacement 0 rest := by
  induction part with
  | nil => rfl
  | cons d part ih =>
    have hstart : pattern.isPrefixOf (d :: (part ++ rest)) = false := by
      obtain ⟨cs, rfl⟩ := List.head?_eq_some_iff.1 hpattern
      have hne : c ≠ d := fun h => hpart (h ▸ List.mem_cons_self)
      simp [List.isPrefixOf, hne]
    simp [replaceFrom, hstart, ih fun h => hpart (List.mem_cons_of_mem d h)]

end Text

namespace Style

theorem toList_spellScopes (name : String) : (qualified.spellScopes name).toList =
    Text.replaceFrom (unnamedNamespace ++ "::").toList [] 0 name.toList :=
  String.toList_ofList

theorem spellScopes_append_of_notMem {part : String} (h : '(' ∉ part.toList) (rest : String) :
    qualified.spellScopes (part ++ rest) = part ++ qualified.spellScopes rest := by
  have hpattern : (unnamedNamespace ++ "::").toList.head? = some '(' := by decide
  have hsplit : ∀ tail : String, (part ++ tail).toList = part.toList ++ tail.toList :=
    fun _ => String.toList_append
  rw [← String.toList_inj, toList_spellScopes, hsplit,
    Text.replaceFrom_append_of_notMem hpattern h, hsplit, toList_spellScopes]

theorem spellScopes_unnamedNamespace_append (rest : String) :
    qualified.spellScopes (unnamedNamespace ++ "::" ++ rest) = qualified.spellScopes rest := by
  have hpattern : (unnamedNamespace ++ "::").toList ≠ [] := by decide
  have hsplit : (unnamedNamespace ++ "::" ++ rest).toList =
      (unnamedNamespace ++ "::").toList ++ rest.toList := String.toList_append
  rw [← String.toList_inj, toList_spellScopes, toList_spellScopes, hsplit,
    Text.replaceFrom_pattern_append hpattern, List.nil_append]

/-- A name is spelled without the unnamed namespaces among its scopes. -/
theorem spellScopes_joinParts {scopes : List String} {name : String}
    (hscopes : ∀ scope ∈ scopes, IsScopeName scope) (hname : IsIdentifier name) :
    qualified.spellScopes (joinParts (scopes ++ [name])) =
      joinParts (scopes.filter (· ≠ unnamedNamespace) ++ [name]) := by
  induction scopes with
  | nil =>
    have hempty : qualified.spellScopes "" = "" := rfl
    have := spellScopes_append_of_notMem hname.2 ""
    simpa [joinParts, hempty] using this
  | cons scope scopes ih =>
    obtain ⟨hscope, hrest⟩ := List.forall_mem_cons.1 hscopes
    have hsplit : ∀ rest : List String, joinParts (scope :: (rest ++ [name])) =
        scope ++ "::" ++ joinParts (rest ++ [name]) :=
      fun rest => String.intercalate_cons_of_ne_nil (by simp)
    rw [List.cons_append, hsplit]
    obtain hscope | rfl := hscope
    · have hcolons : '(' ∉ (scope ++ "::").toList := by simpa using hscope.2
      rw [spellScopes_append_of_notMem hcolons, ih hrest,
        List.filter_cons_of_pos (by simpa using hscope.ne_unnamedNamespace), List.cons_append,
        hsplit]
    · rw [spellScopes_unnamedNamespace_append, ih hrest, List.filter_cons_of_neg (by simp)]

end Style

/-- The parts of the name of a declaration: scopes, and at the end what is declared. -/
structure IsDeclarationName (parts : List String) : Prop where
  scopes : ∀ part ∈ parts, IsScopeName part
  last : ∃ name ∈ parts.getLast?, IsIdentifier name

/-- The parts of a name that a text can spell. -/
def namedParts (parts : List String) : List String :=
  parts.filter (· ≠ unnamedNamespace)

theorem namedParts_namedParts (parts : List String) :
    namedParts (namedParts parts) = namedParts parts := by
  simp [namedParts]

namespace IsDeclarationName

variable {parts : List String}

theorem spellScopes_eq (h : IsDeclarationName parts) :
    Style.qualified.spellScopes (joinParts parts) = joinParts (namedParts parts) := by
  obtain ⟨name, hlast, hname⟩ := h.last
  obtain ⟨scopes, rfl⟩ := List.getLast?_eq_some_iff.1 hlast
  rw [Style.spellScopes_joinParts (fun scope hscope => h.scopes scope (by simp [hscope])) hname,
    namedParts, List.filter_append,
    List.filter_cons_of_pos (by simpa using hname.ne_unnamedNamespace)]
  rfl

/-- The named parts still end in what is declared. -/
theorem named (h : IsDeclarationName parts) : IsDeclarationName (namedParts parts) := by
  obtain ⟨name, hlast, hname⟩ := h.last
  obtain ⟨scopes, rfl⟩ := List.getLast?_eq_some_iff.1 hlast
  refine ⟨fun part hpart => h.scopes part (List.mem_filter.1 hpart).1, name, ?_, hname⟩
  simp [namedParts, hname.ne_unnamedNamespace]

theorem isNamePart (h : IsDeclarationName parts) : ∀ part ∈ parts, IsNamePart part :=
  fun part hpart => (h.scopes part hpart).isNamePart

end IsDeclarationName

/-- The name of a declaration is spelled as the name with its named parts. So a spelling is spelled
as it is, and two names are spelled alike if and only if they differ in unnamed namespaces only,
wherever these stand. -/
theorem Style.spellScopes_by_parts {parts : List String} (h : IsDeclarationName parts) :
    qualified.spellScopes (joinParts parts) = joinParts (namedParts parts) ∧
    qualified.spellScopes (qualified.spellScopes (joinParts parts)) =
      qualified.spellScopes (joinParts parts) ∧
    ∀ others, IsDeclarationName others →
      (qualified.spellScopes (joinParts others) = qualified.spellScopes (joinParts parts) ↔
        namedParts others = namedParts parts) := by
  refine ⟨h.spellScopes_eq, ?_, fun others hothers => ?_⟩
  · rw [h.spellScopes_eq, h.named.spellScopes_eq, namedParts_namedParts]
  · rw [h.spellScopes_eq, hothers.spellScopes_eq]
    exact joinParts_inj hothers.named.isNamePart h.named.isNamePart

/-- Unnamed namespaces in front, twice in a row, and between other scopes. -/
def nestedUnnamed : List String :=
  [unnamedNamespace, unnamedNamespace, "app", unnamedNamespace, "Arg"]

theorem Style.spellScopes_by_parts_nestedUnnamed :
    IsDeclarationName nestedUnnamed ∧ IsDeclarationName ["app", unnamedNamespace, "Arg"] ∧
      qualified.spellScopes (joinParts nestedUnnamed) = "app::Arg" ∧
      qualified.spellScopes "app::Arg" = "app::Arg" ∧
      qualified.spellScopes (joinParts ["app", unnamedNamespace, "Arg"]) = "app::Arg" := by
  have h : IsDeclarationName nestedUnnamed := ⟨by decide, "Arg", rfl, by decide⟩
  have hothers : IsDeclarationName ["app", unnamedNamespace, "Arg"] :=
    ⟨by decide, "Arg", rfl, by decide⟩
  have hnamed : joinParts (namedParts nestedUnnamed) = "app::Arg" := by decide +kernel
  obtain ⟨hspelled, htwice, halike⟩ := Style.spellScopes_by_parts h
  rw [hnamed] at hspelled
  rw [hspelled] at htwice halike
  exact ⟨h, hothers, hspelled, htwice, (halike _ hothers).2 (by decide)⟩

/-! ## Scopes -/

namespace Scope

/-- All scopes are identifiers or unnamed. -/
def IsPlain (scope : Scope) : Prop :=
  ∀ part ∈ scope, IsScopeName part

instance (scope : Scope) : Decidable scope.IsPlain :=
  inferInstanceAs (Decidable (∀ part ∈ scope, IsScopeName part))

variable {scope inner outer : Scope} {name : String}

theorem IsPlain.cons (hname : IsScopeName name) (h : scope.IsPlain) :
    IsPlain (name :: scope) :=
  List.forall_mem_cons.2 ⟨hname, h⟩

theorem IsPlain.append (hinner : inner.IsPlain) (houter : outer.IsPlain) :
    IsPlain (inner ++ outer) :=
  List.forall_mem_append.2 ⟨hinner, houter⟩

theorem IsPlain.filter (h : scope.IsPlain) (keep : String → Bool) :
    IsPlain (List.filter keep scope) :=
  fun part hpart => h part (List.mem_filter.1 hpart).1

theorem IsPlain.isNamePart (h : scope.IsPlain) : ∀ part ∈ scope.reverse, IsNamePart part :=
  fun part hpart => (h part (List.mem_reverse.1 hpart)).isNamePart

/-- Qualification puts the scope around the name. -/
theorem qualify_name (houter : outer.IsPlain) (hinner : inner ≠ []) :
    qualify outer.name inner.name = Scope.name (inner ++ outer) := by
  rw [Scope.name, Scope.name, Scope.name, List.reverse_append]
  exact qualify_joinParts houter.isNamePart (by simpa using hinner)

theorem qualify_name_cons (h : scope.IsPlain) (name : String) :
    qualify scope.name name = Scope.name (name :: scope) := by
  have hname : Scope.name [name] = name := String.intercalate_singleton
  have hqualify := qualify_name h (List.cons_ne_nil name [])
  rwa [hname, List.singleton_append] at hqualify

theorem name_inj (hinner : inner.IsPlain) (houter : outer.IsPlain) :
    inner.name = outer.name ↔ inner = outer :=
  (joinParts_inj hinner.isNamePart houter.isNamePart).trans List.reverse_inj

theorem afterStart?_name (h : scope.IsPlain) (hne : scope ≠ []) :
    Text.afterStart? "::" scope.name = none := by
  obtain ⟨part, parts, hparts⟩ := List.exists_cons_of_ne_nil (List.reverse_ne_nil_iff.2 hne)
  have hpart : IsNamePart part := h.isNamePart part (hparts ▸ List.mem_cons_self)
  rw [Scope.name, hparts]
  exact afterStart?_joinParts hpart

theorem spellScopes_name (h : scope.IsPlain) (hname : IsIdentifier name) :
    Style.qualified.spellScopes (Scope.name (name :: scope)) =
      Scope.name (name :: scope.filter (· ≠ unnamedNamespace)) := by
  rw [Scope.name, Scope.name, List.reverse_cons, List.reverse_cons, ← List.filter_reverse]
  exact Style.spellScopes_joinParts (fun part hpart => h part (List.mem_reverse.1 hpart)) hname

end Scope

/-! ## Classes -/

/-- The names of the scopes around a class, the outermost first, and its own name. -/
def RecordSource.components (r : RecordSource) : List String :=
  r.scope.reverse ++ [r.name]

theorem RecordSource.qualifiedName_eq_joinParts {r : RecordSource}
    (h : ∀ part ∈ r.components, IsNamePart part) : r.qualifiedName = joinParts r.components := by
  have hscope : ∀ part ∈ r.scope.reverse, IsNamePart part :=
    fun part hpart => h part (List.mem_append_left _ hpart)
  rw [components, ← qualify_joinParts hscope (List.cons_ne_nil _ _)]
  simp [joinParts, RecordSource.qualifiedName, Scope.name]

/-- A written name of some components, with or without colons in front of the first. -/
theorem dropStart_of_components {query : List String} {written : String} (hne : query ≠ [])
    (hquery : ∀ part ∈ query, IsNamePart part)
    (hwritten : written = joinParts query ∨ written = "::" ++ joinParts query) :
    Text.dropStart "::" written = joinParts query := by
  obtain ⟨head, tail, rfl⟩ := List.exists_cons_of_ne_nil hne
  obtain rfl | rfl := hwritten
  · rw [Text.dropStart, afterStart?_joinParts (hquery head List.mem_cons_self)]
    rfl
  · simp [Text.dropStart, Text.afterStart?, Text.stripStart?, List.isPrefixOf]

end ClassEdit
