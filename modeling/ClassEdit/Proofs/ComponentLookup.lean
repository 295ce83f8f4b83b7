import ClassEdit.Proofs.ClassNumbers
import Mathlib.Data.List.Find
import Mathlib.Data.String.Basic

/-!
# Classes by the components of their names

A class is found by comparing texts: the qualified name, or the end of it after `::`. The
components of names have no colon, so a text ends after `::` in the written name exactly if the
components end in those of the written name, and more components come before. The names of several
candidates are listed once each and in order, so the list is determined by its members.

## Main definitions

* `TranslationUnit.componentsOf`: the components of the definition of a class.

## Main statements

* `endsIn_joinParts_iff`: the end of a name as a text and as components.
* `pairwise_distinctNames`, `mem_distinctNames`: the distinct names of a list.
* `TranslationUnit.findRecord_by_components`: the class that a name finds.
-/

namespace ClassEdit

/-! ## Ends of names -/

theorem partsAfter_append (xs ys : List String) :
    partsAfter (xs ++ ys) = partsAfter xs ++ partsAfter ys :=
  List.flatMap_append

theorem partsAfter_cons (part : String) (parts : List String) :
    partsAfter (part :: parts) = ':' :: ':' :: (part.toList ++ partsAfter parts) := by
  simp [partsAfter]

/-- What starts with a colon does not start inside of a part. -/
theorem colon_suffix_of_append {first rest cs : List Char} (hfirst : ':' ∉ first)
    (h : ':' :: cs <:+ first ++ rest) : ':' :: cs <:+ rest := by
  induction first with
  | nil => exact h
  | cons c first ih =>
    obtain heq | hsuffix := List.suffix_cons_iff.1 h
    · grind
    · exact ih (fun hmem => hfirst (List.mem_cons_of_mem c hmem)) hsuffix

/-- Parts with colons in front end a name exactly if they are the last parts of it. -/
theorem partsAfter_suffix_iff {query parts : List String} {first : List Char}
    (hfirst : ':' ∉ first) (hparts : ∀ part ∈ parts, IsNamePart part)
    (hquery : ∀ part ∈ query, IsNamePart part) (hne : query ≠ []) :
    partsAfter query <:+ first ++ partsAfter parts ↔ query <:+ parts := by
  constructor
  · intro h
    obtain ⟨head, tail, rfl⟩ := List.exists_cons_of_ne_nil hne
    induction parts generalizing first with
    | nil =>
      rw [partsAfter_cons] at h
      have := colon_suffix_of_append hfirst h
      simp [partsAfter] at this
    | cons part parts ih =>
      obtain ⟨hpart, hrest⟩ := List.forall_mem_cons.1 hparts
      rw [partsAfter_cons] at h
      have hcolons := colon_suffix_of_append hfirst h
      rw [← partsAfter_cons, partsAfter_cons part, List.suffix_cons_iff] at hcolons
      obtain heq | hinner := hcolons
      · rw [← partsAfter_cons] at heq
        exact partsAfter_inj hquery hparts heq ▸ List.suffix_rfl
      · obtain heq | hinner := List.suffix_cons_iff.1 hinner
        · -- the second colon of the query would start the part
          rw [partsAfter_cons, List.cons.injEq] at heq
          obtain ⟨c, cs, hcons⟩ := List.exists_cons_of_ne_nil
            (show part.toList ≠ [] by simpa using hpart.1)
          grind [hpart.2]
        · exact (ih hpart.2 hrest hinner).trans (List.suffix_cons part parts)
  · rintro ⟨front, rfl⟩
    rw [partsAfter_append]
    exact List.suffix_append_of_suffix (List.suffix_append _ _)

theorem toList_colons_joinParts {query : List String} (hne : query ≠ []) :
    ("::" ++ joinParts query).toList = partsAfter query := by
  obtain ⟨head, tail, rfl⟩ := List.exists_cons_of_ne_nil hne
  rw [String.toList_append, toList_joinParts_cons, partsAfter_cons]
  rfl

/-- A name ends in another one after `::` exactly if its last components are those of that one, and
there are more in front of them. -/
theorem endsIn_joinParts_iff {query parts : List String}
    (hparts : ∀ part ∈ parts, IsNamePart part) (hquery : ∀ part ∈ query, IsNamePart part)
    (hne : query ≠ []) :
    Text.endsIn (joinParts parts) ("::" ++ joinParts query) = true ↔
      query <:+ parts ∧ parts ≠ query := by
  rw [Text.endsIn, List.isSuffixOf_iff_suffix, toList_colons_joinParts hne]
  cases parts with
  | nil =>
    obtain ⟨head, tail, rfl⟩ := List.exists_cons_of_ne_nil hne
    simp [joinParts, partsAfter_cons]
  | cons part parts =>
    obtain ⟨hpart, hrest⟩ := List.forall_mem_cons.1 hparts
    rw [toList_joinParts_cons, partsAfter_suffix_iff hpart.2 hrest hquery hne,
      List.suffix_cons_iff]
    constructor
    · intro h
      refine ⟨.inr h, fun heq => ?_⟩
      have := h.length_le
      rw [← heq, List.length_cons] at this
      omega
    · grind

/-! ## Distinct names -/

theorem mem_insertName {name other : String} {names : List String} :
    other ∈ insertName name names ↔ other = name ∨ other ∈ names := by
  fun_induction insertName name names <;> grind

theorem pairwise_insertName {name : String} {names : List String} (h : names.Pairwise (· < ·)) :
    (insertName name names).Pairwise (· < ·) := by
  fun_induction insertName name names with
  | case1 => exact List.pairwise_singleton _ _
  | case2 rest => exact h
  | case3 other rest hne hlt =>
    refine List.pairwise_cons.2 ⟨fun later hlater => ?_, h⟩
    obtain rfl | hlater := List.mem_cons.1 hlater
    · exact hlt
    · exact String.lt_trans hlt ((List.pairwise_cons.1 h).1 later hlater)
  | case4 other rest hne hlt ih =>
    obtain ⟨hother, hrest⟩ := List.pairwise_cons.1 h
    refine List.pairwise_cons.2 ⟨fun later hlater => ?_, ih hrest⟩
    obtain rfl | hlater := mem_insertName.1 hlater
    · exact ((lt_trichotomy _ _).resolve_left hlt).resolve_left hne
    · exact hother later hlater

/-- The distinct names are those of the list. -/
theorem mem_distinctNames {name : String} {names : List String} :
    name ∈ distinctNames names ↔ name ∈ names := by
  induction names with
  | nil => rfl
  | cons other names ih =>
    rw [distinctNames, List.foldr_cons, mem_insertName, ← distinctNames, ih, List.mem_cons]

/-- The distinct names are in increasing order. -/
theorem pairwise_distinctNames (names : List String) :
    (distinctNames names).Pairwise (· < ·) := by
  induction names with
  | nil => exact List.Pairwise.nil
  | cons name names ih => exact pairwise_insertName ih

/-- Names in increasing order are known by their members. -/
theorem eq_of_pairwise_lt_of_mem_iff {xs ys : List String} (hxs : xs.Pairwise (· < ·))
    (hys : ys.Pairwise (· < ·)) (h : ∀ name, name ∈ xs ↔ name ∈ ys) : xs = ys :=
  List.Perm.eq_of_pairwise (fun _ _ _ _ hlt hgt => absurd hgt (String.lt_asymm hlt)) hxs hys
    ((List.perm_ext_iff_of_nodup hxs.nodup hys.nodup).2 h)

/-! ## Candidates -/

namespace TranslationUnit

section Candidates

variable {u : TranslationUnit} {written name : String} {matching : List Record}
  (hname : Text.dropStart "::" written = name)
  (hwhole : u.records.find? (·.qualifiedName == name) = none)
  (hmatching : (u.records.filter fun record => Text.endsIn record.qualifiedName ("::" ++ name)) =
    matching)

include hname hwhole hmatching

theorem findRecord_of_nil (hnil : matching = []) :
    u.findRecord written = .error (.notFound name) := by
  rw [findRecord]
  simp only [hname, hwhole, hmatching, hnil]

/-- Candidates with one name stand for the first of them. -/
theorem findRecord_of_same {record : Record} (hfirst : matching.head? = some record)
    (hsame : ∀ other ∈ matching, other.qualifiedName = record.qualifiedName) :
    u.findRecord written = .ok record := by
  obtain ⟨rest, rfl⟩ := List.head?_eq_some_iff.1 hfirst
  have hdistinct : distinctNames ((record :: rest).map (·.qualifiedName)) =
      [record.qualifiedName] := by
    refine eq_of_pairwise_lt_of_mem_iff (pairwise_distinctNames _)
      (List.pairwise_singleton _ _) fun other => ?_
    rw [mem_distinctNames, List.mem_map, List.mem_singleton]
    constructor
    · rintro ⟨candidate, hcandidate, rfl⟩
      exact hsame candidate hcandidate
    · rintro rfl
      exact ⟨record, List.mem_cons_self, rfl⟩
  rw [findRecord]
  simp only [hname, hwhole, hmatching, hdistinct]

/-- Candidates with different names are listed by their names. -/
theorem findRecord_of_differ {a b : Record} (ha : a ∈ matching) (hb : b ∈ matching)
    (hne : a.qualifiedName ≠ b.qualifiedName) :
    u.findRecord written =
      .error (.ambiguous name (distinctNames (matching.map (·.qualifiedName)))) := by
  obtain ⟨first, rest, hcons⟩ := List.exists_cons_of_ne_nil (List.ne_nil_of_mem ha)
  have hmem : ∀ record ∈ matching,
      record.qualifiedName ∈ distinctNames (matching.map (·.qualifiedName)) :=
    fun record hrecord => mem_distinctNames.2 (List.mem_map_of_mem hrecord)
  rw [findRecord]
  simp only [hname, hwhole, hmatching]
  generalize distinctNames (matching.map (·.qualifiedName)) = names at hmem
  subst hcons
  obtain _ | ⟨x, _ | ⟨y, names⟩⟩ := names
  · exact absurd (hmem a ha) List.not_mem_nil
  · exact absurd ((List.mem_singleton.1 (hmem a ha)).trans
      (List.mem_singleton.1 (hmem b hb)).symm) hne
  · rfl

/-- There are no candidates, or they share their name, or two of them differ in it. -/
theorem findRecord_cases :
    (matching = [] ∧ u.findRecord written = .error (.notFound name)) ∨
    (∃ record, matching.head? = some record ∧
      (∀ other ∈ matching, other.qualifiedName = record.qualifiedName) ∧
      u.findRecord written = .ok record) ∨
    (∃ a ∈ matching, ∃ b ∈ matching, a.qualifiedName ≠ b.qualifiedName) ∧
      u.findRecord written =
        .error (.ambiguous name (distinctNames (matching.map (·.qualifiedName)))) := by
  cases hfirst : matching.head? with
  | none =>
    have hnil := List.head?_eq_none_iff.1 hfirst
    exact .inl ⟨hnil, findRecord_of_nil hname hwhole hmatching hnil⟩
  | some record =>
    by_cases hsame : ∀ other ∈ matching, other.qualifiedName = record.qualifiedName
    · exact .inr (.inl ⟨record, rfl, hsame, findRecord_of_same hname hwhole hmatching hfirst hsame⟩)
    · push Not at hsame
      obtain ⟨other, hother, hne⟩ := hsame
      have hrecord := List.mem_of_head? hfirst
      exact .inr (.inr ⟨⟨other, hother, record, hrecord, hne⟩,
        findRecord_of_differ hname hwhole hmatching hother hrecord hne⟩)

theorem findRecord_eq_ok_iff (record : Record) :
    u.findRecord written = .ok record ↔ matching.head? = some record ∧
      ∀ other ∈ matching, other.qualifiedName = record.qualifiedName := by
  refine ⟨fun h => ?_, fun h => findRecord_of_same hname hwhole hmatching h.1 h.2⟩
  obtain ⟨-, hfound⟩ | ⟨first, hfirst, hsame, hfound⟩ | ⟨-, hfound⟩ :=
    findRecord_cases hname hwhole hmatching
  · cases hfound.symm.trans h
  · cases hfound.symm.trans h
    exact ⟨hfirst, hsame⟩
  · cases hfound.symm.trans h

theorem findRecord_eq_notFound_iff (missing : String) :
    u.findRecord written = .error (.notFound missing) ↔ missing = name ∧ matching = [] := by
  refine ⟨fun h => ?_, fun h => h.1 ▸ findRecord_of_nil hname hwhole hmatching h.2⟩
  obtain ⟨hnil, hfound⟩ | ⟨_, -, -, hfound⟩ | ⟨-, hfound⟩ :=
    findRecord_cases hname hwhole hmatching
  · cases hfound.symm.trans h
    exact ⟨rfl, hnil⟩
  · cases hfound.symm.trans h
  · cases hfound.symm.trans h

theorem findRecord_eq_ambiguous_iff (several : String) (candidates : List String) :
    u.findRecord written = .error (.ambiguous several candidates) ↔ several = name ∧
      (∃ a ∈ matching, ∃ b ∈ matching, a.qualifiedName ≠ b.qualifiedName) ∧
      candidates.Pairwise (· < ·) ∧
      ∀ candidate, candidate ∈ candidates ↔
        ∃ record ∈ matching, record.qualifiedName = candidate := by
  have hmem : ∀ candidate, candidate ∈ distinctNames (matching.map (·.qualifiedName)) ↔
      ∃ record ∈ matching, record.qualifiedName = candidate :=
    fun candidate => mem_distinctNames.trans List.mem_map
  constructor
  · intro h
    obtain ⟨-, hfound⟩ | ⟨_, -, -, hfound⟩ | ⟨hdiffer, hfound⟩ :=
      findRecord_cases hname hwhole hmatching
    · cases hfound.symm.trans h
    · cases hfound.symm.trans h
    · cases hfound.symm.trans h
      exact ⟨rfl, hdiffer, pairwise_distinctNames _, hmem⟩
  · rintro ⟨rfl, ⟨a, ha, b, hb, hne⟩, hincreasing, hmembers⟩
    rw [findRecord_of_differ hname hwhole hmatching ha hb hne,
      eq_of_pairwise_lt_of_mem_iff hincreasing (pairwise_distinctNames _)
        fun candidate => (hmembers candidate).trans (hmem candidate).symm]

end Candidates

end TranslationUnit

/-! ## Components -/

namespace TranslationUnit

/-- The components of the definition of a class. -/
def componentsOf (document : Document) (tree : Tree) (record : Record) : List String :=
  ((definitions document tree)[record.id]?.map (·.components)).getD []

variable {document : Document} {tree : Tree} {hasErrors : Bool}

/-- The qualified name of a class is made up of its components. -/
theorem qualifiedName_eq_joinParts_componentsOf
    (hnames : ∀ definition ∈ definitions document tree, ∀ part ∈ definition.components,
      IsNamePart part)
    {record : Record} (hrecord : record ∈ (ofTree document tree hasErrors).records) :
    record.qualifiedName = joinParts (componentsOf document tree record) ∧
      ∀ part ∈ componentsOf document tree record, IsNamePart part := by
  obtain ⟨definition, isDynamic, hdefinition, heq⟩ := exists_definition (getElem?_of_mem hrecord)
  have hparts := hnames definition (List.mem_of_getElem? hdefinition)
  rw [componentsOf, hdefinition]
  refine ⟨?_, hparts⟩
  rw [heq]
  exact definition.qualifiedName_eq_joinParts hparts

/-- A name of components finds the first class that has exactly these. If there is none, it stands
for the classes that have these at the end: for the first of them if they share their qualified
name. It is not found exactly if there are no such classes, and is ambiguous otherwise, with the
qualified names of these classes as the candidates, in increasing order and once each. -/
theorem findRecord_by_components (document : Document) (tree : Tree) (hasErrors : Bool)
    (hnames : ∀ definition ∈ definitions document tree, ∀ part ∈ definition.components,
      IsNamePart part)
    {query : List String} (hne : query ≠ []) (hquery : ∀ part ∈ query, IsNamePart part)
    {written : String} (hwritten : written = joinParts query ∨ written = "::" ++ joinParts query) :
    let u := ofTree document tree hasErrors
    let parts := componentsOf document tree
    let matching := u.records.filter fun record => query <:+ parts record ∧ parts record ≠ query
    (∀ record, u.records.find? (parts · = query) = some record →
      u.findRecord written = .ok record) ∧
    ((∀ record ∈ u.records, parts record ≠ query) →
      (∀ record, u.findRecord written = .ok record ↔ matching.head? = some record ∧
        ∀ other ∈ matching, other.qualifiedName = record.qualifiedName) ∧
      (∀ name, u.findRecord written = .error (.notFound name) ↔
        name = joinParts query ∧ matching = []) ∧
      ∀ name candidates, u.findRecord written = .error (.ambiguous name candidates) ↔
        name = joinParts query ∧
        (∃ a ∈ matching, ∃ b ∈ matching, a.qualifiedName ≠ b.qualifiedName) ∧
        candidates.Pairwise (· < ·) ∧
        ∀ candidate, candidate ∈ candidates ↔
          ∃ record ∈ matching, record.qualifiedName = candidate) := by
  intro u parts matching
  have hname := dropStart_of_components hne hquery hwritten
  have hrecords : ∀ record ∈ u.records, record.qualifiedName = joinParts (parts record) ∧
      ∀ part ∈ parts record, IsNamePart part :=
    fun record hrecord => qualifiedName_eq_joinParts_componentsOf hnames hrecord
  have hfind : u.records.find? (·.qualifiedName == joinParts query) =
      u.records.find? (parts · = query) := by
    refine List.find?_congr fun record hrecord => ?_
    obtain ⟨hjoin, hparts⟩ := hrecords record hrecord
    rw [Bool.eq_iff_iff, beq_iff_eq, decide_eq_true_eq, hjoin, joinParts_inj hparts hquery]
  have hmatching : (u.records.filter fun record =>
      Text.endsIn record.qualifiedName ("::" ++ joinParts query)) = matching := by
    refine List.filter_congr fun record hrecord => ?_
    obtain ⟨hjoin, hparts⟩ := hrecords record hrecord
    rw [Bool.eq_iff_iff, decide_eq_true_eq, hjoin, endsIn_joinParts_iff hparts hquery hne]
  refine ⟨fun record hrecord => ?_, fun hother => ?_⟩
  · rw [findRecord]
    simp only [hname, hfind, hrecord]
  · have hwhole : u.records.find? (·.qualifiedName == joinParts query) = none := by
      rw [hfind, List.find?_eq_none]
      simpa using hother
    exact ⟨findRecord_eq_ok_iff hname hwhole hmatching,
      findRecord_eq_notFound_iff hname hwhole hmatching,
      findRecord_eq_ambiguous_iff hname hwhole hmatching⟩

/-- A class in each of two namespaces, both with one name. -/
def sameNames : Document where
  text := ("namespace a \x7b struct I \x7b\x7d; \x7d\n" ++
    "namespace b \x7b struct I \x7b\x7d; \x7d\n").toList

/-- The tree of a namespace with a class. -/
def namespaceTree (start : Nat) : Tree :=
  .node ⟨.namespaceDefinition, none, start, start + 28, true, false⟩
    [.terminal start (start + 9),
      .node ⟨.other, some .name, start + 10, start + 11, true, false⟩ [],
      .node ⟨.declarationList, some .body, start + 12, start + 28, true, false⟩
        [.terminal (start + 12) (start + 13), bareStructTree (start + 14),
          .terminal (start + 25) (start + 26), .terminal (start + 27) (start + 28)]]

/-- The tree of `sameNames`. -/
def sameNamesTree : Tree :=
  .node ⟨.other, none, 0, 58, true, false⟩ [namespaceTree 0, namespaceTree 29]

theorem findRecord_by_components_sameNames :
    let u := ofTree sameNames sameNamesTree false
    u.findRecord "::I" = .error (.ambiguous "I" ["a::I", "b::I"]) ∧
    ∃ record, record.qualifiedName = "b::I" ∧ u.findRecord "b::I" = .ok record := by
  intro u
  have hcomponents : (definitions sameNames sameNamesTree).map (·.components) =
      [["a", "I"], ["b", "I"]] := by decide +kernel
  have hnames : ∀ definition ∈ definitions sameNames sameNamesTree,
      ∀ part ∈ definition.components, IsNamePart part := by
    intro definition hdefinition
    have hmem := List.mem_map_of_mem (f := RecordSource.components) hdefinition
    rw [hcomponents] at hmem
    obtain h | h : definition.components = ["a", "I"] ∨ definition.components = ["b", "I"] := by
      simpa using hmem
    all_goals rw [h]; decide
  constructor
  · have hother : ∀ record ∈ u.records, componentsOf sameNames sameNamesTree record ≠ ["I"] := by
      decide +kernel
    have hmatching : (u.records.filter fun record =>
        ["I"] <:+ componentsOf sameNames sameNamesTree record ∧
          componentsOf sameNames sameNamesTree record ≠ ["I"]).map (·.qualifiedName) =
        ["a::I", "b::I"] := by decide +kernel
    have hwritten : "::I" = joinParts ["I"] ∨ "::I" = "::" ++ joinParts ["I"] := by decide
    have hambiguous := ((findRecord_by_components sameNames sameNamesTree false hnames
      (List.cons_ne_nil "I" []) (by decide) hwritten).2 hother).2.2
    generalize (u.records.filter fun record =>
        ["I"] <:+ componentsOf sameNames sameNamesTree record ∧
          componentsOf sameNames sameNamesTree record ≠ ["I"]) = matching at hmatching hambiguous
    have hmem : ∀ name, name ∈ ["a::I", "b::I"] ↔
        ∃ record ∈ matching, record.qualifiedName = name := by
      intro name
      rw [← hmatching, List.mem_map]
    obtain ⟨a, ha, haname⟩ := (hmem "a::I").1 (by simp)
    obtain ⟨b, hb, hbname⟩ := (hmem "b::I").1 (by simp)
    have hne : a.qualifiedName ≠ b.qualifiedName := by
      rw [haname, hbname]
      decide
    exact (hambiguous "I" ["a::I", "b::I"]).2
      ⟨by decide, ⟨a, ha, b, hb, hne⟩, by decide, hmem⟩
  · have hfirst : (u.records.find? (componentsOf sameNames sameNamesTree · = ["b", "I"])).map
        (·.qualifiedName) = some "b::I" := by decide +kernel
    obtain ⟨record, hrecord, hname⟩ := Option.map_eq_some_iff.1 hfirst
    exact ⟨record, hname, (findRecord_by_components sameNames sameNamesTree false hnames
      (List.cons_ne_nil "b" ["I"]) (by decide) (.inl (by decide))).1 record hrecord⟩

end TranslationUnit

end ClassEdit
