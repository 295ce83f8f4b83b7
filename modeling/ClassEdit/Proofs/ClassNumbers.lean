import ClassEdit.Proofs.BaseName
import ClassEdit.Proofs.ClassBody
import ClassEdit.Proofs.OverrideList

/-!
# Numbers of classes

A class is known by its number in three places: in the class itself and its members, in the graph
of bases, and in the table of type names. The table is filled while the definitions are collected,
before any class is read, so that the numbers in it are those of the classes has to be shown. Then a
base is always the first class with its qualified name, which is the class that the name finds.

## Main statements

* `TranslationUnit.map_records`: what the classes have from their definitions.
* `TranslationUnit.bases_memberNames`, `TranslationUnit.record?_memberNames`: what is known for the
  lookup of names, in terms of the classes.
* `TranslationUnit.findRecord_qualifiedName`: a class that is first with its name is found by it.
* `TranslationUnit.classes_by_number`: the numbers of the classes of a unit.
-/

namespace ClassEdit

/-! ## Members -/

theorem parent_of_readMethod? {ctx : Context} {id : RecordId} {r : RecordSource} {access : Access}
    {t declarator : Tree} {method : Method}
    (h : readMethod? ctx id r access t declarator = some method) : method.parent = id := by
  obtain ⟨signature, -, h⟩ := Option.bind_eq_some_iff.1 h
  simp only [Option.ite_none_left_eq_some, Option.some.injEq] at h
  obtain ⟨-, rfl⟩ := h
  rfl

theorem RecordSource.exists_of_mem_readMethods {r : RecordSource} {source : Source} {names : Names}
    {id : RecordId} {method : Method} (h : method ∈ r.readMethods source names id) :
    ∃ ctx access t declarator, readMethod? ctx id r access t declarator = some method := by
  rw [RecordSource.readMethods_eq_flatMap] at h
  obtain ⟨⟨access, t⟩, -, hmethod⟩ := List.mem_flatMap.1 h
  obtain ⟨declarator, -, hread⟩ := List.mem_filterMap.1 hmethod
  exact ⟨_, access, t, declarator, hread⟩

/-- Completing a class keeps its members and adds some of its own. -/
theorem Record.forall_mem_complete {r : Record} {isDynamic : Bool} {p : Method → Prop}
    (hr : ∀ method ∈ r.methods, p method)
    (himplicit : ∀ name returnType params kind, name = "operator=" ∨ name = "~" ++ r.name →
      p (r.implicitMethod name returnType params kind)) :
    ∀ method ∈ (r.complete isDynamic).methods, p method := by
  intro method h
  obtain h | h := List.mem_append.1 h
  · exact hr method h
  · split_ifs at h
    · obtain ⟨name, returnType, params, kind, hname, rfl⟩ :=
        Record.exists_of_mem_implicitMethods h
      exact himplicit name returnType params kind hname
    · cases h

namespace TranslationUnit

variable {document : Document} {tree : Tree} {hasErrors : Bool} {id : RecordId} {record : Record}

theorem parent_of_mem_methods (h : (ofTree document tree hasErrors).records[id]? = some record) :
    ∀ method ∈ record.methods, method.parent = id := by
  obtain ⟨definition, isDynamic, -, rfl⟩ := exists_definition h
  refine Record.forall_mem_complete (fun method hmethod => ?_) fun _ _ _ _ _ => rfl
  obtain ⟨_, _, _, _, hread⟩ := RecordSource.exists_of_mem_readMethods hmethod
  exact parent_of_readMethod? hread

/-! ## Names -/

/-- What the classes have from their definitions, they have in the order of these. -/
theorem map_records {α : Type} {ofRecord : Record → α} {ofDefinition : RecordSource → α}
    (h : ∀ definition id isDynamic, ofRecord ((definition.read (Source.ofTree document tree)
      (memberNames document tree) id (definition.readBases (Source.ofTree document tree)
        (baseNames document tree))).complete isDynamic) = ofDefinition definition) :
    (ofTree document tree hasErrors).records.map ofRecord =
      (definitions document tree).map ofDefinition := by
  refine List.ext_getElem (by simp [length_records_ofTree]) fun id hid _ => ?_
  rw [List.length_map] at hid
  obtain ⟨definition, isDynamic, hdefinition, heq⟩ :=
    exists_definition (List.getElem?_eq_getElem hid)
  obtain ⟨_, rfl⟩ := List.getElem?_eq_some_iff.1 hdefinition
  rw [List.getElem_map, List.getElem_map, heq]
  exact h _ id isDynamic

theorem map_qualifiedName_records : (ofTree document tree hasErrors).records.map (·.qualifiedName) =
    (definitions document tree).map (·.qualifiedName) :=
  map_records fun _ _ _ => rfl

/-- Names are looked up over the graph of bases. -/
theorem bases_memberNames :
    (memberNames document tree).bases = (ofTree document tree hasErrors).baseGraph :=
  (map_records fun _ _ _ => rfl).symm

section Table

variable (document tree hasErrors)

/-- The table has the number of the first class with a name. -/
theorem record?_memberNames (name : String) : (memberNames document tree).table.record? name =
    (ofTree document tree hasErrors).records.findIdx? (·.qualifiedName = name) := by
  have hnames : (ofTree document tree hasErrors).records.map (·.qualifiedName) =
      (definitions document tree).map (·.qualifiedName) := map_qualifiedName_records
  have hfirst := congrArg (List.findIdx? (decide <| · = name)) hnames
  rw [List.findIdx?_map, List.findIdx?_map] at hfirst
  exact (record?_typeTable _ name).trans hfirst.symm

theorem record?_memberNames_eq_some_iff {name : String} :
    (memberNames document tree).table.record? name = some id ↔
      (∃ record, (ofTree document tree hasErrors).records[id]? = some record ∧
        record.qualifiedName = name) ∧
      ∀ other record, (ofTree document tree hasErrors).records[other]? = some record →
        record.qualifiedName = name → id ≤ other := by
  rw [record?_memberNames document tree hasErrors, List.findIdx?_eq_some_iff_getElem]
  constructor
  · rintro ⟨hid, hname, hfirst⟩
    refine ⟨⟨_, List.getElem?_eq_getElem hid, by simpa using hname⟩, ?_⟩
    intro other record hother hsame
    obtain ⟨hlt, rfl⟩ := List.getElem?_eq_some_iff.1 hother
    by_contra hle
    exact hfirst other (Nat.lt_of_not_le hle) (by simpa using hsame)
  · rintro ⟨⟨record, hrecord, rfl⟩, hfirst⟩
    obtain ⟨hid, rfl⟩ := List.getElem?_eq_some_iff.1 hrecord
    refine ⟨hid, by simp, fun other hother hsame => ?_⟩
    have hle := hfirst other _ (List.getElem?_eq_getElem (hother.trans hid)) (by simpa using hsame)
    exact Nat.not_lt.2 hle hother

end Table

/-- A base is the first class with its name. -/
theorem record?_of_mem_resolvedBases {derived : Record} {base : RecordId}
    (hderived : derived ∈ (ofTree document tree hasErrors).records)
    (hbase : base ∈ derived.resolvedBases) :
    ∃ name, (memberNames document tree).table.record? name = some base := by
  obtain ⟨id, hid⟩ := List.mem_iff_getElem?.1 hderived
  obtain ⟨definition, isDynamic, -, rfl⟩ := exists_definition hid
  obtain ⟨entry, hentry, hrecord⟩ := List.mem_filterMap.1 hbase
  rw [record_of_mem_readBases hentry] at hrecord
  obtain ⟨name, -, hname⟩ := Option.bind_eq_some_iff.1 hrecord
  exact ⟨name, hname⟩

end TranslationUnit

/-! ## Finding classes -/

theorem dropStart_qualifiedName {definition : RecordSource}
    (h : ∀ part ∈ definition.name :: definition.scope, IsNamePart part) :
    Text.dropStart "::" definition.qualifiedName = definition.qualifiedName := by
  have hparts : ∀ part ∈ definition.components, IsNamePart part := by
    intro part hpart
    obtain hpart | hpart := List.mem_append.1 hpart
    · exact h part (List.mem_cons_of_mem _ (List.mem_reverse.1 hpart))
    · exact h part (List.mem_singleton.1 hpart ▸ List.mem_cons_self)
  rw [definition.qualifiedName_eq_joinParts hparts]
  exact dropStart_of_components (List.append_ne_nil_of_right_ne_nil _ (List.cons_ne_nil _ _)) hparts
    (.inl rfl)

namespace TranslationUnit

/-- A class that is the first one with its qualified name is found by the name. -/
theorem findRecord_qualifiedName {u : TranslationUnit} {id : RecordId} {record : Record}
    (hrecord : u.records[id]? = some record)
    (hfirst : ∀ other earlier, u.records[other]? = some earlier →
      earlier.qualifiedName = record.qualifiedName → id ≤ other)
    (hstart : Text.dropStart "::" record.qualifiedName = record.qualifiedName) :
    u.findRecord record.qualifiedName = .ok record := by
  have hfind : u.records.find? (·.qualifiedName == record.qualifiedName) = some record := by
    obtain ⟨hid, rfl⟩ := List.getElem?_eq_some_iff.1 hrecord
    refine List.find?_eq_some_iff_getElem.2 ⟨by simp, id, hid, rfl, fun other hother => ?_⟩
    by_contra hsame
    have hle := hfirst other _ (List.getElem?_eq_getElem (hother.trans hid)) (by simpa using hsame)
    exact Nat.not_lt.2 hle hother
  rw [findRecord, hstart]
  simp only [hfind]

/-- The number of a class is its position among the classes, its members have it for their class,
and all bases of a class, direct or not, are numbers of classes. The table of type names has the
number of the first class with a qualified name, and no number for a name that no class has. So a
base is found by its qualified name, if the scopes and the class have names without colons. -/
theorem classes_by_number (document : Document) (tree : Tree) (hasErrors : Bool) :
    let u := ofTree document tree hasErrors
    let names := memberNames document tree
    (∀ (id : RecordId) (record : Record), u.records[id]? = some record → record.id = id ∧
      (∀ method ∈ record.methods, method.parent = id) ∧
      (∀ base ∈ record.resolvedBases, base < u.records.length) ∧
      ∀ reached ∈ u.baseGraph.reachedFrom record.resolvedBases, reached < u.records.length) ∧
    names.bases = u.baseGraph ∧ names.records = u.records.map (·.qualifiedName) ∧
    (∀ (name : String) (id : RecordId), names.table.lookup name = some (some id) ↔
      (∃ record, u.records[id]? = some record ∧ record.qualifiedName = name) ∧
      ∀ (other : RecordId) (record : Record), u.records[other]? = some record →
        record.qualifiedName = name → id ≤ other) ∧
    ∀ derived ∈ u.records, ∀ id ∈ derived.resolvedBases,
      (∀ definition, (definitions document tree)[id]? = some definition →
        ∀ part ∈ definition.name :: definition.scope, IsNamePart part) →
      ∃ base, u.records[id]? = some base ∧ u.findRecord base.qualifiedName = .ok base := by
  intro u names
  have hclosed : u.baseGraph.IsClosed := isClosed_baseGraph
  have hlength : u.baseGraph.length = u.records.length := List.length_map _
  refine ⟨fun id record hrecord => ⟨id_of_getElem? hrecord, parent_of_mem_methods hrecord, ?_, ?_⟩,
    bases_memberNames, map_qualifiedName_records.symm, fun name id => ?_, ?_⟩
  · intro base hbase
    rw [← hlength]
    exact hclosed _ (List.mem_map_of_mem (List.mem_of_getElem? hrecord)) base hbase
  · intro reached hreached
    rw [← hlength]
    exact hclosed.lt_of_transGen ((mem_reachedFrom_iff hclosed hrecord).1 hreached)
  · rw [← record?_memberNames_eq_some_iff, TypeTable.record?, Option.join_eq_some_iff]
  · intro derived hderived id hid hparts
    obtain ⟨name, hname⟩ := record?_of_mem_resolvedBases hderived hid
    obtain ⟨⟨base, hbase, rfl⟩, hfirst⟩ :=
      (record?_memberNames_eq_some_iff document tree hasErrors).1 hname
    refine ⟨base, hbase, findRecord_qualifiedName hbase hfirst ?_⟩
    obtain ⟨definition, isDynamic, hdefinition, rfl⟩ := exists_definition hbase
    exact dropStart_qualifiedName (hparts definition hdefinition)

/-- Two classes with one name, and a class that derives from the name. -/
def repeatedClass : Document where
  text := "struct I \x7b\x7d;\nstruct I \x7b\x7d;\nstruct D : I \x7b\x7d;\n".toList

/-- The tree of `repeatedClass`. -/
def repeatedClassTree : Tree :=
  .node ⟨.other, none, 0, 43, true, false⟩
    [bareStructTree 0, .terminal 11 12, bareStructTree 13, .terminal 24 25, middleTree 26,
      .terminal 41 42]

theorem classes_by_number_repeatedClass :
    let u := ofTree repeatedClass repeatedClassTree false
    u.records.map (·.qualifiedName) = ["I", "I", "D"] ∧ u.baseGraph = [[], [], [0]] ∧
    (memberNames repeatedClass repeatedClassTree).table.lookup "I" = some (some 0) ∧
    ∃ base, u.records[0]? = some base ∧ u.findRecord base.qualifiedName = .ok base := by
  intro u
  have hnames : u.records.map (·.qualifiedName) = ["I", "I", "D"] := by decide +kernel
  have hbases : u.baseGraph = [[], [], [0]] := by decide +kernel
  have hfirst : u.records[0]?.map (·.qualifiedName) = some "I" := by decide +kernel
  have hlast : u.records[2]?.map (·.resolvedBases) = some [0] := by decide +kernel
  have hparts : (definitions repeatedClass repeatedClassTree)[0]?.map
      (fun definition => definition.name :: definition.scope) = some ["I"] := by decide +kernel
  obtain ⟨-, -, -, htable, hfind⟩ := classes_by_number repeatedClass repeatedClassTree false
  obtain ⟨derived, hderived, hbase⟩ := Option.map_eq_some_iff.1 hlast
  refine ⟨hnames, hbases, (htable "I" 0).2 ⟨Option.map_eq_some_iff.1 hfirst, ?_⟩,
    hfind derived (List.mem_of_getElem? hderived) 0 (by simp [hbase]) ?_⟩
  · exact fun _ _ _ _ => Nat.zero_le _
  · intro definition hdefinition
    rw [hdefinition, Option.map_some, Option.some.injEq] at hparts
    rw [hparts]
    decide

end TranslationUnit

end ClassEdit
