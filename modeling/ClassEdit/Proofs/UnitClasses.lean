import ClassEdit.Proofs.BaseVisit
import ClassEdit.Proofs.Definitions

/-!
# The classes of a unit

A class is known by its number, which is the number of its definition. The table of type names maps
the name of a class to the number of its first definition, so what a base clause names is again a
class of the unit. So the graph of bases has no edge that leads out of it, and it can be told from
the base clauses as they are written.

## Main definitions

* `Item.typeName?`: the type name that an item declares.
* `writtenBases`, `Names.resolveBases`: base clauses as they are written, and what they stand for.

## Main statements

* `record?_typeTable`, `declares_typeTable`: what the table of type names says.
* `record_of_mem_readBases`: the class that an entry of a base clause stands for.
* `TranslationUnit.id_of_getElem?`, `TranslationUnit.isClosed_baseGraph`: numbers of classes.
* `TranslationUnit.baseGraph_ofTree`: the graph of bases from the base clauses.
-/

namespace ClassEdit

theorem lookup_cons_eq_ite {α : Type} (other : String) (known : α) (table : List (String × α))
    (key : String) :
    ((other, known) :: table).lookup key =
      if key = other then some known else table.lookup key := by
  by_cases h : key = other
  · simp [h]
  · have hne : (key == other) = false := by simpa using h
    simp [List.lookup_cons, hne, h]

/-! ## The table of type names -/

/-- The type name that an item declares. -/
def Item.typeName? : Item → Option String
  | .typeName name => some name
  | .record source => some source.qualifiedName
  | .function _ => none

namespace TypeTable

theorem lookup_add (table : TypeTable) (name key : String) (record : Option RecordId) :
    (table.add name record).lookup key =
      if key = name then some ((table.record? name).or record) else table.lookup key := by
  induction table with
  | nil => simp [add, record?, lookup_cons_eq_ite]
  | cons entry table ih =>
    obtain ⟨other, known⟩ := entry
    by_cases hother : other = name
    · by_cases h : key = name <;> simp [add, record?, lookup_cons_eq_ite, hother, h]
    · by_cases h : key = other
      · simp [add, hother, h]
      · simp [add, record?, lookup_cons_eq_ite, hother, Ne.symm hother, h, ih]

theorem record?_add (table : TypeTable) (name key : String) (record : Option RecordId) :
    (table.add name record).record? key =
      (table.record? key).or (if key = name then record else none) := by
  rw [record?, lookup_add]
  by_cases h : key = name <;> simp [record?, h]

theorem declares_eq_isSome (table : TypeTable) (key : String) :
    table.declares key = (table.lookup key).isSome := by
  induction table with
  | nil => rfl
  | cons entry table ih =>
    obtain ⟨other, known⟩ := entry
    rw [declares, List.any_cons, ← declares, ih, lookup_cons_eq_ite]
    by_cases h : key = other
    · simp [h]
    · simp [h, Ne.symm h]

theorem declares_add (table : TypeTable) (name key : String) (record : Option RecordId) :
    (table.add name record).declares key = (decide (key = name) || table.declares key) := by
  rw [declares_eq_isSome, declares_eq_isSome, lookup_add]
  by_cases h : key = name <;> simp [h]

end TypeTable

/-- A definition counts for its name unless the name had one before. -/
theorem record?_addTypes (table : TypeTable) (next : RecordId) (items : List Item) (key : String) :
    (addTypes table next items).record? key = (table.record? key).or
      (((recordSources items).findIdx? (·.qualifiedName = key)).map (· + next)) := by
  induction items generalizing table next with
  | nil => simp [addTypes, recordSources]
  | cons item items ih =>
    cases item with
    | typeName name => simp [addTypes, ih, TypeTable.record?_add, recordSources]
    | function source => simp [addTypes, ih, recordSources]
    | record source =>
      rw [addTypes, ih, TypeTable.record?_add, Option.or_assoc]
      congr 1
      by_cases h : source.qualifiedName = key
      · simp [recordSources, List.findIdx?_cons, h]
      · simp [recordSources, List.findIdx?_cons, h, Ne.symm h, Option.map_map, Function.comp_def,
          Nat.add_assoc, Nat.add_comm 1]

/-- The table has the number of the first definition of a name. -/
theorem record?_typeTable (items : List Item) (key : String) :
    (typeTable items).record? key =
      (recordSources items).findIdx? (·.qualifiedName = key) := by
  simpa [TypeTable.record?, typeTable] using record?_addTypes [] 0 items key

theorem declares_addTypes (table : TypeTable) (next : RecordId) (items : List Item)
    (key : String) :
    (addTypes table next items).declares key =
      (table.declares key || items.any (·.typeName? = some key)) := by
  induction items generalizing table next with
  | nil => simp [addTypes]
  | cons item items ih =>
    cases item <;>
      simp [addTypes, ih, TypeTable.declares_add, Item.typeName?, Bool.or_left_comm,
        Bool.or_assoc, eq_comm]

/-- The table has the type names that are declared. -/
theorem declares_typeTable (items : List Item) (key : String) :
    (typeTable items).declares key = true ↔ ∃ item ∈ items, item.typeName? = some key := by
  rw [typeTable, declares_addTypes]
  simp [TypeTable.declares]

/-! ## Bases -/

/-- An entry of a base clause stands for the class that its name is looked up to. -/
theorem record_of_mem_readBaseClause {ctx : Context} {key : ClassKey} {start : BaseStart}
    {ts : List Tree} {entry : BaseSpecifier} (h : entry ∈ readBaseClause ctx key start ts) :
    entry.record = ctx.names.resolveRecord entry.written ctx.scope := by
  fun_induction readBaseClause ctx key start ts <;> grind

theorem record_of_mem_readBases {r : RecordSource} {source : Source} {names : Names}
    {entry : BaseSpecifier} (h : entry ∈ r.readBases source names) :
    entry.record = names.resolveRecord entry.written r.scope := by
  rw [RecordSource.readBases] at h
  split at h
  · exact record_of_mem_readBaseClause h
  · cases h

variable {document : Document} {tree : Tree} {hasErrors : Bool}

theorem record?_baseNames (key : String) : (baseNames document tree).table.record? key =
    (definitions document tree).findIdx? (·.qualifiedName = key) :=
  record?_typeTable _ key

/-- A name stands for the first definition of a qualified name. -/
theorem exists_of_resolveRecord_baseNames {written : String} {scope : Scope} {id : RecordId}
    (h : (baseNames document tree).resolveRecord written scope = some id) :
    ∃ name, (baseNames document tree).resolve written scope = some name ∧
      (definitions document tree).findIdx? (·.qualifiedName = name) = some id := by
  obtain ⟨name, hname, hrecord⟩ := Option.bind_eq_some_iff.1 h
  exact ⟨name, hname, record?_baseNames name ▸ hrecord⟩

/-- The scopes of the classes of a text, with their bases as they are written. -/
def writtenBases (document : Document) (tree : Tree) : List (Scope × List String) :=
  (definitions document tree).map fun definition =>
    (definition.scope, (definition.readBases (Source.ofTree document tree)
      (baseNames document tree)).map (·.written))

/-- What the bases that are written in a scope stand for. -/
def Names.resolveBases (names : Names) (clause : Scope × List String) : List RecordId :=
  clause.2.filterMap (names.resolveRecord · clause.1)

/-! ## Classes -/

theorem length_dynamicFlagsFrom (records : List Record) (ids : List RecordId)
    (state : DynamicState) : (dynamicFlagsFrom records ids state).length = ids.length := by
  induction ids generalizing state with
  | nil => rfl
  | cons id ids ih => simp [dynamicFlagsFrom, ih]

namespace TranslationUnit

theorem length_records_ofTree :
    (ofTree document tree hasErrors).records.length = (definitions document tree).length := by
  simp [ofTree, readRecords, dynamicFlags, length_dynamicFlagsFrom, definitions]

variable {id : RecordId} {record : Record}

theorem id_of_getElem? (h : (ofTree document tree hasErrors).records[id]? = some record) :
    record.id = id := by
  obtain ⟨definition, isDynamic, -, rfl⟩ := exists_definition h
  rfl

/-- A class is the class with its number. -/
theorem getElem?_of_mem (h : record ∈ (ofTree document tree hasErrors).records) :
    (ofTree document tree hasErrors).records[record.id]? = some record := by
  obtain ⟨id, hid⟩ := List.mem_iff_getElem?.1 h
  rwa [id_of_getElem? hid]

theorem lt_length_baseGraph {u : TranslationUnit} (h : u.records[id]? = some record) :
    id < u.baseGraph.length := by
  obtain ⟨hlt, -⟩ := List.getElem?_eq_some_iff.1 h
  simpa [baseGraph] using hlt

/-- What a name in a base clause stands for is a class of the unit. -/
theorem exists_of_resolveRecord {written : String} {scope : Scope}
    (h : (baseNames document tree).resolveRecord written scope = some id) :
    ∃ record, (ofTree document tree hasErrors).records[id]? = some record ∧ record.id = id := by
  obtain ⟨name, -, hindex⟩ := exists_of_resolveRecord_baseNames h
  have hlt := (List.findIdx?_eq_some_iff_getElem.1 hindex).1
  rw [← @length_records_ofTree _ _ hasErrors] at hlt
  exact ⟨_, List.getElem?_eq_getElem hlt, id_of_getElem? (List.getElem?_eq_getElem hlt)⟩

/-- The bases of a class are what its base clause stands for. -/
theorem baseGraph_ofTree : (ofTree document tree hasErrors).baseGraph =
    (writtenBases document tree).map (baseNames document tree).resolveBases := by
  refine List.ext_getElem? fun id => ?_
  rw [baseGraph, writtenBases, List.map_map, List.getElem?_map, List.getElem?_map]
  cases hrecord : (ofTree document tree hasErrors).records[id]? with
  | none =>
    rw [List.getElem?_eq_none_iff, length_records_ofTree, ← List.getElem?_eq_none_iff] at hrecord
    rw [hrecord]
    rfl
  | some record =>
    obtain ⟨definition, isDynamic, hdefinition, rfl⟩ := exists_definition hrecord
    rw [hdefinition, Option.map_some, Option.map_some, Option.some.injEq]
    simp only [Function.comp_apply, Names.resolveBases, List.filterMap_map]
    exact List.filterMap_congr fun entry hentry => record_of_mem_readBases hentry

/-- The bases of a class are classes of the unit. -/
theorem isClosed_baseGraph : (ofTree document tree hasErrors).baseGraph.IsClosed := by
  intro bases hbases base hbase
  rw [baseGraph_ofTree] at hbases
  obtain ⟨clause, -, rfl⟩ := List.mem_map.1 hbases
  obtain ⟨written, -, hresolve⟩ := List.mem_filterMap.1 hbase
  obtain ⟨record, hrecord, -⟩ := exists_of_resolveRecord hresolve
  exact lt_length_baseGraph hrecord

end TranslationUnit

end ClassEdit
