import ClassEdit.Proofs.DeclaratorParts
import ClassEdit.Unit.Basic
import Mathlib.Data.List.Basic
import Mathlib.Tactic.SplitIfs

/-!
# Classes and their definitions

Every class of a unit is read from a definition that lies in the tree of the unit, and has the
number of that definition. So what is known about the shape of the tree is known about the
definition of each class.

## Main definitions

* `DeclaredAt`, `OpensScope`: what a construct declares, and the scopes of what is inside of it.
* `definitions`: the class definitions of a text.
* `baseNames`, `memberNames`: the names with which their bases and members are read.

## Main statements

* `CollectedFrom.declaredAt_or_inside`: where an item comes from.
* `mem_nodes_of_mem_definitions`: a definition lies in the tree, and its body in the definition.
* `TranslationUnit.exists_definition`: a class is its definition, read and completed.
-/

namespace ClassEdit

/-! ## Collected definitions -/

/-- The construct declares the item, in the given scope. -/
inductive DeclaredAt (source : Source) (scope : Scope) (t : Tree) : Item → Prop where
  | type {name : Tree} (hname : name ∈ t.nodes)
      (hkind : name.kind = .typeIdentifier ∨ name.kind = .primitiveType) :
      DeclaredAt source scope t (.typeName (qualify scope.name (source.textOf name)))
  | record {name body : Tree} (hname : name ∈ t.nodes) (hkind : name.kind = .typeIdentifier)
      (hbody : t.child? .body = some body) :
      DeclaredAt source scope t (.record ⟨t, body, scope, source.textOf name⟩)
  | function (declarator : Tree) : DeclaredAt source scope t (.function ⟨t, declarator, scope⟩)

/-- What is inside of the construct is in the second scope, if the construct is in the first. -/
inductive OpensScope (source : Source) (scope : Scope) (t : Tree) : Scope → Prop where
  | same : OpensScope source scope t scope
  | record {name : Tree} (hname : name ∈ t.nodes) (hkind : name.kind = .typeIdentifier) :
      OpensScope source scope t (source.textOf name :: scope)
  | named {name : Tree} (hkind : t.kind = .namespaceDefinition)
      (hname : t.child? .name = some name) :
      OpensScope source scope t (openNamespaces (source.textOf name) scope)
  | unnamed : OpensScope source scope t (unnamedNamespace :: scope)

variable {source : Source} {scope : Scope} {inRecord : Bool} {t : Tree} {item : Item}

theorem declaredAt_of_mem_declareType {name : Tree} (hname : name ∈ t.nodes)
    (h : item ∈ declareType source scope name) : DeclaredAt source scope t item := by
  rw [declareType] at h
  split_ifs at h with hkind
  · obtain rfl := List.mem_singleton.1 h
    refine .type hname ?_
    split at hkind <;> simp_all
  · cases h

theorem declaredAt_of_mem_declareNamed (h : item ∈ declareNamed source scope t) :
    DeclaredAt source scope t item := by
  rw [declareNamed] at h
  split at h
  next name hname => exact declaredAt_of_mem_declareType (Tree.mem_nodes_of_child? hname) h
  next => cases h

theorem declaredAt_of_mem_declareFunctions (h : item ∈ declareFunctions scope t) :
    DeclaredAt source scope t item := by
  obtain ⟨declarator, -, h⟩ := List.mem_filterMap.1 h
  obtain ⟨parts, -, h⟩ := Option.bind_eq_some_iff.1 h
  split_ifs at h
  obtain rfl := Option.some.inj h
  exact .function declarator

theorem mem_nodes_of_templateName? {name : Tree} (h : templateName? t = some name) :
    name ∈ t.nodes := by
  rw [templateName?] at h
  split at h
  case h_5 =>
    obtain ⟨type, htype, h⟩ := Option.bind_eq_some_iff.1 h
    obtain ⟨-, -, h⟩ := Option.bind_eq_some_iff.1 h
    exact Tree.nodes_trans (Tree.mem_nodes_of_child? h) (Tree.mem_nodes_of_child? htype)
  case h_6 => cases h
  all_goals exact Tree.mem_nodes_of_child? h

theorem declaredAt_of_mem_declareTemplate (h : item ∈ declareTemplate source scope t) :
    DeclaredAt source scope t item := by
  obtain ⟨child, hchild, h⟩ := List.mem_flatMap.1 h
  split at h
  next name hname =>
    have hmem := Tree.nodes_trans (mem_nodes_of_templateName? hname)
      (Tree.mem_nodes_of_mem_namedChildren hchild)
    split_ifs at h
    · exact declaredAt_of_mem_declareType hmem h
    · cases h
  next => cases h

theorem declaredAt_declareRecord {name : Tree} (hname : t.child? .name = some name)
    (hkind : name.kind = .typeIdentifier) :
    DeclaredAt source scope t (declareRecord source scope t name) := by
  have hmem := Tree.mem_nodes_of_child? hname
  rw [declareRecord]
  split
  case h_1 body hbody =>
    split_ifs
    · exact .type hmem (.inl hkind)
    · exact .record hmem hkind hbody
  case h_2 => exact .type hmem (.inl hkind)

/-- The item is collected from the tree, as a construct or for what is inside of it. -/
def CollectedFrom (source : Source) (scope : Scope) (inRecord : Bool) (item : Item) (t : Tree) :
    Prop :=
  item ∈ collectItem source scope inRecord t ∨ item ∈ collectChildren source scope inRecord t

section Rows

variable {ts : List Tree}

theorem collectedFrom_of_mem_collectAll (h : item ∈ collectAll source scope inRecord ts) :
    ∃ c ∈ ts, CollectedFrom source scope inRecord item c := by
  induction ts with
  | nil => simp [collectAll] at h
  | cons c cs ih =>
    rw [collectAll] at h
    rw [List.exists_mem_cons_iff]
    obtain h | h := List.mem_append.1 h
    · split_ifs at h
      · exact .inl (.inl h)
      · cases h
    · exact .inr (ih h)

theorem collectedFrom_of_mem_collectType (h : item ∈ collectType source scope inRecord ts) :
    ∃ c ∈ ts, CollectedFrom source scope inRecord item c := by
  induction ts with
  | nil => simp [collectType] at h
  | cons c cs ih =>
    rw [collectType] at h
    rw [List.exists_mem_cons_iff]
    split_ifs at h
    · exact .inl (.inl h)
    · exact .inr (ih h)

theorem collectedFrom_of_mem_collectBody (h : item ∈ collectBody source scope inRecord ts) :
    ∃ c ∈ ts, CollectedFrom source scope inRecord item c := by
  induction ts with
  | nil => simp [collectBody] at h
  | cons c cs ih =>
    rw [collectBody] at h
    rw [List.exists_mem_cons_iff]
    split_ifs at h
    · exact .inl (.inr h)
    · exact .inr (ih h)

theorem collectedFrom_of_mem_collectLinked (h : item ∈ collectLinked source scope inRecord ts) :
    ∃ c ∈ ts, CollectedFrom source scope inRecord item c := by
  induction ts with
  | nil => simp [collectLinked] at h
  | cons c cs ih =>
    rw [collectLinked] at h
    rw [List.exists_mem_cons_iff]
    split_ifs at h
    · exact .inl (.inr h)
    · exact .inl (.inl h)
    · exact .inr (ih h)

end Rows

/-- An item is declared by the construct that it is collected from, or it is collected from what is
inside of that. -/
theorem CollectedFrom.declaredAt_or_inside (h : CollectedFrom source scope inRecord item t) :
    DeclaredAt source scope t item ∨ ∃ inner inRecord, OpensScope source scope t inner ∧
      ∃ c ∈ t.children, CollectedFrom source inner inRecord item c := by
  cases t with
  | node root children =>
    obtain h | h := h
    · rw [collectItem] at h
      split at h
      case h_1 | h_2 | h_3 =>
        split at h
        next name hname =>
          split_ifs at h with hkind
          · obtain rfl | h := List.mem_cons.1 h
            · exact .inl (declaredAt_declareRecord hname hkind)
            · exact .inr ⟨_, _, .record (Tree.mem_nodes_of_child? hname) hkind,
                collectedFrom_of_mem_collectBody h⟩
          · cases h
        next => cases h
      case h_4 | h_5 => exact .inl (declaredAt_of_mem_declareNamed h)
      case h_6 hkind =>
        refine .inr ⟨_, _, ?_, collectedFrom_of_mem_collectBody h⟩
        split
        next name hname => exact .named hkind hname
        next => exact .unnamed
      case h_7 | h_8 =>
        obtain h | h := List.mem_append.1 h
        · exact .inr ⟨_, _, .same, collectedFrom_of_mem_collectType h⟩
        · split_ifs at h
          · cases h
          · exact .inl (declaredAt_of_mem_declareFunctions h)
      case h_9 => exact .inr ⟨_, _, .same, collectedFrom_of_mem_collectType h⟩
      case h_10 =>
        obtain h | h := List.mem_append.1 h
        · exact .inr ⟨_, _, .same, collectedFrom_of_mem_collectType h⟩
        · obtain ⟨declarator, hdeclarator, h⟩ := List.mem_flatMap.1 h
          split at h
          next name hname =>
            have hmem := Tree.mem_nodes_of_mem_children (List.mem_of_mem_filter hdeclarator)
            exact .inl (declaredAt_of_mem_declareType
              (Tree.nodes_trans (Tree.declaredName?_eq_some hname).1 hmem) h)
          next => cases h
      case h_11 => exact .inl (declaredAt_of_mem_declareTemplate h)
      case h_12 => exact .inr ⟨_, _, .same, collectedFrom_of_mem_collectLinked h⟩
      case h_13 | h_14 | h_15 | h_16 | h_17 | h_18 =>
        exact .inr ⟨_, _, .same, collectedFrom_of_mem_collectAll h⟩
      case h_19 => cases h
    · rw [collectChildren] at h
      exact .inr ⟨_, _, .same, collectedFrom_of_mem_collectAll h⟩

/-- A class definition lies in the tree that it is collected from, and its body in it. -/
theorem CollectedFrom.mem_nodes {r : RecordSource}
    (h : CollectedFrom source scope inRecord (.record r) t) :
    r.tree ∈ t.nodes ∧ r.tree.child? .body = some r.body := by
  induction t using Tree.induction generalizing scope inRecord with
  | step root children ih =>
    obtain hdeclared | ⟨inner, inRecord, -, c, hc, h⟩ := h.declaredAt_or_inside
    · cases hdeclared with
      | record _ _ hbody => exact ⟨Tree.self_mem_nodes _, hbody⟩
    · obtain ⟨htree, hbody⟩ := ih c hc h
      exact ⟨Tree.nodes_trans htree (Tree.mem_nodes_of_mem_children hc), hbody⟩

/-! ## Definitions of a text -/

variable {document : Document} {tree : Tree} {hasErrors : Bool}

/-- The class definitions of a text, in the order in which they are numbered. -/
def definitions (document : Document) (tree : Tree) : List RecordSource :=
  recordSources (collectChildren (Source.ofTree document tree) [] false tree)

/-- The names with which the members of the classes of a text are read. -/
def memberNames (document : Document) (tree : Tree) : Names :=
  let source := Source.ofTree document tree
  let names := declaredNames (collectChildren source [] false tree)
  { names with bases := (definitions document tree).map fun definition =>
      (definition.readBases source names).filterMap (·.record) }

/-- The names with which the bases of the classes of a text are read. -/
def baseNames (document : Document) (tree : Tree) : Names :=
  declaredNames (collectChildren (Source.ofTree document tree) [] false tree)

/-- A definition lies in the tree, and its body is a child of it. -/
theorem mem_nodes_of_mem_definitions {definition : RecordSource}
    (h : definition ∈ definitions document tree) :
    definition.tree ∈ tree.nodes ∧ definition.body ∈ definition.tree.children := by
  obtain ⟨item, hitem, heq⟩ := List.mem_filterMap.1 h
  cases item with
  | record source =>
    obtain rfl := Option.some.inj heq
    obtain ⟨htree, hbody⟩ := CollectedFrom.mem_nodes (.inr hitem)
    exact ⟨htree, List.mem_of_find?_eq_some hbody⟩
  | _ => cases heq

/-- A class is its definition, read with the names of the text and completed. -/
theorem TranslationUnit.exists_definition {id : RecordId} {record : Record}
    (h : (ofTree document tree hasErrors).records[id]? = some record) :
    ∃ definition isDynamic, (definitions document tree)[id]? = some definition ∧
      record = (definition.read (Source.ofTree document tree) (memberNames document tree) id
        (definition.readBases (Source.ofTree document tree) (baseNames document tree))).complete
        isDynamic := by
  obtain ⟨read, isDynamic, hread, -, rfl⟩ := List.getElem?_zipWith_eq_some.1 h
  rw [List.getElem?_mapIdx, Option.map_eq_some_iff] at hread
  obtain ⟨⟨definition, bases⟩, hpair, rfl⟩ := hread
  obtain ⟨hdefinition, hbases⟩ := List.getElem?_zip_eq_some.1 hpair
  refine ⟨definition, isDynamic, hdefinition, ?_⟩
  obtain rfl : definition.readBases (Source.ofTree document tree) (baseNames document tree) =
      bases := by simpa [List.getElem?_map, hdefinition, baseNames] using hbases
  simp only [memberNames, List.map_map]
  rfl

end ClassEdit
