import ClassEdit.Proofs.ClassBody

/-!
# Members in the order of the text

The access that applies to a member is passed along while a body is read, into conditional blocks
and out of them again. The same is found without passing anything along: write the children of
every block in its place, whatever the depth of the blocks, and look from a declaration back to the
nearest label. Members that the language declares come after all of these.

## Main definitions

* `Tree.flatChildren`: a body with its conditional blocks opened.
* `nearestAccess?`: the access of the nearest label, looking back.
* `Tree.bodyDeclarators`: the declarators of a body, each with what stands before its declaration.

## Main statements

* `readBlock_eq_flat`: a body is read as if there were no blocks.
* `Tree.flatChildren_declarators_sublist`, `Tree.WellFormed.pairwise_flatChildren_declarators`: the
  declarators are in the order of the tree and of the text.
* `TranslationUnit.methods_in_order`: the member functions of a class.
-/

namespace ClassEdit

/-! ## Bodies with their blocks opened -/

namespace Tree

mutual

/-- The children of a tree, with those of conditional blocks in the place of the blocks. -/
def flatChildren : Tree → List Tree
  | node _ children => flatRow children

/-- Some trees, with the children of conditional blocks in the place of the blocks. -/
def flatRow : List Tree → List Tree
  | [] => []
  | t :: ts =>
    match t.bodyRole with
    | .block => t.flatChildren ++ flatRow ts
    | .label | .declaration | .other => t :: flatRow ts

end

theorem exists_of_mem_flatRow {s : Tree} {ts : List Tree} (h : s ∈ flatRow ts) :
    ∃ c ∈ ts, s = c ∨ s ∈ c.flatChildren := by
  induction ts with
  | nil => cases h
  | cons t ts ih =>
    rw [flatRow] at h
    rw [List.exists_mem_cons_iff]
    cases hrole : t.bodyRole with
    | block =>
      rw [hrole] at h
      obtain h | h := List.mem_append.1 h
      · exact .inl (.inr h)
      · exact .inr (ih h)
    | label | declaration | other =>
      rw [hrole] at h
      obtain h | h := List.mem_cons.1 h
      · exact .inl (.inl h)
      · exact .inr (ih h)

theorem mem_nodes_of_mem_flatChildren {s t : Tree} (h : s ∈ t.flatChildren) : s ∈ t.nodes := by
  induction t using induction with
  | step root children ih =>
    rw [flatChildren] at h
    obtain ⟨c, hc, rfl | hs⟩ := exists_of_mem_flatRow h
    · exact mem_nodes_of_mem_children hc
    · exact mem_nodes_node.2 (.inr ⟨c, hc, ih c hc hs⟩)

/-- The declarators of a declaration of a body; other trees have none. -/
def memberDeclarators (t : Tree) : List Tree :=
  match t.bodyRole with
  | .declaration => t.childrenIn .declarator
  | .label | .block | .other => []

theorem memberDeclarators_sublist_children (t : Tree) : t.memberDeclarators.Sublist t.children := by
  unfold memberDeclarators
  cases t.bodyRole with
  | declaration => exact List.filter_sublist
  | label | block | other => exact List.nil_sublist _

theorem sublist_nodesOfAll (ts : List Tree) : ts.Sublist (nodesOfAll ts) := by
  induction ts with
  | nil => exact List.nil_sublist _
  | cons t ts ih =>
    cases t with
    | node root children =>
      rw [nodesOfAll, nodes, List.cons_append]
      exact (ih.trans (List.sublist_append_right _ _)).cons_cons _

theorem memberDeclarators_sublist_nodes (t : Tree) : t.memberDeclarators.Sublist t.nodes := by
  refine t.memberDeclarators_sublist_children.trans ?_
  cases t with
  | node root children => exact (sublist_nodesOfAll children).cons _

theorem flatRow_declarators_sublist {ts : List Tree}
    (hts : ∀ t ∈ ts, (t.flatChildren.flatMap memberDeclarators).Sublist t.nodes) :
    ((flatRow ts).flatMap memberDeclarators).Sublist (nodesOfAll ts) := by
  induction ts with
  | nil => exact List.nil_sublist _
  | cons t ts ih =>
    obtain ⟨htree, hts⟩ := List.forall_mem_cons.1 hts
    rw [flatRow, nodesOfAll]
    cases t.bodyRole with
    | block =>
      rw [List.flatMap_append]
      exact htree.append (ih hts)
    | label | declaration | other =>
      rw [List.flatMap_cons]
      exact t.memberDeclarators_sublist_nodes.append (ih hts)

/-- The declarators of a body are in the order in which its tree is gone through. -/
theorem flatChildren_declarators_sublist (t : Tree) :
    (t.flatChildren.flatMap memberDeclarators).Sublist t.nodes := by
  induction t using induction with
  | step root children ih =>
    rw [flatChildren, nodes]
    exact (flatRow_declarators_sublist ih).cons _

variable {text : List Char}

theorem RowWellFormed.append {low mid high : Nat} {xs ys : List Tree}
    (hxs : RowWellFormed text low mid xs) (hys : RowWellFormed text mid high ys) :
    RowWellFormed text low high (xs ++ ys) := by
  induction xs generalizing low with
  | nil =>
    rw [RowWellFormed] at hxs
    obtain ⟨hle, hpair, hall⟩ := rowWellFormed_iff.1 hys
    refine rowWellFormed_iff.2 ⟨by omega, hpair, fun t ht => ?_⟩
    obtain ⟨hwf, hstart, hstop⟩ := hall t ht
    exact ⟨hwf, by omega, hstop⟩
  | cons t ts ih =>
    rw [RowWellFormed] at hxs
    rw [List.cons_append, RowWellFormed]
    exact ⟨hxs.1, hxs.2.1, ih hxs.2.2⟩

theorem rowWellFormed_flatRow {low high : Nat} {ts : List Tree}
    (hts : ∀ t ∈ ts, t.WellFormed text →
      RowWellFormed text t.root.start t.root.stop t.flatChildren)
    (h : RowWellFormed text low high ts) : RowWellFormed text low high (flatRow ts) := by
  induction ts generalizing low with
  | nil => exact h
  | cons t ts ih =>
    obtain ⟨htree, hts⟩ := List.forall_mem_cons.1 hts
    rw [RowWellFormed] at h
    obtain ⟨hlow, ht, hrow⟩ := h
    rw [flatRow]
    cases t.bodyRole with
    | block =>
      have hstart : RowWellFormed text low t.root.start [] := by rwa [RowWellFormed]
      exact (hstart.append (htree ht)).append (ih hts hrow)
    | label | declaration | other =>
      rw [RowWellFormed]
      exact ⟨hlow, ht, ih hts hrow⟩

/-- With its blocks opened a body still has ranges that follow each other. -/
theorem WellFormed.flatChildren {t : Tree} (h : t.WellFormed text) :
    RowWellFormed text t.root.start t.root.stop t.flatChildren := by
  induction t using induction with
  | step root children ih =>
    rw [Tree.flatChildren]
    exact rowWellFormed_flatRow ih h.row

/-- The declarators of a body follow each other in the text. -/
theorem WellFormed.pairwise_flatChildren_declarators {t : Tree} (h : t.WellFormed text) :
    (t.flatChildren.flatMap memberDeclarators).Pairwise Before := by
  obtain ⟨-, hpair, hall⟩ := rowWellFormed_iff.1 h.flatChildren
  have hinside : ∀ s ∈ t.flatChildren, ∀ c ∈ s.memberDeclarators,
      s.root.start ≤ c.root.start ∧ c.root.stop ≤ s.root.stop := fun s hs c hc =>
    ((hall s hs).1.of_mem_children (s.memberDeclarators_sublist_children.subset hc)).2
  rw [List.pairwise_flatMap]
  refine ⟨fun s hs => (hall s hs).1.pairwise_children.sublist
    s.memberDeclarators_sublist_children, ?_⟩
  refine hpair.imp_of_mem fun {a b} ha hb hab c hc d hd => ?_
  calc c.root.stop ≤ a.root.stop := (hinside a ha c hc).2
    _ ≤ b.root.start := hab
    _ ≤ d.root.start := (hinside b hb d hd).1

end Tree

/-! ## Looking back -/

/-- The access that a tree stands for, if it is a label. -/
def labelAccess? (label : Tree → Option Access) (t : Tree) : Option Access :=
  match t.bodyRole with
  | .label => label t
  | .declaration | .block | .other => none

/-- The access of the nearest label among some trees, looking back from their end. -/
def nearestAccess? (label : Tree → Option Access) (before : List Tree) : Option Access :=
  before.reverse.findSome? (labelAccess? label)

theorem nearestAccess?_concat (label : Tree → Option Access) (before : List Tree) (t : Tree) :
    nearestAccess? label (before ++ [t]) =
      (labelAccess? label t).or (nearestAccess? label before) := by
  rw [nearestAccess?, List.reverse_append, List.reverse_singleton, List.singleton_append,
    List.findSome?_cons]
  cases labelAccess? label t <;> rfl

/-- The trees of a row, each with the trees before it, of which `before` are known already. -/
def withBefore (before : List Tree) : List Tree → List (List Tree × Tree)
  | [] => []
  | t :: ts => (before, t) :: withBefore (before ++ [t]) ts

theorem withBefore_append (before xs ys : List Tree) :
    withBefore before (xs ++ ys) = withBefore before xs ++ withBefore (before ++ xs) ys := by
  induction xs generalizing before with
  | nil => simp [withBefore]
  | cons t ts ih => simp [withBefore, ih]

theorem map_snd_withBefore (before row : List Tree) : (withBefore before row).map (·.2) = row := by
  induction row generalizing before with
  | nil => rfl
  | cons t ts ih => rw [withBefore, List.map_cons, ih]

theorem mem_withBefore_iff {front before row : List Tree} {t : Tree} :
    (before, t) ∈ withBefore front row ↔
      ∃ middle after, before = front ++ middle ∧ row = middle ++ t :: after := by
  induction row generalizing front with
  | nil => simp [withBefore]
  | cons s ts ih =>
    rw [withBefore, List.mem_cons, ih]
    constructor
    · rintro (heq | ⟨middle, after, rfl, rfl⟩)
      · obtain ⟨rfl, rfl⟩ := Prod.mk.inj heq
        exact ⟨[], ts, by simp, rfl⟩
      · exact ⟨s :: middle, after, by simp, rfl⟩
    · rintro ⟨middle, after, rfl, hrow⟩
      cases middle with
      | nil =>
        obtain ⟨rfl, rfl⟩ := List.cons_eq_cons.1 hrow
        exact .inl (by simp)
      | cons m middle =>
        obtain ⟨rfl, rfl⟩ := List.cons_eq_cons.1 hrow
        exact .inr ⟨middle, after, by simp, rfl⟩

section Reading

variable {α : Type} (label : Tree → Option Access) (members : Access → Tree → List α)
  (access : Access)

/-- The members of a tree that stands after some others, `access` being the one without a label. -/
def membersAt (p : List Tree × Tree) : List α :=
  match p.2.bodyRole with
  | .declaration => members ((nearestAccess? label p.1).getD access) p.2
  | .label | .block | .other => []

theorem readMembers_eq_flat {ts before : List Tree}
    (hts : ∀ t ∈ ts, ∀ before,
      readBlock label members ((nearestAccess? label before).getD access) t =
        ((withBefore before t.flatChildren).flatMap (membersAt label members access),
          (nearestAccess? label (before ++ t.flatChildren)).getD access)) :
    readMembers label members ((nearestAccess? label before).getD access) ts =
      ((withBefore before (Tree.flatRow ts)).flatMap (membersAt label members access),
        (nearestAccess? label (before ++ Tree.flatRow ts)).getD access) := by
  induction ts generalizing before with
  | nil => simp [readMembers, Tree.flatRow, withBefore]
  | cons t ts ih =>
    obtain ⟨htree, hts⟩ := List.forall_mem_cons.1 hts
    have hrest := fun before => @ih before hts
    rw [readMembers_cons, Tree.flatRow]
    cases hrole : t.bodyRole with
    | label =>
      have hlabel : (label t).getD ((nearestAccess? label before).getD access) =
          (nearestAccess? label (before ++ [t])).getD access := by
        rw [nearestAccess?_concat, labelAccess?, hrole]
        cases label t <;> rfl
      simp only [hlabel, hrest]
      simp [withBefore, membersAt, hrole]
    | block =>
      simp only [htree, hrest, withBefore_append, List.flatMap_append, List.append_assoc]
    | declaration | other =>
      have hsame : nearestAccess? label (before ++ [t]) = nearestAccess? label before := by
        rw [nearestAccess?_concat, labelAccess?, hrole, Option.none_or]
      rw [← hsame, hrest]
      simp [withBefore, membersAt, hrole, hsame]

/-- A body is read as if there were no blocks: each declaration has the access of the nearest label
before it. -/
theorem readBlock_eq_flat (before : List Tree) (t : Tree) :
    readBlock label members ((nearestAccess? label before).getD access) t =
      ((withBefore before t.flatChildren).flatMap (membersAt label members access),
        (nearestAccess? label (before ++ t.flatChildren)).getD access) := by
  induction t using Tree.induction generalizing before with
  | step root children ih =>
    rw [readBlock, Tree.flatChildren]
    exact readMembers_eq_flat label members access fun c hc before => ih c hc before

end Reading

/-! ## Declarators -/

/-- A declarator of a body. -/
structure BodyDeclarator where
  /-- What stands in the body before the declaration, with conditional blocks opened. -/
  before : List Tree
  declaration : Tree
  declarator : Tree

/-- The access of the nearest label before the declarator, or else the given one. -/
def BodyDeclarator.access (d : BodyDeclarator) (label : Tree → Option Access) (otherwise : Access) :
    Access :=
  (nearestAccess? label d.before).getD otherwise

namespace Tree

/-- The declarators of a body, looking through conditional blocks. -/
def bodyDeclarators (body : Tree) : List BodyDeclarator :=
  (withBefore [] body.flatChildren).flatMap fun p => p.2.memberDeclarators.map (⟨p.1, p.2, ·⟩)

theorem map_declarator_bodyDeclarators (body : Tree) :
    body.bodyDeclarators.map (·.declarator) = body.flatChildren.flatMap memberDeclarators := by
  rw [bodyDeclarators, List.map_flatMap]
  conv => rhs; rw [← map_snd_withBefore [] body.flatChildren]
  rw [List.flatMap_map]
  simp [Function.comp_def]

/-- The declarators of a body are those of the declarations in it. -/
theorem mem_bodyDeclarators_iff {body : Tree} {d : BodyDeclarator} :
    d ∈ body.bodyDeclarators ↔
      (∃ after, body.flatChildren = d.before ++ d.declaration :: after) ∧
        d.declarator ∈ d.declaration.memberDeclarators := by
  rw [bodyDeclarators, List.mem_flatMap]
  constructor
  · rintro ⟨⟨before, t⟩, hmem, hd⟩
    obtain ⟨declarator, hdeclarator, rfl⟩ := List.mem_map.1 hd
    obtain ⟨middle, after, rfl, hrow⟩ := mem_withBefore_iff.1 hmem
    exact ⟨⟨after, hrow⟩, hdeclarator⟩
  · rintro ⟨⟨after, hrow⟩, hdeclarator⟩
    exact ⟨(d.before, d.declaration), mem_withBefore_iff.2 ⟨d.before, after, rfl, hrow⟩,
      List.mem_map.2 ⟨d.declarator, hdeclarator, rfl⟩⟩

end Tree

namespace RecordSource

variable (r : RecordSource) (source : Source) (names : Names) (id : RecordId)

/-- The member function that a declarator of the body declares, read with the access of the nearest
label before it or else that of the class-key. -/
def readDeclarator? (d : BodyDeclarator) : Option Method :=
  readMethod? ⟨source, names, r.name :: r.scope⟩ id r
    (d.access (labelOf source) r.key.defaultAccess) d.declaration d.declarator

/-- The member functions of a definition are those of its declarators. -/
theorem readMethods_eq_filterMap : r.readMethods source names id =
    r.body.bodyDeclarators.filterMap (r.readDeclarator? source names id) := by
  have hflat := congrArg Prod.fst (readBlock_eq_flat (labelOf source)
    (r.methodsOf source names id) r.key.defaultAccess [] r.body)
  refine Eq.trans hflat ?_
  rw [Tree.bodyDeclarators, List.filterMap_flatMap]
  refine List.flatMap_congr fun p _ => ?_
  rw [List.filterMap_map, membersAt, Tree.memberDeclarators]
  cases p.2.bodyRole with
  | declaration => rfl
  | label | block | other => rfl

variable {r source names id}

theorem of_readDeclarator? {d : BodyDeclarator} {method : Method}
    (h : r.readDeclarator? source names id d = some method) :
    method.access = d.access (labelOf source) r.key.defaultAccess ∧ method.isImplicit = false := by
  obtain ⟨signature, -, h⟩ := Option.bind_eq_some_iff.1 h
  simp only [Option.ite_none_left_eq_some, Option.some.injEq] at h
  obtain ⟨-, rfl⟩ := h
  exact ⟨rfl, rfl⟩

end RecordSource

/-! ## The member functions of a class -/

/-- The member functions of a class are those of the declarators of its body, in the order of these
and each with the access of the nearest label before it, and then those that the language declares,
which are not pure and which only a dynamic class has. -/
theorem TranslationUnit.methods_in_order {document : Document} {tree : Tree} {hasErrors : Bool}
    {id : RecordId} {record : Record}
    (h : (ofTree document tree hasErrors).records[id]? = some record) :
    ∃ definition implicit, (definitions document tree)[id]? = some definition ∧
      record.methods = definition.body.bodyDeclarators.filterMap (definition.readDeclarator?
        (Source.ofTree document tree) (memberNames document tree) id) ++ implicit ∧
      (∀ d, d ∈ definition.body.bodyDeclarators ↔
        (∃ after, definition.body.flatChildren = d.before ++ d.declaration :: after) ∧
          d.declarator ∈ d.declaration.memberDeclarators) ∧
      (definition.body.bodyDeclarators.map (·.declarator)).Sublist definition.body.nodes ∧
      (tree.WellFormed document.text →
        (definition.body.bodyDeclarators.map (·.declarator)).Pairwise Tree.Before) ∧
      (∀ d method, definition.readDeclarator? (Source.ofTree document tree)
          (memberNames document tree) id d = some method →
        method.access = (nearestAccess? (RecordSource.labelOf (Source.ofTree document tree))
          d.before).getD record.key.defaultAccess ∧ method.isImplicit = false) ∧
      (∀ method ∈ implicit, method.isImplicit = true ∧ method.isPure = false) ∧
      (implicit ≠ [] → record.isDynamic = true) := by
  obtain ⟨definition, isDynamic, hdefinition, rfl⟩ := exists_definition h
  obtain ⟨htree, hbody⟩ := mem_nodes_of_mem_definitions (List.mem_of_getElem? hdefinition)
  refine ⟨definition, _, hdefinition, congrArg (· ++ _) (definition.readMethods_eq_filterMap _ _ _),
    fun d => Tree.mem_bodyDeclarators_iff, ?_, fun hwf => ?_,
    fun d method hread => RecordSource.of_readDeclarator? hread, ?_, ?_⟩
  · rw [Tree.map_declarator_bodyDeclarators]
    exact Tree.flatChildren_declarators_sublist _
  · rw [Tree.map_declarator_bodyDeclarators]
    have hnode := Tree.nodes_trans (Tree.mem_nodes_of_mem_children hbody) htree
    exact (hwf.of_mem_nodes hnode).1.pairwise_flatChildren_declarators
  · intro method hmethod
    split_ifs at hmethod
    · obtain ⟨_, _, _, _, -, rfl⟩ := Record.exists_of_mem_implicitMethods hmethod
      exact ⟨rfl, rfl⟩
    · cases hmethod
  · intro hne
    split_ifs at hne with hdynamic
    · exact hdynamic
    · exact absurd rfl hne

/-! ## Labels inside of nested blocks -/

/-- The declarator of a function without parameters whose name is one letter. -/
def letterDeclarator (start : Nat) : Tree :=
  .node ⟨.functionDeclarator, some .declarator, start, start + 3, true, false⟩
    [.node ⟨.fieldIdentifier, some .declarator, start, start + 1, true, false⟩ [],
      .node ⟨.other, some .parameters, start + 1, start + 3, true, false⟩
        [.terminal (start + 1) (start + 2), .terminal (start + 2) (start + 3)]]

/-- A class with labels in two conditional blocks, one inside of the other. -/
def nestedBlocks : Document where
  text := ("class C \x7b\n#if A\npublic:\n  void f(), g();\n#ifdef B\nprotected:\n#endif\n" ++
    "#endif\n  void h();\nprivate:\n  virtual void k() = 0;\n\x7d;\n").toList

/-- The body of the class in `nestedBlocks`. -/
def nestedBlocksBody : Tree :=
  .node ⟨.other, some .body, 8, 121, true, false⟩
    [.terminal 8 9,
      .node ⟨.preprocIf, none, 10, 74, true, false⟩
        [.terminal 10 13, .node ⟨.identifier, some .other, 14, 15, true, false⟩ [],
          .node ⟨.accessSpecifier, none, 16, 22, true, false⟩ [.terminal 16 22],
          .terminal 22 23,
          .node ⟨.fieldDeclaration, none, 26, 40, true, false⟩
            [.node ⟨.primitiveType, some .type, 26, 30, true, false⟩ [], letterDeclarator 31,
              .terminal 34 35, letterDeclarator 36, .terminal 39 40],
          .node ⟨.preprocIfdef, none, 41, 67, true, false⟩
            [.terminal 41 47, .node ⟨.identifier, some .name, 48, 49, true, false⟩ [],
              .node ⟨.accessSpecifier, none, 50, 59, true, false⟩ [.terminal 50 59],
              .terminal 59 60, .terminal 61 67],
          .terminal 68 74],
      .node ⟨.fieldDeclaration, none, 77, 86, true, false⟩
        [.node ⟨.primitiveType, some .type, 77, 81, true, false⟩ [], letterDeclarator 82,
          .terminal 85 86],
      .node ⟨.accessSpecifier, none, 87, 94, true, false⟩ [.terminal 87 94],
      .terminal 94 95,
      .node ⟨.fieldDeclaration, none, 98, 119, true, false⟩
        [.node ⟨.virtualWord, none, 98, 105, false, false⟩ [],
          .node ⟨.primitiveType, some .type, 106, 110, true, false⟩ [], letterDeclarator 111,
          .terminal 115 116, .node ⟨.numberLiteral, some .defaultValue, 117, 118, true, false⟩ [],
          .terminal 118 119],
      .terminal 120 121]

/-- The tree of `nestedBlocks`. -/
def nestedBlocksTree : Tree :=
  .node ⟨.other, none, 0, 123, true, false⟩
    [.node ⟨.classSpecifier, none, 0, 121, true, false⟩
      [.terminal 0 5, .node ⟨.typeIdentifier, some .name, 6, 7, true, false⟩ [], nestedBlocksBody],
      .terminal 121 122]

/-- The label in the inner block still applies after both blocks. -/
theorem TranslationUnit.methods_in_order_nestedBlocks :
    ∃ record, (ofTree nestedBlocks nestedBlocksTree false).records[0]? = some record ∧
      record.methods.map (fun m => (m.name, m.access, m.isImplicit)) =
        [("f", .pub, false), ("g", .pub, false), ("h", .prot, false), ("k", .priv, false),
          ("operator=", .pub, true), ("operator=", .pub, true), ("~C", .pub, true)] ∧
      ∃ definition implicit, (definitions nestedBlocks nestedBlocksTree)[0]? = some definition ∧
        record.methods = definition.body.bodyDeclarators.filterMap (definition.readDeclarator?
          (Source.ofTree nestedBlocks nestedBlocksTree)
          (memberNames nestedBlocks nestedBlocksTree) 0) ++ implicit ∧
        (implicit ≠ [] → record.isDynamic = true) := by
  have hrun : ((ofTree nestedBlocks nestedBlocksTree false).records[0]?.map fun record =>
      record.methods.map (fun m => (m.name, m.access, m.isImplicit))) =
      some [("f", .pub, false), ("g", .pub, false), ("h", .prot, false), ("k", .priv, false),
        ("operator=", .pub, true), ("operator=", .pub, true), ("~C", .pub, true)] := by
    decide +kernel
  obtain ⟨record, hrecord, hmethods⟩ := Option.map_eq_some_iff.1 hrun
  obtain ⟨definition, implicit, hdefinition, heq, -, -, -, -, -, hdynamic⟩ :=
    methods_in_order hrecord
  exact ⟨record, hrecord, hmethods, definition, implicit, hdefinition, heq, hdynamic⟩

end ClassEdit
