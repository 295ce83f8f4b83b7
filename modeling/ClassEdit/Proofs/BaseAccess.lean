import ClassEdit.Proofs.BaseName

/-!
# The access of a new base

An edit adds an entry to the base clause of a class, or a clause with one entry. How the clause is
read then can be said child by child: some children say something about the entry that follows, a
name is an entry, and a comma starts over. So the entries that the class had stay as they are, and
the access of the new one is what the edit writes. After other bases it writes none, and the
class-key decides: the base of a `struct` is public, and that of a `class` is private.

## Main definitions

* `BaseStart.after`, `BaseStart.entry?`: what a child of a base clause says about the entries after
  it, and the entry that it is.
* `BaseSpecifier.asWritten`: an entry without the class it stands for.
* `newEntryTrees`: how the text of a new entry is read.
* `BaseEdit`: a base clause before and after a base is added.

## Main statements

* `readBaseClause_cons`, `readBaseClause_append`: one child, and a row of them.
* `map_asWritten_readBaseClause`: entries are read from the text of the children.
* `TranslationUnit.addBase_public_iff`: when a new base is public.
-/

namespace ClassEdit

/-! ## Base clauses child by child -/

namespace BaseStart

/-- What is known of the next entry after a child of the clause. -/
def after (ctx : Context) (entry : BaseStart) (t : Tree) : BaseStart :=
  match t.kind with
  | .colon | .comma => {}
  | .accessSpecifier =>
    { entry with access := Access.ofWord? (ctx.word t), start := entry.start.or t.root.start }
  | .virtualWord => { entry with isVirtual := true, start := entry.start.or t.root.start }
  | _ => entry

/-- Whether a child of a clause is an entry. -/
def isEntry (t : Tree) : Bool :=
  match t.kind with
  | .colon | .comma | .accessSpecifier | .virtualWord | .attributeDeclaration | .comment | .error
  | .ellipsis => false
  | _ => t.root.isNamed

/-- The entry with a child of a clause for its name. -/
def named (ctx : Context) (key : ClassKey) (entry : BaseStart) (t : Tree) : BaseSpecifier where
  written := ctx.spelling t
  access := entry.access.getD key.defaultAccess
  isVirtual := entry.isVirtual
  range := Range.ofOffsets (entry.start.getD t.root.start) t.root.stop
  record := ctx.names.resolveRecord (ctx.spelling t) ctx.scope

/-- The entry that a child of a clause is, if it is one. -/
def entry? (ctx : Context) (key : ClassKey) (entry : BaseStart) (t : Tree) :
    Option BaseSpecifier :=
  if isEntry t then some (entry.named ctx key t) else none

variable {ctx : Context} {key : ClassKey} {entry : BaseStart} {t : Tree}

theorem entry?_of_isEntry (h : isEntry t = true) :
    entry.entry? ctx key t = some (entry.named ctx key t) :=
  if_pos h

theorem entry?_of_not_isEntry (h : isEntry t = false) : entry.entry? ctx key t = none :=
  if_neg (by rw [h]; decide)

theorem after_of_mark (h : t.kind = .colon ∨ t.kind = .comma) : entry.after ctx t = {} := by
  obtain h | h := h <;> rw [after, h]

theorem access_after (h : t.kind = .accessSpecifier) :
    (entry.after ctx t).access = Access.ofWord? (ctx.word t) := by
  rw [after, h]

theorem isVirtual_after (h : t.kind = .accessSpecifier) :
    (entry.after ctx t).isVirtual = entry.isVirtual := by
  rw [after, h]

end BaseStart

section Reading

variable {ctx : Context} {key : ClassKey} {entry : BaseStart}

theorem readBaseClause_cons (t : Tree) (ts : List Tree) :
    readBaseClause ctx key entry (t :: ts) =
      (entry.entry? ctx key t).toList ++ readBaseClause ctx key (entry.after ctx t) ts := by
  rw [readBaseClause, BaseStart.entry?, BaseStart.isEntry, BaseStart.after]
  cases t.kind <;> cases t.root.isNamed <;> rfl

/-- A row of children is read after another from what is known at the end of that. -/
theorem readBaseClause_append (ts us : List Tree) :
    readBaseClause ctx key entry (ts ++ us) =
      readBaseClause ctx key entry ts ++
        readBaseClause ctx key (ts.foldl (BaseStart.after ctx) entry) us := by
  induction ts generalizing entry with
  | nil => rfl
  | cons t ts ih =>
    rw [List.cons_append, readBaseClause_cons, readBaseClause_cons, ih, List.append_assoc,
      List.foldl_cons]

theorem readBaseClause_filter_comment (ts : List Tree) :
    readBaseClause ctx key entry (ts.filter (·.kind ≠ .comment)) =
      readBaseClause ctx key entry ts := by
  induction ts generalizing entry with
  | nil => rfl
  | cons t ts ih =>
    rw [readBaseClause_cons, ← ih]
    by_cases hkind : t.kind = .comment
    · have hskipped : BaseStart.isEntry t = false := by rw [BaseStart.isEntry, hkind]
      rw [List.filter_cons_of_neg (by simpa using hkind), BaseStart.entry?_of_not_isEntry hskipped,
        BaseStart.after, hkind]
      rfl
    · rw [List.filter_cons_of_pos (by simpa using hkind), readBaseClause_cons]

end Reading

/-! ## Entries as they are written -/

/-- The entry without the class it stands for. -/
def BaseSpecifier.asWritten (entry : BaseSpecifier) : BaseSpecifier :=
  { entry with record := none }

/-- Entries are read from the text of the children, but for the classes they stand for. -/
theorem map_asWritten_readBaseClause {ctx ctx' : Context} {key : ClassKey} {entry : BaseStart}
    {ts : List Tree} (h : ∀ t ∈ ts, ctx.text t = ctx'.text t) :
    (readBaseClause ctx key entry ts).map (·.asWritten) =
      (readBaseClause ctx' key entry ts).map (·.asWritten) := by
  induction ts generalizing entry with
  | nil => rfl
  | cons t ts ih =>
    obtain ⟨ht, hts⟩ := List.forall_mem_cons.1 h
    have hafter : entry.after ctx t = entry.after ctx' t := by
      simp only [BaseStart.after, Context.word, ht]
    have hnamed : (entry.named ctx key t).asWritten = (entry.named ctx' key t).asWritten := by
      simp only [BaseSpecifier.asWritten, BaseStart.named, Context.spelling, ht]
    have hentry : (entry.entry? ctx key t).toList.map (·.asWritten) =
        (entry.entry? ctx' key t).toList.map (·.asWritten) := by
      cases hname : BaseStart.isEntry t with
      | false => rw [BaseStart.entry?_of_not_isEntry hname, BaseStart.entry?_of_not_isEntry hname]
      | true =>
        rw [BaseStart.entry?_of_isEntry hname, BaseStart.entry?_of_isEntry hname,
          Option.toList_some, Option.toList_some, List.map_singleton, List.map_singleton, hnamed]
    rw [readBaseClause_cons, readBaseClause_cons, List.map_append, List.map_append, hentry, hafter,
      ih hts]

/-! ## Texts with an insertion -/

namespace Text

variable {xs ys zs : List Char} {start stop : Nat}

theorem splitAt?_append_of_le {n : Nat} (h : n ≤ byteLength xs) :
    splitAt? (xs ++ ys) n = (splitAt? xs n).map fun parts => (parts.1, parts.2 ++ ys) := by
  induction xs generalizing n with
  | nil =>
    obtain rfl : n = 0 := by simpa using h
    simp
  | cons c xs ih =>
    cases n with
    | zero => simp
    | succ n =>
      rw [byteLength_cons] at h
      rw [List.cons_append, splitAt?, splitAt?]
      split
      · rw [ih (by omega)]
        cases splitAt? xs (n + 1 - c.utf8Size) <;> rfl
      · rfl

/-- A part of the front of a text does not depend on the rest. -/
theorem slice?_append_of_le (h : stop ≤ byteLength xs) :
    slice? (xs ++ ys) start stop = slice? xs start stop := by
  rw [slice?, slice?]
  split
  case isFalse => rfl
  case isTrue hle =>
    rw [dropBytes?, dropBytes?, splitAt?_append_of_le (by omega)]
    cases hsplit : splitAt? xs start with
    | none => rfl
    | some parts =>
      obtain ⟨rfl, rfl⟩ := splitAt?_eq_some hsplit
      have hrest : stop - byteLength parts.1 ≤ byteLength parts.2 := by
        rw [byteLength_append] at h
        omega
      simp only [Option.map_some, Option.bind_eq_bind, Option.bind_some,
        splitAt?_append_of_le hrest]
      cases splitAt? parts.2 (stop - byteLength parts.1) <;> rfl

/-- The part of a text between two others. -/
theorem slice?_middle : slice? (xs ++ ys ++ zs) (byteLength xs) (byteLength xs + byteLength ys) =
    some ys :=
  slice?_eq_some_iff.2 ⟨xs, zs, rfl, rfl, rfl⟩

end Text

/-- A single insertion divides the text where it goes. -/
theorem exists_of_applyInsertions_single {text edited : List Char} {insertion : Insertion}
    (h : applyInsertions text [insertion] = .ok edited) :
    ∃ front back, text = front ++ back ∧ insertion.offset = Text.byteLength front ∧
      edited = front ++ insertion.text.toList ++ back := by
  have hboundary : Text.IsBoundary text insertion.offset := by
    by_contra hbad
    obtain ⟨error, herror⟩ := exists_error_iff.2 ⟨insertion, List.mem_singleton_self _, hbad⟩
    cases herror.symm.trans h
  obtain ⟨front, back, rfl, hfront⟩ := Text.isBoundary_iff.1 hboundary
  rw [applyInsertions_single hfront.symm] at h
  exact ⟨front, back, rfl, hfront.symm, (Except.ok.inj h).symm⟩

theorem Source.slice_ofOffsets (source : Source) (start stop : Nat) :
    source.slice (Range.ofOffsets start stop) =
      String.ofList ((Text.slice? source.text start stop).getD []) :=
  rfl

/-! ## A new entry -/

/-- What stands in front of the name of a new base. -/
def baseLead (isFirst : Bool) : String :=
  if isFirst then " : public " else ", "

/-- How the text of a new entry at an offset is read: the mark in front of it, the access of the
first entry of a clause, and the name. -/
def newEntryTrees (isFirst : Bool) (offset : Nat) (name : Tree) : List Tree :=
  if isFirst then
    [.node ⟨.colon, none, offset + 1, offset + 2, false, false⟩ [],
      .node ⟨.accessSpecifier, none, offset + 3, offset + 9, true, false⟩
        [.terminal (offset + 3) (offset + 9)],
      name]
  else [.node ⟨.comma, none, offset, offset + 1, false, false⟩ [], name]

/-- The access of a new entry: public if it is the first one, and else that of the class-key. -/
def newAccess (isFirst : Bool) (key : ClassKey) : Access :=
  if isFirst then .pub else key.defaultAccess

theorem newAccess_eq_pub_iff {isFirst : Bool} {key : ClassKey} :
    newAccess isFirst key = .pub ↔ isFirst = true ∨ key = .struct := by
  cases isFirst <;> cases key <;> decide

/-- After any other children a new entry has the access that is written in front of it. -/
theorem readBaseClause_newEntryTrees (ctx : Context) {key : ClassKey} {entry : BaseStart}
    {isFirst : Bool} {offset : Nat} {name : Tree} (hname : BaseStart.isEntry name = true)
    (hpublic : isFirst = true →
      ctx.source.slice (Range.ofOffsets (offset + 3) (offset + 9)) = "public") :
    ∃ added, readBaseClause ctx key entry (newEntryTrees isFirst offset name) = [added] ∧
      added.written = ctx.spelling name ∧ added.access = newAccess isFirst key ∧
      added.isVirtual = false := by
  have hlast : ∀ start : BaseStart, readBaseClause ctx key start [name] =
      [start.named ctx key name] := by
    intro start
    rw [readBaseClause_cons, BaseStart.entry?_of_isEntry hname]
    rfl
  have hskip : ∀ (start : BaseStart) (t : Tree) (ts : List Tree), BaseStart.isEntry t = false →
      readBaseClause ctx key start (t :: ts) = readBaseClause ctx key (start.after ctx t) ts := by
    intro start t ts ht
    rw [readBaseClause_cons, BaseStart.entry?_of_not_isEntry ht]
    rfl
  cases isFirst with
  | true =>
    rw [newEntryTrees, if_pos rfl, hskip _ _ _ rfl, BaseStart.after_of_mark (.inl rfl),
      hskip _ _ _ rfl, hlast]
    refine ⟨_, rfl, rfl, ?_, BaseStart.isVirtual_after rfl⟩
    have hword : Access.ofWord? (Text.trimmed "public") = some .pub := by decide
    rw [BaseStart.named, BaseStart.access_after rfl]
    simp only [Context.word, Context.text, Source.textOf, Tree.range, Tree.root, hpublic, hword]
    rfl
  | false =>
    rw [newEntryTrees, if_neg Bool.false_ne_true, hskip _ _ _ rfl,
      BaseStart.after_of_mark (.inr rfl), hlast]
    exact ⟨_, rfl, rfl, rfl, rfl⟩

/-! ## A clause before and after -/

/-- The children of the base clause of a class, none if it has no clause. -/
def RecordSource.clauseChildren (r : RecordSource) : List Tree :=
  ((r.tree.namedChildren.find? (·.kind = .baseClassClause)).map Tree.children).getD []

theorem RecordSource.readBases_eq (r : RecordSource) (source : Source) (names : Names) :
    r.readBases source names =
      readBaseClause ⟨source, names, r.scope⟩ r.key {} r.clauseChildren := by
  rw [readBases, clauseChildren]
  split
  next clause hclause => rw [hclause, Option.map_some, Option.getD_some]
  next hnone => rw [hnone, Option.map_none, Option.getD_none, readBaseClause]

/-- A class before and after an insertion that adds a base to it. -/
structure BaseEdit (document edited : Document) (definition reading : RecordSource)
    (insertion : Insertion) (isFirst : Bool) (name : Tree) : Prop where
  /-- The insertion makes the one text from the other. -/
  inserts : applyInsertions document.text [insertion] = .ok edited.text
  key : reading.tree.kind = definition.tree.kind
  /-- The insertion is not inside of the clause, but for comments at its end. -/
  afterClause : ∀ t ∈ definition.clauseChildren, t.kind ≠ .comment →
    t.root.stop ≤ insertion.offset
  /-- The clause keeps its children where they are and is extended by the entry. -/
  extended : reading.clauseChildren.filter (·.kind ≠ .comment) =
    definition.clauseChildren.filter (·.kind ≠ .comment) ++
      newEntryTrees isFirst insertion.offset name
  isEntry : BaseStart.isEntry name = true
  start_eq : name.root.start = insertion.offset + Text.byteLength (baseLead isFirst).toList
  stop_eq : name.root.stop = insertion.offset + Text.byteLength insertion.text.toList

namespace BaseEdit

variable {document edited : Document} {definition reading : RecordSource} {insertion : Insertion}
  {isFirst : Bool} {name : Tree} {tree editedTree : Tree}

theorem key_eq (h : BaseEdit document edited definition reading insertion isFirst name) :
    reading.key = definition.key := by
  rw [RecordSource.key, RecordSource.key, h.key]

/-- The children that the clause had have the text they had. -/
theorem textOf_eq (h : BaseEdit document edited definition reading insertion isFirst name)
    {t : Tree} (ht : t ∈ definition.clauseChildren) (hkind : t.kind ≠ .comment) :
    (Source.ofTree edited editedTree).textOf t = (Source.ofTree document tree).textOf t := by
  obtain ⟨front, back, hfront, hoffset, hback⟩ := exists_of_applyInsertions_single h.inserts
  have hstop : t.root.stop ≤ Text.byteLength front := hoffset ▸ h.afterClause t ht hkind
  rw [Source.textOf, Source.textOf, Tree.range, Source.slice_ofOffsets, Source.slice_ofOffsets]
  change String.ofList ((Text.slice? edited.text _ _).getD []) =
    String.ofList ((Text.slice? document.text _ _).getD [])
  rw [hback, hfront, List.append_assoc, Text.slice?_append_of_le hstop,
    Text.slice?_append_of_le hstop]

/-- A part of the inserted text in the text after the edit. -/
theorem slice_inserted (h : BaseEdit document edited definition reading insertion isFirst name)
    (lead part rest : List Char) (htext : insertion.text.toList = lead ++ part ++ rest) :
    (Source.ofTree edited editedTree).slice (Range.ofOffsets
      (insertion.offset + Text.byteLength lead)
      (insertion.offset + Text.byteLength lead + Text.byteLength part)) = String.ofList part := by
  obtain ⟨front, back, -, hoffset, hback⟩ := exists_of_applyInsertions_single h.inserts
  have hsplit : edited.text = (front ++ lead) ++ part ++ (rest ++ back) := by
    rw [hback, htext]
    simp
  rw [Source.slice_ofOffsets, hoffset, ← Text.byteLength_append]
  change String.ofList ((Text.slice? edited.text _ _).getD []) = _
  rw [hsplit, Text.slice?_middle, Option.getD_some]

/-- The entries of the clause stay as they are written, and one with the access that the insertion
gives it comes after them. -/
theorem readBases_append (h : BaseEdit document edited definition reading insertion isFirst name)
    {spelled : String} (htext : insertion.text = baseLead isFirst ++ spelled)
    (names names' : Names) :
    ∃ kept added, reading.readBases (Source.ofTree edited editedTree) names' = kept ++ [added] ∧
      kept.map (·.asWritten) =
        (definition.readBases (Source.ofTree document tree) names).map (·.asWritten) ∧
      added.written = normalSpelling spelled ∧ added.isVirtual = false ∧
      added.access = newAccess isFirst definition.key := by
  have hname : (Source.ofTree edited editedTree).textOf name = spelled := by
    rw [Source.textOf, Tree.range, h.start_eq, h.stop_eq, htext, String.toList_append,
      Text.byteLength_append, ← Nat.add_assoc, h.slice_inserted _ spelled.toList [],
      String.ofList_toList]
    rw [htext, String.toList_append, List.append_nil]
  have hpublic : isFirst = true → (Source.ofTree edited editedTree).slice
      (Range.ofOffsets (insertion.offset + 3) (insertion.offset + 9)) = "public" := by
    rintro rfl
    exact h.slice_inserted " : ".toList "public".toList (' ' :: spelled.toList)
      (by rw [htext, String.toList_append]; rfl)
  rw [RecordSource.readBases_eq, h.key_eq, ← readBaseClause_filter_comment, h.extended,
    readBaseClause_append]
  obtain ⟨added, hadded, hwritten, haccess, hvirtual⟩ :=
    readBaseClause_newEntryTrees ⟨Source.ofTree edited editedTree, names', reading.scope⟩
      h.isEntry hpublic
  refine ⟨_, added, by rw [hadded], ?_, ?_, hvirtual, haccess⟩
  · rw [RecordSource.readBases_eq,
      ← readBaseClause_filter_comment definition.clauseChildren]
    refine map_asWritten_readBaseClause fun t ht => ?_
    obtain ⟨hmem, hkind⟩ := List.mem_filter.1 ht
    exact h.textOf_eq hmem (of_decide_eq_true hkind)
  · rw [hwritten, Context.spelling, Context.text, hname]

end BaseEdit

namespace TranslationUnit

variable {document edited : Document} {tree editedTree : Tree} {hasErrors editedErrors : Bool}
  {id editedId : RecordId} {definition reading : RecordSource} {derived base reread : Record}
  {insertion : Insertion} {name : Tree}

/-- Adding a base keeps the entries of a base clause with their names, their access and whether they
are virtual, and puts one entry after them. That one is public if and only if it is the first one
or the class is a `struct`. -/
theorem addBase_public_iff
    (hdefinition : (definitions document tree)[id]? = some definition)
    (hderived : (ofTree document tree hasErrors).records[id]? = some derived)
    (hadd : addBase document.text derived base (Source.ofTree document tree) = .ok insertion)
    (hedit : BaseEdit document edited definition reading insertion derived.bases.isEmpty name)
    (hreading : (definitions edited editedTree)[editedId]? = some reading)
    (hreread : (ofTree edited editedTree editedErrors).records[editedId]? = some reread) :
    ∃ kept added, reread.bases = kept ++ [added] ∧
      kept.map (·.asWritten) = derived.bases.map (·.asWritten) ∧
      added.written = normalSpelling base.spelledName ∧ added.isVirtual = false ∧
      (added.access = .pub ↔ derived.bases = [] ∨ derived.key = .struct) := by
  obtain ⟨read, _, hread, rfl⟩ := exists_definition hderived
  obtain rfl := Option.some.inj (hdefinition.symm.trans hread)
  obtain ⟨read, _, hread, rfl⟩ := exists_definition hreread
  obtain rfl := Option.some.inj (hreading.symm.trans hread)
  obtain ⟨-, -, -, htext⟩ := addBase_eq_ok hadd
  obtain ⟨kept, added, hbases, hkept, hwritten, hvirtual, haccess⟩ :=
    hedit.readBases_append htext _ _
  refine ⟨kept, added, hbases, hkept, hwritten, hvirtual, ?_⟩
  rw [haccess, newAccess_eq_pub_iff, List.isEmpty_iff]
  rfl

/-- A `class` with a base, and a class to add. -/
def secondBase : Document where
  text := "struct I \x7b\x7d;\nstruct M \x7b\x7d;\nclass D : M \x7b\x7d;\n".toList

/-- `secondBase` with the other class added. -/
def secondBaseEdited : Document where
  text := "struct I \x7b\x7d;\nstruct M \x7b\x7d;\nclass D : M, I \x7b\x7d;\n".toList

/-- The name of a base, of one letter. -/
def letterBase (start : Nat) : Tree :=
  .node ⟨.typeIdentifier, none, start, start + 1, true, false⟩ []

/-- The tree of the last class in both texts, with the children of its base clause. -/
def secondBaseClass (clause : List Tree) (stop : Nat) : Tree :=
  .node ⟨.classSpecifier, none, 26, stop + 3, true, false⟩
    [.terminal 26 31, .node ⟨.typeIdentifier, some .name, 32, 33, true, false⟩ [],
      .node ⟨.baseClassClause, none, 34, stop, true, false⟩ clause,
      .node ⟨.other, some .body, stop + 1, stop + 3, true, false⟩
        [.terminal (stop + 1) (stop + 2), .terminal (stop + 2) (stop + 3)]]

/-- The tree of both texts. -/
def secondBaseTree (clause : List Tree) (stop : Nat) : Tree :=
  .node ⟨.other, none, 0, stop + 5, true, false⟩
    [bareStructTree 0, .terminal 11 12, bareStructTree 13, .terminal 24 25,
      secondBaseClass clause stop, .terminal (stop + 3) (stop + 4)]

/-- The base clause of `secondBase`. -/
def secondBaseClause : List Tree :=
  [.node ⟨.colon, none, 34, 35, false, false⟩ [], letterBase 36]

/-- The last class of both texts. -/
def secondBaseSource (clause : List Tree) (stop : Nat) : RecordSource where
  tree := secondBaseClass clause stop
  body := .node ⟨.other, some .body, stop + 1, stop + 3, true, false⟩
    [.terminal (stop + 1) (stop + 2), .terminal (stop + 2) (stop + 3)]
  scope := []
  name := "D"

/-- The base clause of `secondBaseEdited`. -/
def secondBaseEditedClause : List Tree :=
  secondBaseClause ++ newEntryTrees false 37 (letterBase 39)

theorem baseEdit_secondBase :
    BaseEdit secondBase secondBaseEdited (secondBaseSource secondBaseClause 37)
      (secondBaseSource secondBaseEditedClause 40) ⟨37, ", I"⟩ false (letterBase 39) where
  inserts := by decide +kernel
  key := rfl
  afterClause := by
    intro t ht _
    obtain rfl | ht := List.mem_cons.1 ht
    · decide
    · rw [List.mem_singleton.1 ht]
      decide
  extended := rfl
  isEntry := rfl
  start_eq := by decide
  stop_eq := by decide

/-- The class with one base gets a second one that is not public. -/
theorem addBase_public_secondBase :
    let u := ofTree secondBase (secondBaseTree secondBaseClause 37) false
    let v := ofTree secondBaseEdited (secondBaseTree secondBaseEditedClause 40) false
    ∃ base derived reread, u.records[0]? = some base ∧ u.records[2]? = some derived ∧
      addBase secondBase.text derived base u.source = .ok ⟨37, ", I"⟩ ∧
      v.records[2]? = some reread ∧
      ∃ kept added, reread.bases = kept ++ [added] ∧ added.written = "I" ∧ added.access ≠ .pub := by
  intro u v
  have hrun : (u.records[0]?.bind fun base => u.records[2]?.map fun derived =>
      ((base.spelledName, derived.bases.map (·.written), derived.key),
        addBase secondBase.text derived base u.source)) =
      some (("I", ["M"], .cls), .ok ⟨37, ", I"⟩) := by decide +kernel
  obtain ⟨base, hbase, hrun⟩ := Option.bind_eq_some_iff.1 hrun
  obtain ⟨derived, hderived, hrun⟩ := Option.map_eq_some_iff.1 hrun
  obtain ⟨hparts, hadd⟩ := Prod.mk.inj hrun
  obtain ⟨hspelled, hparts⟩ := Prod.mk.inj hparts
  obtain ⟨hbases, hkey⟩ := Prod.mk.inj hparts
  have hsome : derived.bases ≠ [] := by
    intro hnone
    rw [hnone] at hbases
    cases hbases
  have hreads : (v.records[2]?.map (·.name)) = some "D" := by decide +kernel
  obtain ⟨reread, hreread, -⟩ := Option.map_eq_some_iff.1 hreads
  have hedit := baseEdit_secondBase
  rw [← List.isEmpty_eq_false_iff.2 hsome] at hedit
  obtain ⟨kept, added, hnew, -, hwritten, -, haccess⟩ :=
    addBase_public_iff rfl hderived hadd hedit rfl hreread
  rw [hspelled] at hwritten
  refine ⟨base, derived, reread, hbase, hderived, hadd, hreread, kept, added, hnew,
    hwritten.trans (by decide), fun hpublic => ?_⟩
  obtain hnone | hstruct := haccess.1 hpublic
  · exact hsome hnone
  · cases hkey.symm.trans hstruct

end TranslationUnit

end ClassEdit
