import ClassEdit.Edit.Implement
import ClassEdit.Proofs.CompleteClass
import ClassEdit.Proofs.Splice

/-!
# The text after an edit

The edit that makes a class implement an interface has up to two insertions, a base at the end of
the head and the overrides at the place for public members. The place is past the head, so the two
do not meet, and each of them leaves the text around it as it is. In particular a place at the
start of a line is still at the start of a line once the base is there.

## Main definitions

* `Implementation.baseText`, `Implementation.overridesText`: what the edit inserts.
* `declarationLines`: declarations on a line each.

## Main statements

* `Implementation.apply_eq_ok`: the text after an edit whose insertions are in order.
* `TranslationUnit.apply_implement`: the text after the edit of a complete class.
-/

namespace ClassEdit

/-! ## Insertions in order -/

section Insertions

variable {x y z : List Char} {a b : Insertion}

@[simp] theorem applyInsertions_nil (text : List Char) : applyInsertions text [] = .ok text := by
  rw [applyInsertions_of_isBoundary (by simp), splice_nil]

theorem applyInsertions_single (ha : a.offset = Text.byteLength x) :
    applyInsertions (x ++ z) [a] = .ok (x ++ a.text.toList ++ z) := by
  have hx : Text.IsBoundary (x ++ z) a.offset := ha ▸ Text.isBoundary_append x z
  rw [applyInsertions_of_isBoundary (by simpa using hx),
    ← Insertion.insertInto_splice hx (by simp), splice_nil, Insertion.insertInto_append ha]

/-- Two insertions at different offsets do not disturb each other. -/
theorem applyInsertions_pair (ha : a.offset = Text.byteLength x)
    (hb : b.offset = Text.byteLength (x ++ y)) (hlt : a.offset < b.offset) :
    applyInsertions (x ++ y ++ z) [a, b] =
      .ok (x ++ a.text.toList ++ y ++ b.text.toList ++ z) := by
  have hx : Text.IsBoundary (x ++ y ++ z) a.offset := by
    rw [ha, List.append_assoc]
    exact Text.isBoundary_append _ _
  have hy : Text.IsBoundary (x ++ y ++ z) b.offset := hb ▸ Text.isBoundary_append _ _
  have hfirst : b.insertInto (x ++ y ++ z) = x ++ (y ++ b.text.toList ++ z) := by
    rw [Insertion.insertInto_append hb]
    simp
  have hboth : ∀ i ∈ [a, b], Text.IsBoundary (x ++ y ++ z) i.offset :=
    List.forall_mem_cons.2 ⟨hx, List.forall_mem_singleton.2 hy⟩
  rw [applyInsertions_of_isBoundary hboth,
    ← Insertion.insertInto_splice hx (by simpa using hlt.le),
    ← Insertion.insertInto_splice hy (by simp), splice_nil, hfirst, Insertion.insertInto_append ha]
  simp

end Insertions

namespace Implementation

/-- The text of the new base. -/
def baseText (i : Implementation) : List Char :=
  (i.baseSpecifier.map (·.text.toList)).getD []

/-- The text of the overrides. -/
def overridesText (i : Implementation) : List Char :=
  (i.overrides.map (·.text.toList)).getD []

/-- The edit inserts at the end of `x` and at the end of `y`. -/
structure InsertsAt (i : Implementation) (x y : List Char) : Prop where
  base : ∀ insertion, i.baseSpecifier = some insertion → insertion.offset = Text.byteLength x
  overrides : ∀ insertion, i.overrides = some insertion →
    insertion.offset = Text.byteLength (x ++ y)
  ordered : ∀ a b, i.baseSpecifier = some a → i.overrides = some b → a.offset < b.offset

/-- Insertions at positions of the text that are in order divide it into three parts. -/
theorem exists_insertsAt_of_isBoundary {i : Implementation} {text : List Char}
    (hbase : ∀ a, i.baseSpecifier = some a → Text.IsBoundary text a.offset)
    (hoverrides : ∀ b, i.overrides = some b → Text.IsBoundary text b.offset)
    (hordered : ∀ a b, i.baseSpecifier = some a → i.overrides = some b → a.offset < b.offset) :
    ∃ x y z, text = x ++ y ++ z ∧ i.InsertsAt x y := by
  obtain ⟨declarations, baseSpecifier, overrides, needsLabel⟩ := i
  cases baseSpecifier with
  | none =>
    cases overrides with
    | none => exact ⟨[], [], text, rfl, by simp, by simp, by simp⟩
    | some b =>
      obtain ⟨y, z, rfl, hy⟩ := Text.isBoundary_iff.1 (hoverrides b rfl)
      exact ⟨[], y, z, rfl, by simp, by simp [hy], by simp⟩
  | some a =>
    cases overrides with
    | none =>
      obtain ⟨x, z, rfl, hx⟩ := Text.isBoundary_iff.1 (hbase a rfl)
      exact ⟨x, [], z, by simp, by simp [hx], by simp, by simp⟩
    | some b =>
      have hlt := hordered a b rfl rfl
      obtain ⟨y, hy⟩ := (hbase a rfl).exists_slice? (hoverrides b rfl) hlt.le
      obtain ⟨x, z, rfl, hx, hxy⟩ := Text.slice?_eq_some_iff.1 hy
      exact ⟨x, y, z, rfl, by simp [hx], by simp [hx, hxy], hordered⟩

/-- If there is a new base then the overrides do not follow it at once. -/
theorem InsertsAt.baseText_eq_nil_or {i : Implementation} {x y : List Char}
    (h : i.InsertsAt x y) {overrides : Insertion} (hoverrides : i.overrides = some overrides) :
    i.baseText = [] ∨ y ≠ [] := by
  cases hbase : i.baseSpecifier with
  | none => exact .inl (by simp [baseText, hbase])
  | some base =>
    right
    rintro rfl
    have hlt := h.ordered base overrides hbase hoverrides
    rw [h.base base hbase, h.overrides overrides hoverrides, List.append_nil] at hlt
    exact Nat.lt_irrefl _ hlt

/-- The text after an edit whose insertions are in order. -/
theorem apply_eq_ok {i : Implementation} {x y : List Char} (h : i.InsertsAt x y) (z : List Char) :
    i.apply (x ++ y ++ z) = .ok (x ++ i.baseText ++ y ++ i.overridesText ++ z) := by
  obtain ⟨declarations, baseSpecifier, overrides, needsLabel⟩ := i
  cases baseSpecifier with
  | none =>
    cases overrides with
    | none => simp [apply, insertions, baseText, overridesText, applyInsertions_nil]
    | some b => simpa [apply, insertions, baseText, overridesText] using
        applyInsertions_single (z := z) (h.overrides b rfl)
  | some a =>
    cases overrides with
    | none => simpa [apply, insertions, baseText, overridesText] using
        applyInsertions_single (z := y ++ z) (h.base a rfl)
    | some b => simpa [apply, insertions, baseText, overridesText] using
        applyInsertions_pair (z := z) (h.base a rfl) (h.overrides b rfl) (h.ordered a b rfl rfl)

end Implementation

/-! ## Starts of lines -/

/-- A line starts after the text. -/
def EndsLine (before : List Char) : Prop :=
  before = [] ∨ before.getLast? = some '\n'

theorem isLineStart_append (before after : List Char) :
    isLineStart (before ++ after) (Text.byteLength before) = true ↔ EndsLine before := by
  simp [isLineStart, EndsLine]

theorem endsLine_append_newline (before : List Char) : EndsLine (before ++ ['\n']) :=
  .inr (by simp)

/-- Only the last part decides, unless it is empty. -/
theorem EndsLine.append_congr {x x' y : List Char} (h : EndsLine (x ++ y)) (hy : y ≠ []) :
    EndsLine (x' ++ y) := by
  obtain ⟨ys, c, rfl⟩ := List.eq_nil_or_concat y |>.resolve_left hy
  simpa [EndsLine] using h

/-- Declarations on a line each. -/
def declarationLines (declarations : List String) : List Char :=
  declarations.flatMap (·.toList ++ ['\n'])

theorem EndsLine.append_declarationLines {before : List Char} (h : EndsLine before)
    (declarations : List String) : EndsLine (before ++ declarationLines declarations) := by
  obtain rfl | ⟨front, last, rfl⟩ := List.eq_nil_or_concat declarations
  · simpa [declarationLines] using h
  · have := endsLine_append_newline (before ++ declarationLines front ++ last.toList)
    simpa [declarationLines] using this

/-- What comes before the declarations of a section. -/
def sectionLead (needsLabel atLineStart : Bool) : List Char :=
  (if atLineStart then [] else ['\n']) ++ (if needsLabel then "public:\n".toList else [])

theorem toList_sectionText (declarations : List String) (needsLabel atLineStart : Bool) :
    (sectionText declarations needsLabel atLineStart).toList =
      sectionLead needsLabel atLineStart ++ declarationLines declarations := by
  have hlines : (String.join (declarations.map (· ++ "\n"))).toList =
      declarationLines declarations := by
    simp [String.toList_join, declarationLines, List.flatMap_def, Function.comp_def]
  rw [sectionText, String.toList_append, String.toList_append, hlines, sectionLead]
  cases needsLabel <;> cases atLineStart <;> rfl

theorem endsLine_append_sectionLead {before : List Char} {needsLabel atLineStart : Bool}
    (h : atLineStart = true → EndsLine before) :
    EndsLine (before ++ sectionLead needsLabel atLineStart) := by
  cases needsLabel with
  | true =>
    have := endsLine_append_newline
      (before ++ (if atLineStart then [] else ['\n']) ++ "public:".toList)
    simpa [sectionLead] using this
  | false =>
    cases atLineStart with
    | true => simpa [sectionLead] using h rfl
    | false => simpa [sectionLead] using endsLine_append_newline before

/-! ## The edit of a complete class -/

/-- A new base goes to the end of the head, after a colon or a comma. -/
theorem addBase_eq_ok {content : List Char} {derived base : Record} {source : Source}
    {insertion : Insertion} (h : addBase content derived base source = .ok insertion) :
    ∃ head, derived.head source = .ok head ∧ insertion.offset = head.last.stop ∧
      insertion.text =
        (if derived.bases.isEmpty then " : public " else ", ") ++ base.spelledName := by
  obtain ⟨head, hhead, h⟩ := exists_of_bind_eq_ok h
  refine ⟨head, hhead, ?_⟩
  split_ifs at h with _ hbases
  all_goals
    obtain rfl := Except.ok.inj h
    simp [hbases]

namespace TranslationUnit

variable {u : TranslationUnit} {derived interface : Record} {options : RenderOptions}
  {edit : Implementation}

theorem deriveFrom?_eq_ok {insertion : Insertion}
    (h : u.deriveFrom? derived interface = .ok (some insertion)) :
    ∃ head, derived.head u.source = .ok head ∧ insertion.offset = head.last.stop := by
  rw [deriveFrom?] at h
  split_ifs at h with hderived
  · cases h
  · cases hbase : addBase u.source.text derived interface u.source with
    | error e => simp [hbase, Except.map] at h
    | ok base =>
      obtain rfl : base = insertion := by simpa [hbase, Except.map] using h
      obtain ⟨head, hhead, hoffset, -⟩ := addBase_eq_ok hbase
      exact ⟨head, hhead, hoffset⟩

/-- An edit of a class for another one adds the base, and the overrides if there are any. -/
theorem implement_eq_ok (h : u.implement derived interface options = .ok edit) :
    derived.id ≠ interface.id ∧ u.deriveFrom? derived interface = .ok edit.baseSpecifier ∧
      edit.declarations = u.overrides interface options ∧
      ((edit.declarations = [] ∧ edit.overrides = none) ∨
        ∃ place, findPublicPlace u.source.text derived u.source = .ok place ∧
          edit.overrides = some (insertOverrides u.source.text edit.declarations place)) := by
  rw [implement] at h
  split_ifs at h with hself
  obtain ⟨base, hbase, h⟩ := exists_of_bind_eq_ok h
  dsimp only at h
  split_ifs at h with hempty
  · obtain rfl := Except.ok.inj h
    exact ⟨hself, hbase, rfl, .inl ⟨List.isEmpty_iff.1 hempty, rfl⟩⟩
  · obtain ⟨place, hplace, h⟩ := exists_of_bind_eq_ok h
    obtain rfl := Except.ok.inj h
    exact ⟨hself, hbase, rfl, .inr ⟨place, hplace, rfl⟩⟩

variable {document : Document} {tree : Tree} {hasErrors : Bool} {id : RecordId}
  {definition : RecordSource}

/-- The insertions of an edit of a complete class are at positions of the text and in order. -/
theorem exists_insertsAt (h : IsCompleteClass document tree hasErrors id definition derived)
    (hedit : (ofTree document tree hasErrors).implement derived interface options = .ok edit) :
    ∃ x y z, document.text = x ++ y ++ z ∧ edit.InsertsAt x y := by
  obtain ⟨-, hderive, -, hplace⟩ := implement_eq_ok hedit
  have hbase : ∀ a, edit.baseSpecifier = some a → ∃ head,
      derived.head (Source.ofTree document tree) = .ok head ∧ a.offset = head.last.stop :=
    fun a ha => deriveFrom?_eq_ok (ha ▸ hderive)
  have hoverrides : ∀ b, edit.overrides = some b → ∃ place,
      findPublicPlace document.text derived (Source.ofTree document tree) = .ok place ∧
        b.offset = place.offset := by
    intro b hb
    obtain ⟨-, hnone⟩ | ⟨place, hplace, hsome⟩ := hplace
    · simp [hnone] at hb
    · obtain rfl := Option.some.inj (hsome.symm.trans hb)
      exact ⟨place, hplace, rfl⟩
  apply Implementation.exists_insertsAt_of_isBoundary
  · intro a ha
    obtain ⟨head, hhead, hoffset⟩ := hbase a ha
    obtain ⟨-, before, rest, hsplit⟩ := Record.head_eq_ok hhead
    rw [hoffset]
    exact h.lexed.isBoundary_stop (by simp [hsplit])
  · intro b hb
    obtain ⟨place, hplace, hoffset⟩ := hoverrides b hb
    rw [hoffset]
    exact h.isBoundary_offset hplace
  · intro a b ha hb
    obtain ⟨head, hhead, hoffset⟩ := hbase a ha
    obtain ⟨place, hplace, hoffset'⟩ := hoverrides b hb
    obtain ⟨-, before, rest, hsplit⟩ := Record.head_eq_ok hhead
    rw [hoffset, hoffset']
    calc head.last.stop ≤ head.brace.start := h.lexed.stop_le_start hsplit List.mem_cons_self
      _ < head.brace.stop := h.lexed.nonempty head.brace (by simp [hsplit])
      _ ≤ place.offset := h.brace_stop_le_offset hplace hhead

/-- The edit of a complete class can be made. The text after it is the text before it with a base at
the end of the head and the overrides further on, and each override starts on a line of its own. -/
theorem apply_implement (h : IsCompleteClass document tree hasErrors id definition derived)
    (hedit : (ofTree document tree hasErrors).implement derived interface options = .ok edit) :
    ∃ edited x y z lead, edit.apply document.text = .ok edited ∧
      document.text = x ++ y ++ z ∧ edit.InsertsAt x y ∧
      edited = x ++ edit.baseText ++ y ++ edit.overridesText ++ z ∧
      edit.declarations = (ofTree document tree hasErrors).overrides interface options ∧
      edit.overridesText = lead ++ declarationLines edit.declarations ∧
      ∀ front declaration rest, edit.declarations = front ++ declaration :: rest →
        isLineStart edited (Text.byteLength
          (x ++ edit.baseText ++ y ++ lead ++ declarationLines front)) = true := by
  obtain ⟨x, y, z, htext, hinserts⟩ := exists_insertsAt h hedit
  obtain ⟨-, -, hdeclarations, hplace⟩ := implement_eq_ok hedit
  have happly := Implementation.apply_eq_ok hinserts z
  rw [← htext] at happly
  obtain ⟨hempty, hnone⟩ | ⟨place, -, hsome⟩ := hplace
  · refine ⟨_, x, y, z, [], happly, htext, hinserts, rfl, hdeclarations, ?_, ?_⟩
    · simp [Implementation.overridesText, hnone, hempty, declarationLines]
    · intro front declaration rest hsplit
      simp [hempty] at hsplit
  · have hlines : edit.overridesText =
        sectionLead place.needsLabel (isLineStart document.text place.offset) ++
          declarationLines edit.declarations := by
      rw [Implementation.overridesText, hsome, ← toList_sectionText]
      rfl
    have hoffset : place.offset = Text.byteLength (x ++ y) := hinserts.overrides _ hsome
    refine ⟨_, x, y, z, _, happly, htext, hinserts, rfl, hdeclarations, hlines, ?_⟩
    intro front declaration rest hsplit
    rw [hlines, hsplit, declarationLines, List.flatMap_append, ← declarationLines,
      ← List.append_assoc, ← List.append_assoc, List.append_assoc, isLineStart_append]
    apply EndsLine.append_declarationLines
    apply endsLine_append_sectionLead
    intro hstart
    have hend : EndsLine (x ++ y) := by
      rwa [hoffset, htext, isLineStart_append] at hstart
    obtain hbase | hy := hinserts.baseText_eq_nil_or hsome
    · rwa [hbase, List.append_nil]
    · exact hend.append_congr hy

/-- An interface and a class without members. -/
def bareImplementor : Document where
  text := "struct I \x7b virtual void f() = 0; \x7d;\nclass D \x7b\x7d;\n".toList

/-- The body of the class in `bareImplementor`. -/
def bareBody : Tree :=
  .node ⟨.other, some .body, 44, 46, true, false⟩ [.terminal 44 45, .terminal 45 46]

/-- The class in `bareImplementor`. -/
def bareDefinition : RecordSource where
  tree := .node ⟨.classSpecifier, none, 36, 46, true, false⟩
    [.terminal 36 41, .node ⟨.typeIdentifier, some .name, 42, 43, true, false⟩ [], bareBody]
  body := bareBody
  scope := []
  name := "D"

/-- The tree of `bareImplementor`. -/
def bareTree : Tree :=
  .node ⟨.other, none, 0, 48, true, false⟩
    [.node ⟨.structSpecifier, none, 0, 34, true, false⟩
      [.terminal 0 6, .node ⟨.typeIdentifier, some .name, 7, 8, true, false⟩ [],
        .node ⟨.other, some .body, 9, 34, true, false⟩
          [.terminal 9 10,
            .node ⟨.fieldDeclaration, none, 11, 32, true, false⟩
              [.node ⟨.virtualWord, none, 11, 18, false, false⟩ [],
                .node ⟨.primitiveType, some .type, 19, 23, true, false⟩ [],
                .node ⟨.functionDeclarator, some .declarator, 24, 27, true, false⟩
                  [.node ⟨.fieldIdentifier, some .declarator, 24, 25, true, false⟩ [],
                    .node ⟨.other, some .parameters, 25, 27, true, false⟩
                      [.terminal 25 26, .terminal 26 27]],
                .terminal 28 29, .node ⟨.numberLiteral, some .defaultValue, 30, 31, true, false⟩ [],
                .terminal 31 32],
            .terminal 33 34]],
      .terminal 34 35, bareDefinition.tree, .terminal 46 47]

/-- The edit that makes the class implement the interface. -/
def bareEdit : Implementation where
  declarations := ["void f() override;"]
  baseSpecifier := some ⟨43, " : public I"⟩
  overrides := some ⟨45, "\npublic:\nvoid f() override;\n"⟩
  needsLabel := true

theorem apply_implement_bareImplementor :
    ∃ derived interface,
      (ofTree bareImplementor bareTree false).records[0]? = some interface ∧
      IsCompleteClass bareImplementor bareTree false 1 bareDefinition derived ∧
      (ofTree bareImplementor bareTree false).implement derived interface {} = .ok bareEdit ∧
      ∃ edited x y z lead, bareEdit.apply bareImplementor.text = .ok edited ∧
        bareImplementor.text = x ++ y ++ z ∧ bareEdit.InsertsAt x y ∧
        edited = x ++ bareEdit.baseText ++ y ++ bareEdit.overridesText ++ z ∧
        bareEdit.overridesText = lead ++ declarationLines bareEdit.declarations ∧
        isLineStart edited (Text.byteLength (x ++ bareEdit.baseText ++ y ++ lead)) = true := by
  have hrun : ((ofTree bareImplementor bareTree false).records[1]?.bind fun derived =>
      (ofTree bareImplementor bareTree false).records[0]?.map fun interface =>
        (ofTree bareImplementor bareTree false).implement derived interface {}) =
      some (.ok bareEdit) := by decide +kernel
  obtain ⟨derived, hderived, hrun⟩ := Option.bind_eq_some_iff.1 hrun
  obtain ⟨interface, hinterface, hedit⟩ := Option.map_eq_some_iff.1 hrun
  have hcomplete : IsCompleteClass bareImplementor bareTree false 1 bareDefinition derived :=
    ⟨by decide +kernel, rfl, by decide +kernel, hderived⟩
  obtain ⟨edited, x, y, z, lead, happly, htext, hinserts, hedited, -, hlines, hstarts⟩ :=
    apply_implement hcomplete hedit
  refine ⟨derived, interface, hinterface, hcomplete, hedit, edited, x, y, z, lead, happly, htext,
    hinserts, hedited, hlines, ?_⟩
  simpa [declarationLines] using hstarts [] "void f() override;" [] rfl

end TranslationUnit

end ClassEdit
