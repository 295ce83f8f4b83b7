import ClassEdit.Command.Run
import ClassEdit.Proofs.BaseCycles
import ClassEdit.Proofs.WrittenNames

/-!
# Overrides on one line

The texts of attributes and of exception specifications are copied into an override as they are
written, and everything else in it is spelled anew. So an override is on one line if and only if
what is copied into it is, and the output of a list of overrides has a line for each of them only
then.

## Main definitions

* `Method.CopiesOnOneLine`: what is copied into the text of a member function is on one line.
* `TranslationUnit.CopiesOnOneLine`: the same of all overrides that an interface asks for.

## Main statements

* `Method.onOneLine_render_iff`, `Record.onOneLine_renderOverride_iff`: one member function.
* `TranslationUnit.overrides_onOneLine_iff`: all overrides of an interface, and their output.
-/

namespace ClassEdit

/-- What is copied from the text when the member function is rendered has no newlines. -/
def Method.CopiesOnOneLine (m : Method) (source : Source) (options : RenderOptions) : Prop :=
  OnOneLine (source.slice m.exceptionRange) ∧ (options.ignoresAttributes = false →
    ∀ attr ∈ m.attributes, attr.form = .standard → OnOneLine (source.slice attr.range))

instance (m : Method) (source : Source) (options : RenderOptions) :
    Decidable (m.CopiesOnOneLine source options) :=
  inferInstanceAs (Decidable (OnOneLine (source.slice m.exceptionRange) ∧
    (options.ignoresAttributes = false →
      ∀ attr ∈ m.attributes, attr.form = .standard → OnOneLine (source.slice attr.range))))

/-! ## One member function -/

theorem onOneLine_joinFragments {fragments : List String} :
    OnOneLine (joinFragments fragments) ↔ ∀ fragment ∈ fragments, OnOneLine fragment := by
  rw [joinFragments, onOneLine_intercalate (by decide)]
  refine ⟨fun h fragment hfragment => ?_, fun h fragment hfragment =>
    h fragment (List.mem_of_mem_filter hfragment)⟩
  cases hempty : fragment.isEmpty with
  | true =>
    obtain rfl := String.isEmpty_iff.1 hempty
    exact onOneLine_empty
  | false => exact h fragment (List.mem_filter.2 ⟨hfragment, by rw [hempty]; rfl⟩)

namespace Function

variable {f : Function}

theorem onOneLine_renderAttributes_iff (source : Source) :
    OnOneLine (f.renderAttributes source) ↔
      ∀ attr ∈ f.attributes, attr.form = .standard → OnOneLine (source.slice attr.range) := by
  have hopening : OnOneLine "[[" := by decide
  have hclosing : OnOneLine "]]" := by decide
  rw [renderAttributes, onOneLine_intercalate (by decide), List.forall_mem_map]
  simp [hopening, hclosing]

theorem IsSpelledOnOneLine.renderReturnType (h : f.IsSpelledOnOneLine) (source : Source) :
    OnOneLine (f.renderReturnType source) := by
  rw [Function.renderReturnType]
  split_ifs
  · exact onOneLine_empty
  · exact keptBySpelling_onOneLine.spellAround _ _ h.returnType onOneLine_empty

theorem IsSpelledOnOneLine.renderParameters (h : f.IsSpelledOnOneLine) :
    OnOneLine f.renderParameters := by
  refine keptBySpelling_onOneLine.spellParameters _ fun text htext => ?_
  obtain ⟨param, hparam, rfl⟩ := List.mem_map.1 htext
  exact keptBySpelling_onOneLine.declare _ (h.params param hparam).type (h.params param hparam).name

end Function

/-- A member function is rendered on one line if and only if what is copied for it is. -/
theorem Method.onOneLine_render_iff {m : Method} (h : m.toFunction.IsSpelledOnOneLine)
    (source : Source) (options : RenderOptions) :
    OnOneLine (m.render source options) ↔ m.CopiesOnOneLine source options := by
  have hattributes : OnOneLine (if options.ignoresAttributes then ""
      else m.toFunction.renderAttributes source) ↔ (options.ignoresAttributes = false →
        ∀ attr ∈ m.attributes, attr.form = .standard → OnOneLine (source.slice attr.range)) := by
    cases options.ignoresAttributes with
    | true => simp [onOneLine_empty]
    | false => simp [m.toFunction.onOneLine_renderAttributes_iff source]
  have hname : OnOneLine (Style.qualified.spellScopes m.qualifiedName ++
      m.toFunction.renderParameters) :=
    onOneLine_append.2 ⟨Style.onOneLine_spellScopes _ h.name, h.renderParameters⟩
  have hconst : OnOneLine (if m.cv.isConst then "const" else "") := by
    cases m.cv.isConst <;> decide
  have href : OnOneLine ((m.refQualifier.map ValueKind.sigil).getD "") :=
    onOneLine_map_getD fun kind _ => by cases kind <;> decide
  rw [render, onOneLine_joinFragments, List.forall_mem_append]
  simp only [Function.fragments, qualifierFragments, List.forall_mem_cons, hattributes,
    h.renderReturnType source, hname, hconst, href, CopiesOnOneLine]
  simp [and_comm]

/-- Leaving out the class leaves out no newlines. -/
theorem Record.onOneLine_renderOverride_iff {r : Record} {m : Method}
    (hr : OnOneLine r.qualifiedName) (h : m.toFunction.IsSpelledOnOneLine) (source : Source)
    (options : RenderOptions) :
    OnOneLine (r.renderOverride source options m) ↔ m.CopiesOnOneLine source options := by
  have hscope : '\n' ∉ (r.spelledName ++ "::").toList :=
    onOneLine_append.2 ⟨Style.onOneLine_spellScopes _ hr, by decide⟩
  have hne : (r.spelledName ++ "::").toList ≠ [] := by simp
  rw [← m.onOneLine_render_iff h, renderOverride, onOneLine_append, onOneLine_ofList,
    mem_stripScope_iff hscope hne]
  exact and_iff_left (by decide)

/-! ## All overrides -/

namespace TranslationUnit

/-- What is copied into the overrides that an interface asks for has no newlines. -/
def CopiesOnOneLine (u : TranslationUnit) (record : Record) (options : RenderOptions) : Prop :=
  ∀ r ∈ u.basesOf record ++ [record], ∀ method ∈ r.pureMethods,
    method.CopiesOnOneLine u.source options

instance (u : TranslationUnit) (record : Record) (options : RenderOptions) :
    Decidable (u.CopiesOnOneLine record options) :=
  inferInstanceAs (Decidable (∀ r ∈ u.basesOf record ++ [record], ∀ method ∈ r.pureMethods,
    method.CopiesOnOneLine u.source options))

theorem mem_records_of_mem_basesOf {u : TranslationUnit} {record base : Record}
    (h : base ∈ u.basesOf record) : base ∈ u.records := by
  obtain ⟨id, -, hid⟩ := List.mem_filterMap.1 h
  exact List.mem_of_getElem? hid

theorem mem_records_of_requireRecord {u : TranslationUnit} {name : String} {record : Record}
    (h : u.requireRecord name = .ok record) : record ∈ u.records :=
  mem_records_of_findRecord (mapError_eq_ok.1 (mapError_eq_ok.1 h))

variable {document : Document} {tree : Tree} {hasErrors : Bool} {record : Record}

theorem forall_mem_overrides_iff (hnames : (Source.ofTree document tree).NamesOnOneLine tree)
    (hrecord : record ∈ (ofTree document tree hasErrors).records) (options : RenderOptions) :
    (∀ declaration ∈ (ofTree document tree hasErrors).overrides record options,
        OnOneLine declaration) ↔
      (ofTree document tree hasErrors).CopiesOnOneLine record options := by
  rw [overrides, List.forall_mem_flatMap]
  refine forall₂_congr fun r hr => ?_
  have hr : r ∈ (ofTree document tree hasErrors).records := by
    obtain hr | hr := List.mem_append.1 hr
    · exact mem_records_of_mem_basesOf hr
    · exact List.mem_singleton.1 hr ▸ hrecord
  obtain ⟨id, hid⟩ := List.mem_iff_getElem?.1 hr
  obtain ⟨hname, hmethods⟩ := isSpelledOnOneLine_of_isPure hnames hid
  rw [Record.overrides, List.forall_mem_map]
  exact forall₂_congr fun method hmethod =>
    Record.onOneLine_renderOverride_iff hname (hmethods method hmethod) _ options

/-- Let the names in a text be on one line. The overrides of an interface, with or without
attributes, are all on one line if and only if the exception specifications and the attributes that
are copied into them are. The output of the command that lists them has as many lines as there are
overrides in this case only, and then its lines are the overrides. -/
theorem overrides_onOneLine_iff (hnames : (Source.ofTree document tree).NamesOnOneLine tree)
    (hrecord : record ∈ (ofTree document tree hasErrors).records) (options : RenderOptions) :
    ((∀ declaration ∈ (ofTree document tree hasErrors).overrides record options,
        OnOneLine declaration) ↔
      (ofTree document tree hasErrors).CopiesOnOneLine record options) ∧
    ∀ name, (ofTree document tree hasErrors).requireRecord name = .ok record →
      ∃ output, (∀ env file dir, ((Command.overrides name).run env file
          (ofTree document tree hasErrors) ⟨options, .text⟩).apply dir = (.ok output, dir)) ∧
        ((Text.lines output.toList).length =
            ((ofTree document tree hasErrors).overrides record options).length ↔
          (ofTree document tree hasErrors).CopiesOnOneLine record options) ∧
        ((ofTree document tree hasErrors).CopiesOnOneLine record options →
          Text.lines output.toList =
            ((ofTree document tree hasErrors).overrides record options).map String.toList) := by
  have hoverrides := forall_mem_overrides_iff hnames hrecord options
  refine ⟨hoverrides, fun name hname => ?_⟩
  refine ⟨endedLines ((ofTree document tree hasErrors).overrides record options), ?_, ?_, ?_⟩
  · intro env file dir
    rw [Command.run, hname]
    rfl
  · rw [length_lines_endedLines_iff, hoverrides]
  · intro hcopies
    exact lines_endedLines (hoverrides.2 hcopies)

end TranslationUnit

/-! ## An attribute on two lines -/

/-- A class whose member function has an attribute with a line break inside. -/
def brokenAttribute : Document where
  text := "struct I \x7b [[a(\n1)]] virtual void f() noexcept = 0; \x7d;".toList

/-- The tree of `brokenAttribute`. -/
def brokenAttributeTree : Tree :=
  .node ⟨.other, none, 0, 54, true, false⟩
    [.node ⟨.structSpecifier, none, 0, 53, true, false⟩
      [.terminal 0 6, .node ⟨.typeIdentifier, some .name, 7, 8, true, false⟩ [],
        .node ⟨.other, some .body, 9, 53, true, false⟩
          [.terminal 9 10,
            .node ⟨.fieldDeclaration, none, 11, 51, true, false⟩
              [.node ⟨.attributeDeclaration, none, 11, 20, true, false⟩
                [.terminal 11 13,
                  .node ⟨.attributeEntry, none, 13, 18, true, false⟩
                    [.node ⟨.identifier, some .name, 13, 14, true, false⟩ [],
                      .node ⟨.other, none, 14, 18, true, false⟩
                        [.terminal 14 15, .node ⟨.numberLiteral, none, 16, 17, true, false⟩ [],
                          .terminal 17 18]],
                  .terminal 18 20],
                .node ⟨.virtualWord, none, 21, 28, true, false⟩ [],
                .node ⟨.primitiveType, some .type, 29, 33, true, false⟩ [],
                .node ⟨.functionDeclarator, some .declarator, 34, 46, true, false⟩
                  [.node ⟨.fieldIdentifier, some .declarator, 34, 35, true, false⟩ [],
                    .node ⟨.other, some .parameters, 35, 37, true, false⟩
                      [.terminal 35 36, .terminal 36 37],
                    .node ⟨.noexceptSpecifier, none, 38, 46, true, false⟩ [.terminal 38 46]],
                .terminal 47 48,
                .node ⟨.numberLiteral, some .defaultValue, 49, 50, true, false⟩ [],
                .terminal 50 51],
            .terminal 52 53]],
      .terminal 53 54]

/-- With its attributes the override is on two lines, and without them on one. -/
theorem TranslationUnit.overrides_onOneLine_brokenAttribute :
    ∃ record ∈ (ofTree brokenAttribute brokenAttributeTree false).records,
      (ofTree brokenAttribute brokenAttributeTree false).overrides record ⟨false⟩ =
        ["[[a(\n1)]] void f() noexcept override;"] ∧
      (¬ ∀ declaration ∈ (ofTree brokenAttribute brokenAttributeTree false).overrides record
        ⟨false⟩, OnOneLine declaration) ∧
      (∀ declaration ∈ (ofTree brokenAttribute brokenAttributeTree false).overrides record
        ⟨true⟩, OnOneLine declaration) ∧
      ∃ output, (∀ env file dir, ((Command.overrides "I").run env file
          (ofTree brokenAttribute brokenAttributeTree false) ⟨⟨false⟩, .text⟩).apply dir =
            (.ok output, dir)) ∧ (Text.lines output.toList).length ≠ 1 := by
  have hrun : ((ofTree brokenAttribute brokenAttributeTree false).requireRecord "I").map
      (fun record => ((ofTree brokenAttribute brokenAttributeTree false).overrides record ⟨false⟩,
        decide ((ofTree brokenAttribute brokenAttributeTree false).CopiesOnOneLine record ⟨false⟩),
        decide
          ((ofTree brokenAttribute brokenAttributeTree false).CopiesOnOneLine record ⟨true⟩))) =
      .ok (["[[a(\n1)]] void f() noexcept override;"], false, true) := by decide +kernel
  have hnames : (Source.ofTree brokenAttribute brokenAttributeTree).NamesOnOneLine
      brokenAttributeTree := by decide +kernel
  cases hfound : (ofTree brokenAttribute brokenAttributeTree false).requireRecord "I" with
  | error error =>
    rw [hfound] at hrun
    cases hrun
  | ok record =>
    rw [hfound] at hrun
    obtain ⟨hoverrides, hrest⟩ := Prod.mk.inj (Except.ok.inj hrun)
    obtain ⟨hkept, hleft⟩ := Prod.mk.inj hrest
    have hrecord := mem_records_of_requireRecord hfound
    obtain ⟨hlines, houtput⟩ := overrides_onOneLine_iff hnames hrecord ⟨false⟩
    obtain ⟨output, hprint, hlength, -⟩ := houtput "I" hfound
    have hwithout := (overrides_onOneLine_iff hnames hrecord ⟨true⟩).1.2 (of_decide_eq_true hleft)
    refine ⟨record, hrecord, hoverrides, hlines.not.2 (of_decide_eq_false hkept), hwithout, output,
      hprint, ?_⟩
    intro hone
    refine of_decide_eq_false hkept (hlength.1 ?_)
    rw [hone, hoverrides, List.length_singleton]

end ClassEdit
