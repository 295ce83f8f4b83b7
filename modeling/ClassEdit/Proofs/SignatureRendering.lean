import ClassEdit.Proofs.ClassNumbers
import ClassEdit.Proofs.ClosedTexts

/-!
# Rendered signatures

The members of a class are rendered with the class in front of their names, after the attributes
and the return type. Of two members with the same attributes and return type the texts differ in
what is shown of their signatures. That is everything that tells overloads apart except whether they
are `volatile`. In an override the parameters are shown without the class in front of their names,
so a type of the class is shown like a type of that name outside of it. For this the parts of the
text must be told apart, and they are if the types are legible.

## Main definitions

* `Method.shown`: what is shown of a member function from its name on.
* `Method.front`, `Method.returned`: what is shown before its scope.
* `Method.IsLegible`: members whose parts are told apart.

## Main statements

* `TranslationUnit.name_of_mem_methods`: what the members of a class are called.
* `toList_joinFragments`: fragments on both sides of one that is not empty.
* `Method.toList_render`: the text from what is shown.
* `Record.toList_renderOverride`: the text of an override.
* `Method.shown_eq_iff`: when the same is shown of two members.
* `Method.IsLegible.isPlain_shown`, `Method.IsLegible.not_returned_isPrefix`: what is shown of a
  legible member.
* `TranslationUnit.render_eq_iff_signature_eq`: when two members are rendered the same.
-/

namespace ClassEdit

/-! ## Names of members -/

theorem Context.qualifiedName_of_readFunction? {ctx : Context} {t declarator : Tree}
    {qualifier : String} {signature : Signature}
    (h : ctx.readFunction? t declarator qualifier = some signature) :
    signature.function.qualifiedName = qualify qualifier signature.function.name := by
  obtain ⟨parts, -, h⟩ := Option.bind_eq_some_iff.1 h
  obtain rfl := Option.some.inj h
  rfl

theorem name_of_readMethod? {ctx : Context} {id : RecordId} {r : RecordSource} {access : Access}
    {t declarator : Tree} {method : Method}
    (h : readMethod? ctx id r access t declarator = some method) :
    method.qualifiedName = qualify r.qualifiedName method.name ∧
      Text.occursIn "::".toList method.name.toList = false := by
  obtain ⟨signature, hsignature, h⟩ := Option.bind_eq_some_iff.1 h
  simp only [Option.ite_none_left_eq_some, Option.some.injEq] at h
  obtain ⟨hcolons, rfl⟩ := h
  exact ⟨ctx.qualifiedName_of_readFunction? hsignature, by simpa using hcolons⟩

/-- A text without colons has no two in a row. -/
theorem occursIn_colons_of_notMem {cs : List Char} (h : ':' ∉ cs) :
    Text.occursIn "::".toList cs = false := by
  induction cs with
  | nil => rfl
  | cons c cs ih =>
    rw [List.mem_cons, not_or] at h
    have hstart : "::".toList.isPrefixOf (c :: cs) = false := by simp [List.isPrefixOf, h.1]
    rw [Text.occursIn, hstart, ih h.2, Bool.or_false]

/-- A member is called by its name in the scope of its class, and its name has no scopes. -/
theorem TranslationUnit.name_of_mem_methods {document : Document} {tree : Tree} {hasErrors : Bool}
    {id : RecordId} {record : Record}
    (h : (ofTree document tree hasErrors).records[id]? = some record)
    (hcolon : ':' ∉ record.name.toList) : ∀ method ∈ record.methods,
      method.qualifiedName = qualify record.qualifiedName method.name ∧
        Text.occursIn "::".toList method.name.toList = false := by
  obtain ⟨definition, isDynamic, -, rfl⟩ := exists_definition h
  apply Record.forall_mem_complete
  · intro method hmethod
    obtain ⟨_, _, _, _, hread⟩ := RecordSource.exists_of_mem_readMethods hmethod
    exact name_of_readMethod? hread
  · intro name returnType params kind hname
    have hcolon : ':' ∉ definition.name.toList := hcolon
    have hnotMem : ':' ∉ name.toList := by
      obtain rfl | rfl := hname
      · decide
      · simpa [RecordSource.read] using hcolon
    exact ⟨rfl, occursIn_colons_of_notMem hnotMem⟩

/-! ## Spelling in the scope of a class -/

namespace Text

variable {pattern : List Char}

/-- If nothing is left that an occurrence could start with, then none goes on after the text. -/
theorem replaceFrom_append_of_notMem_replaceFrom {c : Char} {cs : List Char}
    (hpattern : pattern.head? = some c) {skip : Nat} (hskip : skip ≤ cs.length)
    (h : c ∉ replaceFrom pattern [] skip cs) (rest : List Char) :
    replaceFrom pattern [] skip (cs ++ rest) =
      replaceFrom pattern [] skip cs ++ replaceFrom pattern [] 0 rest := by
  induction cs generalizing skip with
  | nil =>
    obtain rfl : skip = 0 := by simpa using hskip
    rfl
  | cons d cs ih =>
    cases skip with
    | succ skip => exact ih (by simpa using hskip) h
    | zero =>
      rw [replaceFrom] at h
      rw [List.cons_append, replaceFrom, replaceFrom]
      split at h
      case isTrue hstart =>
        have hbegins := List.isPrefixOf_iff_prefix.1 hstart
        have hlength : pattern.length - 1 ≤ cs.length := by
          have := hbegins.length_le
          rw [List.length_cons] at this
          omega
        have hlonger : pattern.isPrefixOf (d :: (cs ++ rest)) = true :=
          List.isPrefixOf_iff_prefix.2 (hbegins.trans (List.prefix_append (d :: cs) rest))
        rw [if_pos hstart, if_pos hlonger, List.nil_append, List.nil_append, ih hlength h]
      case isFalse hstart =>
        rw [List.mem_cons, not_or] at h
        have hlonger : pattern.isPrefixOf (d :: (cs ++ rest)) = false := by
          obtain ⟨ps, rfl⟩ := List.head?_eq_some_iff.1 hpattern
          simp [List.isPrefixOf, h.1]
        rw [if_neg hstart, hlonger, if_neg Bool.false_ne_true, ih (Nat.zero_le _) h.2,
          List.cons_append]

end Text

/-- A member is spelled with its class in front. -/
theorem spellScopes_qualify {scope name : String}
    (hscope : IsWord (Style.qualified.spellScopes scope))
    (hname : Text.occursIn "::".toList name.toList = false) :
    Style.qualified.spellScopes (qualify scope name) =
      Style.qualified.spellScopes scope ++ "::" ++ name := by
  have hne : ¬ scope.isEmpty := by
    rintro hempty
    obtain rfl := String.isEmpty_iff.1 hempty
    exact hscope.1 rfl
  have hpattern : (unnamedNamespace ++ "::").toList.head? = some '(' := by decide
  have hopen : '(' ∉ Text.replaceFrom (unnamedNamespace ++ "::").toList [] 0 scope.toList := by
    rw [← Style.toList_spellScopes]
    intro hmem
    exact absurd (hscope.2 _ hmem) (by decide)
  have hcolons : '(' ∉ "::".toList := by decide
  have hinfix : ¬ (unnamedNamespace ++ "::").toList <:+: name.toList :=
    not_isInfix_of_colons ⟨unnamedNamespace.toList, [], by simp⟩ hname
  have hsplit : (scope ++ "::" ++ name).toList = scope.toList ++ ("::".toList ++ name.toList) := by
    simp
  rw [qualify, if_neg hne, ← String.toList_inj, Style.toList_spellScopes, hsplit,
    Text.replaceFrom_append_of_notMem_replaceFrom hpattern (Nat.zero_le _) hopen,
    Text.replaceFrom_append_of_notMem hpattern hcolons, Text.replaceFrom_of_not_isInfix hinfix]
  simp [Style.toList_spellScopes]

/-! ## Fragments -/

/-- A fragment with a space after it, unless there is nothing to show. -/
def leading (fragment : String) : List Char :=
  if fragment.isEmpty then [] else fragment.toList ++ [' ']

theorem leading_inj {a b : String} : leading a = leading b ↔ a = b := by
  refine ⟨fun h => ?_, congrArg leading⟩
  unfold leading at h
  split at h <;> split at h <;> simp_all [String.toList_inj]

/-- Around a fragment that is not empty, the other ones are shown with a space between. -/
theorem toList_joinFragments (front back : List String) {fragment : String} (h : fragment ≠ "") :
    (joinFragments (front ++ fragment :: back)).toList =
      front.flatMap leading ++
        (fragment.toList ++ back.flatMap fun other => spaced other.toList) := by
  have hback :
      (back.filter fun other => !other.isEmpty).flatMap (fun other => ' ' :: other.toList) =
        back.flatMap fun other => spaced other.toList := by
    induction back with
    | nil => rfl
    | cons other back ih =>
      cases hother : other.isEmpty <;> simp_all [spaced]
  rw [joinFragments, String.toList_intercalate, List.filter_append,
    List.filter_cons_of_pos (by simpa using h)]
  induction front with
  | nil =>
    rw [List.filter_nil, List.nil_append, List.map_cons, intercalate_cons, List.flatMap_map,
      List.flatMap_nil, List.nil_append, ← hback]
    rfl
  | cons other front ih =>
    rw [List.flatMap_cons, leading]
    cases hother : other.isEmpty with
    | true =>
      rw [List.filter_cons_of_neg (by simpa using hother), ih]
      rfl
    | false =>
      rw [List.filter_cons_of_pos (by simpa using hother), List.cons_append, List.map_cons,
        List.intercalate_cons_of_ne_nil (by simp), ih]
      simp

/-! ## What is shown of a member -/

/-- How a parameter is shown. -/
def Parameter.text (param : Parameter) : List Char :=
  (param.type.declare .qualified param.name).toList

namespace Method

/-- What is shown of a member function after its scope. -/
def shown (m : Method) (source : Source) : ShownSignature where
  name := m.name.toList
  params := m.params.map Parameter.text
  isVariadic := m.isVariadic
  isConst := m.cv.isConst
  refQualifier := m.refQualifier
  exception := spaced (source.slice m.exceptionRange).toList

/-- The attributes of a member function as they are shown. -/
def front (m : Method) (source : Source) (options : RenderOptions) : List Char :=
  leading (if options.ignoresAttributes then "" else m.renderAttributes source)

/-- The return type of a member function as it is shown if the text has one. -/
def returned (m : Method) : List Char :=
  (m.returnType.spell .qualified).toList ++ [' ']

theorem leading_renderReturnType (m : Method) (source : Source) :
    leading (m.renderReturnType source) = [] ∨
      leading (m.renderReturnType source) = m.returned := by
  rw [Function.renderReturnType]
  split
  · exact .inl rfl
  · rw [leading]
    split
    · exact .inl rfl
    · exact .inr rfl

theorem toList_renderParameters (m : Method) (source : Source) :
    m.renderParameters.toList =
      '(' :: ([',', ' '].intercalate (m.shown source).entries ++ [')']) := by
  have hcomma : ", ".toList = [',', ' '] := rfl
  rw [Function.renderParameters, spellParameters, String.toList_append, String.toList_append,
    String.toList_intercalate, hcomma, ShownSignature.entries, shown, List.map_append,
    List.map_map]
  cases m.isVariadic <;> rfl

theorem toList_render {m : Method} {scope : String}
    (hname : Style.qualified.spellScopes m.qualifiedName = scope ++ "::" ++ m.name)
    (source : Source) (options : RenderOptions) :
    (m.render source options).toList =
      m.front source options ++ (leading (m.renderReturnType source) ++
        ((scope ++ "::").toList ++ (m.shown source).text)) := by
  have hne : Style.qualified.spellScopes m.qualifiedName ++ m.renderParameters ≠ "" := by
    intro hempty
    have hlist := congrArg String.toList hempty
    rw [String.toList_append, toList_renderParameters m source] at hlist
    simp at hlist
  have hqualifiers : (m.qualifierFragments source).flatMap (fun other => spaced other.toList) =
      (m.shown source).qualifiers := by
    rw [qualifierFragments, ShownSignature.qualifiers, shown]
    cases m.cv.isConst <;> simp
  rw [render, Function.fragments]
  refine (toList_joinFragments [_, _] (m.qualifierFragments source) hne).trans ?_
  rw [hqualifiers, String.toList_append, toList_renderParameters m source, hname,
    ShownSignature.text]
  simp [front, shown]

end Method

/-! ## Overrides -/

section

variable {scope : List Char}

/-- What comes after a fragment is gone through as if it stood alone. -/
theorem stripScope_leading_append (hscope : IsScopeText scope) (fragment : String)
    (rest : List Char) : stripScope scope (leading fragment ++ rest) =
      stripScope scope (leading fragment) ++ stripScope scope rest := by
  have hspace : continuesName ' ' = false := by decide
  have hnil : stripScope scope [] = [] := rfl
  rw [leading]
  split
  · rfl
  · rw [List.append_assoc, List.singleton_append, stripScope_append_cons hscope hspace,
      stripScope_append_cons hscope hspace, hnil, List.append_assoc, List.singleton_append]

theorem stripScope_eq_iff {w a b : List Char} (hw : stripScope scope w ≠ []) (ha : a = [] ∨ a = w)
    (hb : b = [] ∨ b = w) : stripScope scope a = stripScope scope b ↔ a = b := by
  refine ⟨fun h => ?_, congrArg _⟩
  have hnil : stripScope scope [] = [] := rfl
  obtain rfl | rfl := ha <;> obtain rfl | rfl := hb
  · rfl
  · exact absurd (h.symm.trans hnil) hw
  · exact absurd (h.trans hnil) hw
  · rfl

/-- After its scope a signature is shown without the scope in front of other names. -/
theorem stripScope_scope_append_text (hscope : IsScopeText scope) {m : Method} (source : Source)
    (hname : Text.occursIn "::".toList m.name.toList = false) :
    stripScope scope (scope ++ (m.shown source).text) = ((m.shown source).strip scope).text := by
  have hexception : StartsIn [' '] (m.shown source).exception := by
    rw [Method.shown, spaced]
    split
    · exact .nil _
    · exact startsIn_cons.2 List.mem_cons_self
  obtain ⟨before, -, hbefore⟩ := stripScope_scope_append hscope (m.shown source).text
  rw [hbefore, stripScopeFrom_text hscope (m.shown source) hname hexception]

end

namespace Record

/-- The scope that is left out of overrides. -/
def scopeText (r : Record) : List Char :=
  (r.spelledName ++ "::").toList

theorem isScopeText_scopeText {r : Record} (h : IsWord r.spelledName) :
    IsScopeText r.scopeText where
  continues c hc := by
    rw [scopeText, String.toList_append, List.mem_append] at hc
    obtain hc | hc := hc
    · exact h.2 c hc
    · exact List.all_eq_true.1 (by decide) c hc
  colons := ⟨r.spelledName.toList, String.toList_append.symm⟩

theorem toList_renderOverride {r : Record} (hscope : IsScopeText r.scopeText) {m : Method}
    {source : Source} {options : RenderOptions}
    (hrender : (m.render source options).toList = m.front source options ++
      (leading (m.renderReturnType source) ++ (r.scopeText ++ (m.shown source).text)))
    (hname : Text.occursIn "::".toList m.name.toList = false) :
    (r.renderOverride source options m).toList =
      stripScope r.scopeText (m.front source options) ++
        (stripScope r.scopeText (leading (m.renderReturnType source)) ++
          ((m.shown source).strip r.scopeText).text) ++ " override;".toList := by
  rw [renderOverride, String.toList_append, String.toList_ofList, hrender, Method.front,
    ← scopeText, stripScope_leading_append hscope, stripScope_leading_append hscope,
    stripScope_scope_append_text hscope source hname]

end Record

/-! ## Signatures -/

/-- Texts that do not start with `w`, with or without `w` in front. -/
theorem append_eq_append_iff_of_not_isPrefix {w a b x y : List Char} (ha : a = [] ∨ a = w)
    (hb : b = [] ∨ b = w) (hx : ¬ w <+: x) (hy : ¬ w <+: y) :
    a ++ x = b ++ y ↔ a = b ∧ x = y := by
  constructor
  · intro h
    obtain rfl | rfl := ha <;> obtain rfl | rfl := hb
    · exact ⟨rfl, h⟩
    · exact absurd ⟨y, h.symm⟩ hx
    · exact absurd ⟨x, h⟩ hy
    · exact ⟨rfl, List.append_cancel_left h⟩
  · rintro ⟨rfl, rfl⟩
    rfl

/-- Parameters that are called the same are shown the same exactly if they have the same types, if
the types are told apart by how they are shown. -/
theorem map_text_eq_iff {params params' : List Parameter}
    (hnames : ∀ (i : Nat) (p p' : Parameter), params[i]? = some p → params'[i]? = some p' →
      p.name = p'.name)
    (hinjective : ∀ p ∈ params, ∀ p' ∈ params', p.name = p'.name → p.text = p'.text →
      p.type = p'.type) :
    params.map Parameter.text = params'.map Parameter.text ↔
      params.map Parameter.type = params'.map Parameter.type := by
  induction params generalizing params' with
  | nil => cases params' <;> simp
  | cons p params ih =>
    cases params' with
    | nil => simp
    | cons p' params' =>
      have hname := hnames 0 p p' rfl rfl
      have hfirst : p.text = p'.text ↔ p.type = p'.type := by
        refine ⟨hinjective p (by simp) p' (by simp) hname, fun htype => ?_⟩
        rw [Parameter.text, Parameter.text, htype, hname]
      have hrest := ih (fun i => hnames (i + 1))
        (fun q hq q' hq' => hinjective q (by simp [hq]) q' (by simp [hq']))
      rw [List.map_cons, List.map_cons, List.map_cons, List.map_cons, List.cons.injEq,
        List.cons.injEq, hfirst, hrest]

theorem spaced_inj {x y : List Char} : spaced x = spaced y ↔ x = y := by
  cases x <;> cases y <;> simp [spaced]

/-- What is shown of two members is the same exactly if their signatures are, but for `volatile`. -/
theorem Method.shown_eq_iff {m₁ m₂ : Method}
    (hnames : ∀ (i : Nat) (p₁ p₂ : Parameter), m₁.params[i]? = some p₁ →
      m₂.params[i]? = some p₂ → p₁.name = p₂.name)
    (hinjective : ∀ p₁ ∈ m₁.params, ∀ p₂ ∈ m₂.params, p₁.name = p₂.name →
      p₁.text = p₂.text → p₁.type = p₂.type) {source : Source} :
    m₁.shown source = m₂.shown source ↔
      m₁.name = m₂.name ∧ m₁.params.map Parameter.type = m₂.params.map Parameter.type ∧
        m₁.isVariadic = m₂.isVariadic ∧ m₁.cv.isConst = m₂.cv.isConst ∧
        m₁.refQualifier = m₂.refQualifier ∧
        source.slice m₁.exceptionRange = source.slice m₂.exceptionRange := by
  rw [shown, shown, ShownSignature.mk.injEq, map_text_eq_iff hnames hinjective, spaced_inj,
    String.toList_inj, String.toList_inj]

/-! ## Legible members -/

namespace Method

/-- The name is a word, the types are legible, and an exception specification starts with its
keyword. -/
structure IsLegible (m : Method) (source : Source) : Prop where
  name : IsWord m.name
  returnType : m.returnType.IsLegible
  params : ∀ param ∈ m.params, param.type.IsLegible ∧ Text.IsClosed param.name.toList
  exception : IsExceptionText (m.shown source).exception

namespace IsLegible

variable {m : Method} {source : Source} {scope : List Char}

theorem isPlain_shown (h : m.IsLegible source) : (m.shown source).IsPlain where
  name := h.name.2
  params x hx := by
    obtain ⟨param, hparam, rfl⟩ := List.mem_map.1 hx
    obtain ⟨htype, hname⟩ := h.params param hparam
    exact ⟨htype.isClosed_declare hname, htype.startsWithName_declare param.name⟩
  exception := h.exception

/-- A member is not shown like its return type and something after that. -/
theorem not_returned_isPrefix (h : m.IsLegible source)
    (hscope : ∀ c ∈ scope, continuesName c = true) :
    ¬ m.returned <+: scope ++ (m.shown source).text := by
  have hword : ∀ c ∈ scope ++ m.name.toList, continuesName c = true :=
    List.forall_mem_append.2 ⟨hscope, h.name.2⟩
  rw [ShownSignature.text, ← List.append_assoc]
  exact (h.returnType.startsWithName_spellAround "").not_isPrefix hword _

theorem not_stripScope_returned_isPrefix (h : m.IsLegible source) (hscope : IsScopeText scope) :
    ¬ stripScope scope m.returned <+: ((m.shown source).strip scope).text := by
  have hspace : stripScope scope m.returned =
      stripScope scope (m.returnType.spell .qualified).toList ++ [' '] :=
    stripScope_append_cons hscope (by decide)
  rw [hspace, ShownSignature.text]
  exact ((h.returnType.startsWithName_spellAround "").stripScope hscope).not_isPrefix h.name.2 _

end IsLegible

end Method

/-! ## Two members of a class -/

namespace TranslationUnit

section

variable {document : Document} {tree : Tree} {hasErrors : Bool} {id : RecordId} {record : Record}
  {m₁ m₂ : Method} {source : Source}

/-- A member of a class is rendered with the scope of the class. -/
theorem toList_render_of_mem (h : (ofTree document tree hasErrors).records[id]? = some record)
    (hword : IsWord record.spelledName) (hcolon : ':' ∉ record.name.toList)
    (options : RenderOptions) {m : Method} (hm : m ∈ record.methods) :
    (m.render source options).toList = m.front source options ++
      (leading (m.renderReturnType source) ++ (record.scopeText ++ (m.shown source).text)) := by
  obtain ⟨hqualified, hname⟩ := name_of_mem_methods h hcolon m hm
  apply Method.toList_render
  rw [hqualified, spellScopes_qualify hword hname]
  rfl

variable (h : (ofTree document tree hasErrors).records[id]? = some record)
  (hword : IsWord record.spelledName) (hcolon : ':' ∉ record.name.toList)
  (h₁ : m₁ ∈ record.methods) (h₂ : m₂ ∈ record.methods) (options : RenderOptions)
  (hattributes : m₁.renderAttributes source = m₂.renderAttributes source)
  (hreturn : m₁.returnType = m₂.returnType)

include h hword hcolon h₁ h₂ hattributes hreturn

theorem render_eq_iff_shown_eq (hapart : (m₁.shown source).Apart (m₂.shown source))
    (hstart : ∀ m ∈ [m₁, m₂], ¬ m.returned <+: record.scopeText ++ (m.shown source).text) :
    m₁.render source options = m₂.render source options ↔
      m₁.renderReturnType source = m₂.renderReturnType source ∧
        m₁.shown source = m₂.shown source := by
  have hreturned : m₂.returned = m₁.returned := by rw [Method.returned, Method.returned, hreturn]
  have hleading₁ := m₁.leading_renderReturnType source
  have hleading₂ := hreturned ▸ m₂.leading_renderReturnType source
  have hstart₁ := hstart m₁ (by simp)
  have hstart₂ := hreturned ▸ hstart m₂ (by simp)
  rw [← String.toList_inj, toList_render_of_mem h hword hcolon options h₁,
    toList_render_of_mem h hword hcolon options h₂, Method.front, Method.front, hattributes,
    List.append_cancel_left_eq,
    append_eq_append_iff_of_not_isPrefix hleading₁ hleading₂ hstart₁ hstart₂, leading_inj,
    List.append_cancel_left_eq, ShownSignature.text_eq_iff hapart]

theorem renderOverride_eq_iff_strip_eq
    (hapart : ((m₁.shown source).strip record.scopeText).Apart
      ((m₂.shown source).strip record.scopeText))
    (hstart : ∀ m ∈ [m₁, m₂], ¬ stripScope record.scopeText m.returned <+:
      ((m.shown source).strip record.scopeText).text) :
    record.renderOverride source options m₁ = record.renderOverride source options m₂ ↔
      m₁.renderReturnType source = m₂.renderReturnType source ∧
        (m₁.shown source).strip record.scopeText = (m₂.shown source).strip record.scopeText := by
  have hscope := Record.isScopeText_scopeText hword
  have hreturned : m₂.returned = m₁.returned := by rw [Method.returned, Method.returned, hreturn]
  have hleading₁ := m₁.leading_renderReturnType source
  have hleading₂ := hreturned ▸ m₂.leading_renderReturnType source
  have hstart₁ := hstart m₁ (by simp)
  have hstart₂ := hreturned ▸ hstart m₂ (by simp)
  have hne : stripScope record.scopeText m₁.returned ≠ [] :=
    fun hnil => hstart₁ (hnil ▸ List.nil_prefix)
  rw [← String.toList_inj,
    Record.toList_renderOverride hscope (toList_render_of_mem h hword hcolon options h₁)
      (name_of_mem_methods h hcolon m₁ h₁).2,
    Record.toList_renderOverride hscope (toList_render_of_mem h hword hcolon options h₂)
      (name_of_mem_methods h hcolon m₂ h₂).2,
    Method.front, Method.front, hattributes, List.append_cancel_right_eq,
    List.append_cancel_left_eq, append_eq_append_iff_of_not_isPrefix
      (hleading₁.imp (congrArg _) (congrArg _)) (hleading₂.imp (congrArg _) (congrArg _))
      hstart₁ hstart₂, stripScope_eq_iff hne hleading₁ hleading₂, leading_inj,
    ShownSignature.text_eq_iff hapart]

end

/-- Let two members of a class have the same return type, the same attributes as rendered and
parameters that are called the same. If their parts are told apart, they are rendered the same
exactly if both or neither have their return type in the text and they agree in all of their names,
parameter types, variadic flags, `const`, ref-qualifiers and exception specifications; so a
`volatile` is not told. Their overrides are the same exactly if what is shown of their signatures is
without the scope of the class. Parts are told apart if the members are legible. -/
theorem render_eq_iff_signature_eq {document : Document} {tree : Tree} {hasErrors : Bool}
    {id : RecordId} {record : Record}
    (h : (ofTree document tree hasErrors).records[id]? = some record)
    (hword : IsWord record.spelledName) (hcolon : ':' ∉ record.name.toList)
    {m₁ m₂ : Method} (h₁ : m₁ ∈ record.methods) (h₂ : m₂ ∈ record.methods)
    {source : Source} (options : RenderOptions)
    (hattributes : m₁.renderAttributes source = m₂.renderAttributes source)
    (hreturn : m₁.returnType = m₂.returnType)
    (hnames : ∀ (i : Nat) (p₁ p₂ : Parameter), m₁.params[i]? = some p₁ →
      m₂.params[i]? = some p₂ → p₁.name = p₂.name)
    (hinjective : ∀ p₁ ∈ m₁.params, ∀ p₂ ∈ m₂.params, p₁.name = p₂.name →
      p₁.text = p₂.text → p₁.type = p₂.type) :
    let rendered := m₁.render source options = m₂.render source options ↔
      m₁.renderReturnType source = m₂.renderReturnType source ∧
        m₁.name = m₂.name ∧ m₁.params.map Parameter.type = m₂.params.map Parameter.type ∧
        m₁.isVariadic = m₂.isVariadic ∧ m₁.cv.isConst = m₂.cv.isConst ∧
        m₁.refQualifier = m₂.refQualifier ∧
        source.slice m₁.exceptionRange = source.slice m₂.exceptionRange
    let overridden :=
      record.renderOverride source options m₁ = record.renderOverride source options m₂ ↔
        m₁.renderReturnType source = m₂.renderReturnType source ∧
          (m₁.shown source).strip record.scopeText = (m₂.shown source).strip record.scopeText
    ((m₁.shown source).Apart (m₂.shown source) →
      (∀ m ∈ [m₁, m₂], ¬ m.returned <+: record.scopeText ++ (m.shown source).text) → rendered) ∧
    (((m₁.shown source).strip record.scopeText).Apart ((m₂.shown source).strip record.scopeText) →
      (∀ m ∈ [m₁, m₂], ¬ stripScope record.scopeText m.returned <+:
        ((m.shown source).strip record.scopeText).text) → overridden) ∧
    ((∀ m ∈ [m₁, m₂], m.IsLegible source) → rendered ∧ overridden) := by
  intro rendered overridden
  have hrendered : (m₁.shown source).Apart (m₂.shown source) →
      (∀ m ∈ [m₁, m₂], ¬ m.returned <+: record.scopeText ++ (m.shown source).text) → rendered := by
    intro hapart hstart
    simp only [rendered]
    rw [render_eq_iff_shown_eq h hword hcolon h₁ h₂ options hattributes hreturn hapart hstart,
      Method.shown_eq_iff hnames hinjective]
  have hoverridden :=
    renderOverride_eq_iff_strip_eq h hword hcolon h₁ h₂ options hattributes hreturn
  refine ⟨hrendered, hoverridden, fun hlegible => ?_⟩
  have hscope := Record.isScopeText_scopeText hword
  have hplain₁ := (hlegible m₁ (by simp)).isPlain_shown
  have hplain₂ := (hlegible m₂ (by simp)).isPlain_shown
  exact ⟨hrendered (hplain₁.apart hplain₂)
      fun m hm => (hlegible m hm).not_returned_isPrefix hscope.continues,
    hoverridden ((hplain₁.strip hscope).apart (hplain₂.strip hscope))
      fun m hm => (hlegible m hm).not_stripScope_returned_isPrefix hscope⟩

/-- An interface with two members that differ in their qualifiers only. -/
def volatilePair : Document where
  text := ("struct I \x7b virtual void f(int) = 0; " ++
    "virtual void f(int) volatile = 0; \x7d;\n").toList

/-- The tree of a member of `volatilePair` with a declarator that ends at `stop`. -/
def unnamedParameterTree (start stop : Nat) (qualifiers : List Tree) : Tree :=
  .node ⟨.fieldDeclaration, none, start, stop + 5, true, false⟩
    [.node ⟨.virtualWord, none, start, start + 7, false, false⟩ [],
      .node ⟨.primitiveType, some .type, start + 8, start + 12, true, false⟩ [],
      .node ⟨.functionDeclarator, some .declarator, start + 13, stop, true, false⟩
        ([.node ⟨.fieldIdentifier, some .declarator, start + 13, start + 14, true, false⟩ [],
          .node ⟨.other, some .parameters, start + 14, start + 19, true, false⟩
            [.terminal (start + 14) (start + 15),
              .node ⟨.parameterDeclaration, none, start + 15, start + 18, true, false⟩
                [.node ⟨.primitiveType, some .type, start + 15, start + 18, true, false⟩ []],
              .terminal (start + 18) (start + 19)]] ++ qualifiers),
      .terminal (stop + 1) (stop + 2),
      .node ⟨.numberLiteral, some .defaultValue, stop + 3, stop + 4, true, false⟩ [],
      .terminal (stop + 4) (stop + 5)]

/-- The tree of `volatilePair`. -/
def volatilePairTree : Tree :=
  .node ⟨.other, none, 0, 73, true, false⟩
    [.node ⟨.structSpecifier, none, 0, 71, true, false⟩
      [.terminal 0 6, .node ⟨.typeIdentifier, some .name, 7, 8, true, false⟩ [],
        .node ⟨.other, some .body, 9, 71, true, false⟩
          [.terminal 9 10, unnamedParameterTree 11 30 [],
            unnamedParameterTree 36 64
              [.node ⟨.typeQualifier, none, 56, 64, true, false⟩ [.terminal 56 64]],
            .terminal 70 71]],
      .terminal 71 72]

/-- The builtin type that a type without qualifiers is. -/
def plainBuiltin? : CType → Option Builtin
  | .builtin ⟨false, false⟩ b => some b
  | _ => none

theorem eq_of_plainBuiltin? {t : CType} {b : Builtin} (h : plainBuiltin? t = some b) :
    t = .builtin ⟨false, false⟩ b := by
  unfold plainBuiltin? at h
  split at h
  · rw [Option.some.inj h]
  · cases h

theorem isLegible_of_plainBuiltin? {t : CType} {b : Builtin} (h : plainBuiltin? t = some b)
    (hb : IsNameText b.name) : t.IsLegible := by
  rw [eq_of_plainBuiltin? h]
  exact CType.isLegible_of_isNameText (by simpa [CType.texts] using hb)

/-- Two members that differ in `volatile` only are rendered the same. -/
theorem render_eq_iff_signature_eq_volatilePair :
    let u := ofTree volatilePair volatilePairTree false
    ∃ record m₁ m₂, u.records[0]? = some record ∧ m₁ ∈ record.methods ∧ m₂ ∈ record.methods ∧
      m₁.cv = ⟨false, false⟩ ∧ m₂.cv = ⟨false, true⟩ ∧
      u.overrides record {} = ["void f(int) override;", "void f(int) override;"] ∧
      m₁.render u.source {} = m₂.render u.source {} ∧
      record.renderOverride u.source {} m₁ = record.renderOverride u.source {} m₂ := by
  intro u
  have hrun : ∃ record ∈ u.records[0]?, record.spelledName = "I" ∧ record.name = "I" ∧
      u.overrides record {} = ["void f(int) override;", "void f(int) override;"] ∧
      (record.methods.take 2).map Method.cv = [⟨false, false⟩, ⟨false, true⟩] ∧
      ∀ m ∈ record.methods.take 2,
        m.shown u.source = ⟨"f".toList, ["int".toList], false, false, none, []⟩ ∧
        m.renderAttributes u.source = "" ∧ m.renderReturnType u.source = "void" ∧
        m.name = "f" ∧ plainBuiltin? m.returnType = some .void ∧
        ∀ p ∈ m.params, p.name = "" ∧ plainBuiltin? p.type = some (.int true) := by
    decide +kernel
  obtain ⟨record, hrecord, hspelled, hname, hoverrides, hcv, hmembers⟩ := hrun
  obtain ⟨m₁, _, htake, hcv₁, hcv⟩ := List.map_eq_cons_iff.1 hcv
  obtain ⟨m₂, _, rfl, hcv₂, hcv⟩ := List.map_eq_cons_iff.1 hcv
  obtain rfl := List.map_eq_nil_iff.1 hcv
  have hmem : ∀ m ∈ [m₁, m₂], m ∈ record.methods :=
    fun m hm => List.mem_of_mem_take (htake ▸ hm)
  rw [htake] at hmembers
  obtain ⟨hshown₁, hattributes₁, hwritten₁, -, hvoid₁, hparams₁⟩ := hmembers m₁ (by simp)
  obtain ⟨hshown₂, hattributes₂, hwritten₂, -, hvoid₂, hparams₂⟩ := hmembers m₂ (by simp)
  have hnames : ∀ (i : Nat) (p₁ p₂ : Parameter), m₁.params[i]? = some p₁ →
      m₂.params[i]? = some p₂ → p₁.name = p₂.name := by
    intro i p₁ p₂ hp₁ hp₂
    rw [(hparams₁ p₁ (List.mem_of_getElem? hp₁)).1, (hparams₂ p₂ (List.mem_of_getElem? hp₂)).1]
  have hinjective : ∀ p₁ ∈ m₁.params, ∀ p₂ ∈ m₂.params, p₁.name = p₂.name →
      p₁.text = p₂.text → p₁.type = p₂.type := by
    intro p₁ hp₁ p₂ hp₂ _ _
    rw [eq_of_plainBuiltin? (hparams₁ p₁ hp₁).2, eq_of_plainBuiltin? (hparams₂ p₂ hp₂).2]
  have hlegible : ∀ m ∈ [m₁, m₂], m.IsLegible u.source := by
    intro m hm
    obtain ⟨hshown, -, -, hname, hvoid, hparams⟩ := hmembers m hm
    exact ⟨hname ▸ by decide, isLegible_of_plainBuiltin? hvoid (by decide),
      fun p hp => ⟨isLegible_of_plainBuiltin? (hparams p hp).2 (by decide),
        (hparams p hp).1 ▸ by decide⟩, .inl (by rw [hshown])⟩
  have hshown : m₁.shown u.source = m₂.shown u.source := hshown₁.trans hshown₂.symm
  have hwritten : m₁.renderReturnType u.source = m₂.renderReturnType u.source :=
    hwritten₁.trans hwritten₂.symm
  obtain ⟨-, -, hrendered⟩ := render_eq_iff_signature_eq hrecord (hspelled ▸ by decide)
    (hname ▸ by decide) (hmem m₁ (by simp)) (hmem m₂ (by simp)) {}
    (hattributes₁.trans hattributes₂.symm)
    ((eq_of_plainBuiltin? hvoid₁).trans (eq_of_plainBuiltin? hvoid₂).symm) hnames hinjective
  obtain ⟨hrender, hoverride⟩ := hrendered hlegible
  exact ⟨record, m₁, m₂, hrecord, hmem m₁ (by simp), hmem m₂ (by simp), hcv₁, hcv₂, hoverrides,
    hrender.2 ⟨hwritten, (Method.shown_eq_iff hnames hinjective).1 hshown⟩,
    hoverride.2 ⟨hwritten, by rw [hshown]⟩⟩

end TranslationUnit

end ClassEdit
