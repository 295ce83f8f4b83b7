import ClassEdit.Proofs.TypeLayers
import ClassEdit.Render.Overrides

/-!
# Types as they are written

What a spelling shows of a type is everything but where its names are declared. The types that can
be read back from their spelling have names and sizes that are words, qualifiers only where they
are written, and no reference right around another one.

## Main definitions

* `CType.asWritten`: a type without where its names are declared.
* `CType.IsReadable`: the types that can be read back.
* `CType.reading`, `Layer.reading`: the lexemes of a type and of a layer, with a scoped name as one.

## Main statements

* `CType.spell_asWritten`: the spelling does not show where names are declared.
* `CType.IsReadable.asWritten_eq_foldl`: a type is put together from its leaf and its layers.
* `CType.reading_eq`: the lexemes of a type from those of its leaf and its layers.
-/

namespace ClassEdit

/-- A text that is read as one word, such as a scoped name or a number. -/
def IsWord (text : String) : Prop :=
  text ≠ "" ∧ ∀ c ∈ text.toList, continuesName c = true

instance (text : String) : Decidable (IsWord text) :=
  decidable_of_iff (text ≠ "" ∧ text.toList.all continuesName = true)
    (and_congr_right' List.all_eq_true)

/-- A name that is written as a word other than a qualifier. -/
def TypeName.IsReadable (name : TypeName) : Prop :=
  IsWord name.written ∧ name.written ≠ "const" ∧ name.written ≠ "volatile"

/-- A name without where it is declared. -/
def TypeName.asWritten (name : TypeName) : TypeName :=
  { name with qualified := none }

mutual

/-- A type without where its names are declared. -/
def CType.asWritten : CType → CType
  | .builtin cv type => .builtin cv type
  | .named cv name => .named cv name.asWritten
  | .template cv name arguments =>
    .template cv name.asWritten (TemplateArgument.asWrittenAll arguments)
  | .pointer cv target => .pointer cv target.asWritten
  | .reference cv kind target => .reference cv kind target.asWritten
  | .array cv element size => .array cv element.asWritten size
  | .function cv result params isVariadic =>
    .function cv result.asWritten (CType.asWrittenAll params) isVariadic
  | .spelled cv text => .spelled cv text

/-- Types without where their names are declared. -/
def CType.asWrittenAll : List CType → List CType
  | [] => []
  | t :: ts => t.asWritten :: CType.asWrittenAll ts

/-- A template argument without where its names are declared. -/
def TemplateArgument.asWritten : TemplateArgument → TemplateArgument
  | .type t => .type t.asWritten
  | .expression text => .expression text

/-- Template arguments without where their names are declared. -/
def TemplateArgument.asWrittenAll : List TemplateArgument → List TemplateArgument
  | [] => []
  | a :: as => a.asWritten :: TemplateArgument.asWrittenAll as

end

theorem CType.asWrittenAll_eq_map (ts : List CType) : asWrittenAll ts = ts.map asWritten := by
  induction ts with
  | nil => rfl
  | cons t ts ih => rw [asWrittenAll, ih, List.map_cons]

theorem TemplateArgument.asWrittenAll_types (ts : List CType) :
    asWrittenAll (ts.map .type) = (ts.map CType.asWritten).map .type := by
  induction ts with
  | nil => rfl
  | cons t ts ih => rw [List.map_cons, asWrittenAll, ih, asWritten, List.map_cons, List.map_cons]

theorem CType.spellAll_eq_map (style : Style) (ts : List CType) :
    spellAll style ts = ts.map (spell style) := by
  induction ts with
  | nil => rw [spellAll, List.map_nil]
  | cons t ts ih => rw [spellAll, ih, List.map_cons, spell]

theorem TemplateArgument.spellAll_types (style : Style) (ts : List CType) :
    spellAll style (ts.map .type) = ts.map (CType.spell style) := by
  induction ts with
  | nil => rw [List.map_nil, spellAll, List.map_nil]
  | cons t ts ih => rw [List.map_cons, spellAll, ih, spell, List.map_cons, CType.spell]

/-! ## Spelling of what is written -/

theorem CType.wrapSigil_asWritten (target : CType) :
    target.asWritten.wrapSigil = target.wrapSigil := by
  have hdecays : target.asWritten.decays = target.decays := by
    cases target <;> rw [asWritten] <;> rfl
  funext sigil declarator
  rw [wrapSigil, hdecays, wrapSigil]

mutual

theorem CType.spellAround_asWritten (t : CType) (declarator : String) :
    t.asWritten.spellAround .written declarator = t.spellAround .written declarator := by
  cases t with
  | builtin | spelled => rw [CType.asWritten]
  | named cv name =>
    rw [CType.asWritten, CType.spellAround, CType.spellAround]
    rfl
  | template cv name arguments =>
    rw [CType.asWritten, CType.spellAround, CType.spellAround,
      TemplateArgument.spellAll_asWrittenAll arguments]
    rfl
  | pointer cv target | reference cv kind target =>
    rw [CType.asWritten, CType.spellAround, CType.spellAround,
      CType.spellAround_asWritten target, CType.wrapSigil_asWritten]
  | array cv element size =>
    rw [CType.asWritten, CType.spellAround, CType.spellAround, CType.spellAround_asWritten element]
  | function cv result params isVariadic =>
    rw [CType.asWritten, CType.spellAround, CType.spellAround, CType.spellAround_asWritten result,
      CType.spellAll_asWrittenAll params]

theorem CType.spellAll_asWrittenAll (ts : List CType) :
    CType.spellAll .written (CType.asWrittenAll ts) = CType.spellAll .written ts := by
  cases ts with
  | nil => rw [CType.asWrittenAll]
  | cons t ts =>
    rw [CType.asWrittenAll, CType.spellAll, CType.spellAll, CType.spellAround_asWritten t,
      CType.spellAll_asWrittenAll ts]

theorem TemplateArgument.spell_asWritten (a : TemplateArgument) :
    a.asWritten.spell .written = a.spell .written := by
  cases a with
  | type t =>
    rw [TemplateArgument.asWritten, TemplateArgument.spell, TemplateArgument.spell,
      CType.spellAround_asWritten t]
  | expression text => rw [TemplateArgument.asWritten]

theorem TemplateArgument.spellAll_asWrittenAll (as : List TemplateArgument) :
    TemplateArgument.spellAll .written (TemplateArgument.asWrittenAll as) =
      TemplateArgument.spellAll .written as := by
  cases as with
  | nil => rw [TemplateArgument.asWrittenAll]
  | cons a as =>
    rw [TemplateArgument.asWrittenAll, TemplateArgument.spellAll, TemplateArgument.spellAll,
      TemplateArgument.spell_asWritten a, TemplateArgument.spellAll_asWrittenAll as]

end

/-- The spelling does not show where names are declared. -/
theorem CType.spell_asWritten (t : CType) : t.asWritten.spell .written = t.spell .written :=
  spellAround_asWritten t ""

/-! ## Types that can be read back -/

/-- Whether the type is a reference. -/
def CType.isReference : CType → Bool
  | reference .. => true
  | _ => false

/-- Types over names and templates of types with all of their qualifiers written, and without a
reference to a reference. -/
inductive CType.IsReadable : CType → Prop
  | named (cv : Cv) {name : TypeName} (hname : name.IsReadable) : IsReadable (.named cv name)
  | template (cv : Cv) {name : TypeName} (hname : name.IsReadable) {types : List CType}
      (htypes : ∀ t ∈ types, IsReadable t) : IsReadable (.template cv name (types.map .type))
  | pointer (cv : Cv) {target : CType} (htarget : IsReadable target) :
      IsReadable (.pointer cv target)
  | reference (kind : ValueKind) {target : CType} (htarget : IsReadable target)
      (hreference : target.isReference = false) : IsReadable (.reference .plain kind target)
  | array {element : CType} (helement : IsReadable element) {size : Option String}
      (hsize : ∀ text ∈ size, IsWord text) : IsReadable (.array .plain element size)
  | function {result : CType} (hresult : IsReadable result) {params : List CType}
      (hparams : ∀ t ∈ params, IsReadable t) (isVariadic : Bool) :
      IsReadable (.function .plain result params isVariadic)

namespace Layer

/-- A layer without where its names are declared. -/
def asWritten : Layer → Layer
  | function params isVariadic => function (params.map CType.asWritten) isVariadic
  | layer => layer

/-- The layer around a type. -/
def around (t : CType) : Layer → CType
  | pointer cv => .pointer cv t
  | reference kind => .reference .plain kind t
  | array size => .array .plain t size
  | function params isVariadic => .function .plain t params isVariadic

/-- What a readable type has as layers. -/
def IsReadable : Layer → Prop
  | pointer _ | reference _ => True
  | array size => ∀ text ∈ size, IsWord text
  | function params _ => ∀ t ∈ params, t.IsReadable

/-- Whether the layer is a reference. -/
def isReference : Layer → Bool
  | reference _ => true
  | _ => false

end Layer

namespace CType

theorem isReference_eq (t : CType) : t.isReference = t.layers.getLast?.any Layer.isReference := by
  cases t <;> simp [isReference, layers, Layer.isReference]

namespace IsReadable

variable {t : CType}

/-- A readable type is put together from its leaf and its layers. -/
theorem asWritten_eq_foldl (h : t.IsReadable) :
    t.asWritten = (t.layers.map Layer.asWritten).foldl Layer.around t.leaf.asWritten := by
  induction h with
  | named | template => rfl
  | pointer | reference | array =>
    rw [asWritten, layers, leaf, List.map_append, List.foldl_append]
    simp [*, Layer.asWritten, Layer.around]
  | function =>
    rw [asWritten, layers, leaf, List.map_append, List.foldl_append, asWrittenAll_eq_map]
    simp [*, Layer.asWritten, Layer.around]

theorem isReadable_of_mem_layers (h : t.IsReadable) : ∀ layer ∈ t.layers, layer.IsReadable := by
  induction h with
  | named | template => simp [layers]
  | pointer | reference | array | function => simp_all [layers, or_imp, Layer.IsReadable]

/-- No two references are next to each other. -/
theorem isChain_layers (h : t.IsReadable) :
    t.layers.IsChain fun a b => a.isReference = true → b.isReference = false := by
  induction h with
  | named | template => exact List.IsChain.nil
  | pointer cv _ ih | array _ _ ih | function _ _ _ ih =>
    exact List.isChain_append.2 ⟨ih, List.isChain_singleton _, by simp [Layer.isReference]⟩
  | reference kind _ hreference ih =>
    refine List.isChain_append.2 ⟨ih, List.isChain_singleton _, fun inner hinner => ?_⟩
    rw [isReference_eq] at hreference
    simp_all

end IsReadable

end CType

/-! ## Lexemes of what is written -/

theorem readsWords_continuesName : Text.ReadsWords continuesName where
  qualifier := List.all_eq_true.1 (by decide)
  space := by decide
  mark c hc := Bool.eq_false_iff.2 (List.any_eq_false.1 (by decide) c hc)

theorem IsWord.lexemes {text : String} (h : IsWord text) :
    Text.lexemes continuesName text.toList = [text.toList] :=
  Text.lexemes_word (by simpa using h.1) h.2

theorem IsWord.toList_ne {text : String} (h : IsWord text) {c : Char} (hc : c ∈ Text.typeMarks) :
    text.toList ≠ [c] := by
  intro htext
  have hword : continuesName c = true := h.2 c (by simp [htext])
  rw [readsWords_continuesName.mark c hc] at hword
  cases hword

/-- The lexemes of a type. -/
def CType.reading (t : CType) : List (List Char) :=
  Text.lexemes continuesName (t.spell .written).toList

/-- The lexemes of a layer. -/
def Layer.reading (layer : Layer) : List (List Char) :=
  layer.lexemes continuesName .written

/-- The lexemes of the dots of a variadic function. -/
def dots : List (List Char) :=
  [['.'], ['.'], ['.']]

/-- The lexemes of each entry of a list of types that may go on with dots. -/
def typeEntries (types : List CType) (isVariadic : Bool) : List (List (List Char)) :=
  types.map CType.reading ++ if isVariadic then [dots] else []

/-- The lexemes of qualifiers. -/
def Cv.reading (cv : Cv) : List (List Char) :=
  cv.words.map String.toList

theorem CType.reading_eq (t : CType) :
    t.reading = t.leaf.reading ++ arrange Layer.reading [] t.layers :=
  @lexemes_spellAround _ readsWords_continuesName .written t "" (.inr rfl)

theorem Cv.isWord_of_mem_words {cv : Cv} {word : String} (h : word ∈ cv.words) : IsWord word := by
  have hcases : word = "const" ∨ word = "volatile" := by
    unfold words at h
    grind
  obtain rfl | rfl := hcases <;> decide

theorem Cv.lexemes_words (cv : Cv) :
    cv.words.flatMap (fun word => Text.lexemes continuesName word.toList) = cv.reading := by
  rw [reading, List.map_eq_flatMap]
  exact List.flatMap_congr fun word hword => (isWord_of_mem_words hword).lexemes

theorem Cv.lexemes_before (cv : Cv) (leaf : String) :
    Text.lexemes continuesName (cv.before leaf).toList =
      cv.reading ++ Text.lexemes continuesName leaf.toList := by
  rw [before, readsWords_continuesName.lexemes_spaced, List.flatMap_append, lexemes_words]
  simp

namespace CType

theorem reading_named (cv : Cv) {name : TypeName} (hname : name.IsReadable) :
    (named cv name).reading = cv.reading ++ [name.written.toList] := by
  rw [reading, spell, spellAround]
  exact (cv.lexemes_before _).trans (congrArg _ hname.1.lexemes)

theorem reading_template (cv : Cv) {name : TypeName} (hname : name.IsReadable)
    (types : List CType) :
    (template cv name (types.map .type)).reading =
      cv.reading ++ name.written.toList :: ['<'] ::
        ([[',']].intercalate (typeEntries types false) ++ [['>']]) := by
  have hjoins := readsWords_continuesName
  have hsplit : (name.written ++ spellArguments (types.map (spell .written))).toList =
      name.written.toList ++
        '<' :: ((", ".intercalate (types.map (spell .written))).toList ++ ['>']) := by
    simp [spellArguments]
  rw [reading, spell, spellAround, TemplateArgument.spellAll_types]
  refine (cv.lexemes_before _).trans (congrArg _ ?_)
  rw [Style.spellName, hsplit, hjoins.lexemes_append_mark (by decide), hname.1.lexemes,
    hjoins.lexemes_append_mark (by decide), hjoins.lexemes_listed, List.map_map, Text.lexemes_nil,
    typeEntries, if_neg Bool.false_ne_true, List.append_nil]
  rfl

end CType

namespace Layer

theorem reading_pointer (cv : Cv) : (pointer cv).reading = ['*'] :: cv.reading := by
  have hsplit : ("*" ++ " ".intercalate cv.words).toList =
      '*' :: (" ".intercalate cv.words).toList := by simp
  rw [reading, lexemes, text, hsplit, readsWords_continuesName.lexemes_mark (by decide),
    readsWords_continuesName.lexemes_spaced, cv.lexemes_words]

theorem reading_reference (kind : ValueKind) :
    (reference kind).reading = kind.sigil.toList.map fun c => [c] := by
  have hjoins := readsWords_continuesName
  rw [reading, lexemes, text]
  cases kind <;>
    simp [ValueKind.sigil, hjoins.lexemes_mark (show '&' ∈ Text.typeMarks by decide)]

theorem reading_array {size : Option String} (hsize : ∀ text ∈ size, IsWord text) :
    (array size).reading = ['['] :: (size.toList.map String.toList ++ [[']']]) := by
  have hjoins := readsWords_continuesName
  have hsplit : ("[" ++ size.getD "" ++ "]").toList = '[' :: ((size.getD "").toList ++ [']']) := by
    simp
  rw [reading, lexemes, text, hsplit, hjoins.lexemes_mark (by decide),
    hjoins.lexemes_append_mark (by decide), Text.lexemes_nil]
  cases size with
  | none => simp
  | some text => simp [(hsize text rfl).lexemes]

theorem reading_function (params : List CType) (isVariadic : Bool) :
    (function params isVariadic).reading =
      ['('] :: ([[',']].intercalate (typeEntries params isVariadic) ++ [[')']]) := by
  have hjoins := readsWords_continuesName
  have hdots : Text.lexemes continuesName "...".toList = dots := by
    simp [dots, hjoins.lexemes_mark (show '.' ∈ Text.typeMarks by decide)]
  have hsplit : ∀ list : String, ("(" ++ list ++ ")").toList = '(' :: (list.toList ++ [')']) := by
    simp
  rw [reading, lexemes, text, spellParameters, hsplit, hjoins.lexemes_mark (by decide),
    hjoins.lexemes_append_mark (by decide), hjoins.lexemes_listed, Text.lexemes_nil, typeEntries,
    CType.spellAll_eq_map, List.map_append, List.map_map]
  cases isVariadic
  · rfl
  · rw [if_pos rfl, if_pos rfl, List.map_singleton, hdots]
    rfl

end Layer

end ClassEdit
