import ClassEdit.Types.Spelling
import Mathlib.Data.List.Basic
import Mathlib.Tactic.SplitIfs

/-!
# The texts that types are spelled from

A type is spelled from the texts in it, its names, sizes and expressions, with qualifiers and sigils
beside them and brackets around them. So what joining and brackets keep holds for the spelling of a
type if it holds for the texts in it.

## Main definitions

* `CType.texts`: the texts that a type is spelled from.
* `KeptBySpelling`: a property of texts that joining and brackets keep.

## Main statements

* `KeptBySpelling.spellAround`, `KeptBySpelling.declare`: a type has the property if its texts do.
-/

namespace ClassEdit

/-- The texts of a type name. -/
def TypeName.texts (name : TypeName) : List String :=
  name.written :: name.qualified.toList

mutual

/-- The texts that a type is spelled from. -/
def CType.texts : CType → List String
  | .builtin _ type => [type.name]
  | .named _ name => name.texts
  | .template _ name arguments => name.texts ++ TemplateArgument.textsOfAll arguments
  | .pointer _ target | .reference _ _ target => target.texts
  | .array _ element size => element.texts ++ size.toList
  | .function _ result params _ => result.texts ++ CType.textsOfAll params
  | .spelled _ text => [text]

/-- The texts that some types are spelled from. -/
def CType.textsOfAll : List CType → List String
  | [] => []
  | t :: ts => t.texts ++ CType.textsOfAll ts

/-- The texts that a template argument is spelled from. -/
def TemplateArgument.texts : TemplateArgument → List String
  | .type t => t.texts
  | .expression text => [text]

/-- The texts that some template arguments are spelled from. -/
def TemplateArgument.textsOfAll : List TemplateArgument → List String
  | [] => []
  | a :: as => a.texts ++ TemplateArgument.textsOfAll as

end

/-- The text of a list in brackets. -/
def bracketed (opening closing : String) (entries : List String) : String :=
  opening ++ ", ".intercalate entries ++ closing

/-- A property of texts that joining them, putting them into brackets and leaving out the scopes
without a name keep, and that the words and sigils of types have. -/
structure KeptBySpelling (P : String → Prop) : Prop where
  append {a b : String} (ha : P a) (hb : P b) : P (a ++ b)
  fixed : ∀ text ∈ ["", " ", "*", "&", "&&", "const", "volatile", "..."], P text
  brackets : ∀ pair ∈ [("(", ")"), ("[", "]"), ("<", ">")], ∀ entries : List String,
    (∀ entry ∈ entries, P entry) → P (bracketed pair.1 pair.2 entries)
  spellScopes (style : Style) {name : String} (hname : P name) : P (style.spellScopes name)

namespace KeptBySpelling

variable {P : String → Prop}

section

variable (h : KeptBySpelling P)

include h

theorem empty : P "" :=
  h.fixed "" (by simp)

theorem space : P " " :=
  h.fixed " " (by simp)

theorem append_space {a b : String} (ha : P a) (hb : P b) : P (a ++ " " ++ b) :=
  h.append (h.append ha h.space) hb

theorem spellName (style : Style) {name : TypeName} (hname : ∀ text ∈ name.texts, P text) :
    P (style.spellName name) := by
  obtain ⟨hwritten, hqualified⟩ := List.forall_mem_cons.1 hname
  cases style with
  | written => exact hwritten
  | qualified =>
    rw [Style.spellName]
    apply h.spellScopes
    rw [TypeName.qualifiedName]
    cases hname : name.qualified with
    | none => exact hwritten
    | some qualified => exact hqualified qualified (by simp [hname])

/-- Qualifiers with a text after them. -/
theorem before (cv : Cv) {leaf : String} (hleaf : P leaf) : P (cv.before leaf) := by
  have hconst : P "const" := h.fixed "const" (by simp)
  have hvolatile : P "volatile" := h.fixed "volatile" (by simp)
  obtain ⟨isConst, isVolatile⟩ := cv
  cases isConst <;> cases isVolatile
  · exact hleaf
  · exact h.append_space hvolatile hleaf
  · exact h.append_space hconst hleaf
  · exact h.append_space (h.append_space hconst hvolatile) hleaf

theorem joinDeclarator {leaf declarator : String} (hleaf : P leaf) (hdeclarator : P declarator) :
    P (joinDeclarator leaf declarator) := by
  have hspaced := h.append_space hleaf hdeclarator
  rw [ClassEdit.joinDeclarator]
  split
  · exact hleaf
  · exact hspaced
  · exact hspaced
  · split_ifs
    · exact h.append hleaf hdeclarator
    · exact hspaced

theorem wrapSigil (target : CType) {sigil declarator : String} (hsigil : P sigil)
    (hdeclarator : P declarator) : P (target.wrapSigil sigil declarator) := by
  have hjoin : P (joinSigil sigil declarator) := by
    rw [joinSigil]
    split_ifs
    · exact h.append_space hsigil hdeclarator
    · exact h.append hsigil hdeclarator
  rw [CType.wrapSigil]
  split_ifs
  · simpa [bracketed] using h.brackets ("(", ")") (by simp) [joinSigil sigil declarator]
      (by simpa using hjoin)
  · exact hjoin

/-- The sigil of a pointer. -/
theorem pointerSigil (cv : Cv) : P ("*" ++ " ".intercalate cv.words) := by
  refine h.append (h.fixed "*" (by simp)) ?_
  have hconst : P "const" := h.fixed "const" (by simp)
  have hvolatile : P "volatile" := h.fixed "volatile" (by simp)
  obtain ⟨isConst, isVolatile⟩ := cv
  cases isConst <;> cases isVolatile
  · exact h.empty
  · exact hvolatile
  · exact hconst
  · exact h.append_space hconst hvolatile

theorem spellParameters {params : List String} (isVariadic : Bool)
    (hparams : ∀ param ∈ params, P param) : P (spellParameters params isVariadic) := by
  refine h.brackets ("(", ")") (by simp) _ (List.forall_mem_append.2 ⟨hparams, ?_⟩)
  cases isVariadic
  · simp
  · simpa using h.fixed "..." (by simp)

end

mutual

/-- A type around a declarator has the property if the texts in it and the declarator do. -/
theorem spellAround (h : KeptBySpelling P) (style : Style) (t : CType) {declarator : String}
    (ht : ∀ text ∈ t.texts, P text) (hdeclarator : P declarator) :
    P (t.spellAround style declarator) := by
  cases t with
  | builtin cv type =>
    rw [CType.spellAround]
    rw [CType.texts, List.forall_mem_singleton] at ht
    exact h.joinDeclarator (h.before cv ht) hdeclarator
  | named cv name =>
    rw [CType.spellAround]
    rw [CType.texts] at ht
    exact h.joinDeclarator (h.before cv (h.spellName style ht)) hdeclarator
  | template cv name arguments =>
    rw [CType.spellAround]
    rw [CType.texts, List.forall_mem_append] at ht
    refine h.joinDeclarator (h.before cv (h.append (h.spellName style ht.1) ?_)) hdeclarator
    exact h.brackets ("<", ">") (by simp) _ (h.spellArguments style arguments ht.2)
  | pointer cv target =>
    rw [CType.spellAround]
    rw [CType.texts] at ht
    exact h.spellAround style target ht (h.wrapSigil target (h.pointerSigil cv) hdeclarator)
  | reference cv kind target =>
    rw [CType.spellAround]
    rw [CType.texts] at ht
    have hsigil : P kind.sigil := h.fixed kind.sigil (by cases kind <;> simp [ValueKind.sigil])
    exact h.spellAround style target ht (h.wrapSigil target hsigil hdeclarator)
  | array cv element size =>
    rw [CType.spellAround]
    rw [CType.texts, List.forall_mem_append] at ht
    refine h.spellAround style element ht.1 ?_
    have hsize : P (size.getD "") := by
      cases size with
      | none => exact h.empty
      | some size => exact ht.2 size (by simp)
    have hsuffix := h.brackets ("[", "]") (by simp) [size.getD ""] (by simpa using hsize)
    simpa [bracketed, String.append_assoc] using h.append hdeclarator hsuffix
  | function cv result params isVariadic =>
    rw [CType.spellAround]
    rw [CType.texts, List.forall_mem_append] at ht
    exact h.spellAround style result ht.1
      (h.append hdeclarator (h.spellParameters isVariadic (h.spellTypes style params ht.2)))
  | spelled cv text =>
    rw [CType.spellAround]
    rw [CType.texts, List.forall_mem_singleton] at ht
    exact h.joinDeclarator (h.before cv ht) hdeclarator

theorem spellTypes (h : KeptBySpelling P) (style : Style) (ts : List CType)
    (hts : ∀ text ∈ CType.textsOfAll ts, P text) :
    ∀ text ∈ CType.spellAll style ts, P text := by
  cases ts with
  | nil => simp [CType.spellAll]
  | cons t ts =>
    rw [CType.textsOfAll, List.forall_mem_append] at hts
    rw [CType.spellAll, List.forall_mem_cons]
    exact ⟨h.spellAround style t hts.1 h.empty, h.spellTypes style ts hts.2⟩

theorem spellArgument (h : KeptBySpelling P) (style : Style) (a : TemplateArgument)
    (ha : ∀ text ∈ a.texts, P text) : P (a.spell style) := by
  cases a with
  | type t =>
    rw [TemplateArgument.spell]
    rw [TemplateArgument.texts] at ha
    exact h.spellAround style t ha h.empty
  | expression text =>
    rw [TemplateArgument.spell]
    rw [TemplateArgument.texts, List.forall_mem_singleton] at ha
    exact ha

theorem spellArguments (h : KeptBySpelling P) (style : Style) (as : List TemplateArgument)
    (has : ∀ text ∈ TemplateArgument.textsOfAll as, P text) :
    ∀ text ∈ TemplateArgument.spellAll style as, P text := by
  cases as with
  | nil => simp [TemplateArgument.spellAll]
  | cons a as =>
    rw [TemplateArgument.textsOfAll, List.forall_mem_append] at has
    rw [TemplateArgument.spellAll, List.forall_mem_cons]
    exact ⟨h.spellArgument style a has.1, h.spellArguments style as has.2⟩

end

/-- A declaration has the property if the texts of the type and the name do. -/
theorem declare (h : KeptBySpelling P) (style : Style) {t : CType} {name : String}
    (ht : ∀ text ∈ t.texts, P text) (hname : P name) : P (t.declare style name) := by
  have hspell : P (t.spell style) := h.spellAround style t ht h.empty
  rw [CType.declare]
  split_ifs
  · exact hspell
  · exact h.spellAround style t ht hname
  · exact h.append_space hspell hname

end KeptBySpelling

end ClassEdit
