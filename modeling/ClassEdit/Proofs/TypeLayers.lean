import ClassEdit.Proofs.Lexemes
import ClassEdit.Types.Spelling

/-!
# Layers of types

A type is a leaf with a row of layers around it. In the spelling the leaf comes first and its
layers follow in a declarator: a sigil stands before everything that is outside of it, a suffix
after it, and a sigil that a suffix would bind tighter than is put in parentheses. In these words
the spelling of a type is read from left to right, while the layers are put around the declarator
from the outside in.

## Main definitions

* `Layer`: a pointer, reference, array or function around a type.
* `CType.leaf`, `CType.layers`: the parts of a type.
* `arrange`: the lexemes of a declarator with given layers.
* `CType.touchesQualifiers`: a name put into the declarator comes right after a qualifier.

## Main statements

* `arrange_concat_sigil`, `arrange_concat_suffix`: one more layer on the outside.
* `lexemes_spellAround`: the lexemes of a type around a declarator.
-/

namespace ClassEdit

/-- What can be put around a type. -/
inductive Layer where
  | pointer (cv : Cv)
  | reference (kind : ValueKind)
  | array (size : Option String)
  | function (params : List CType) (isVariadic : Bool)

namespace Layer

/-- Whether the layer is written after what is outside of it. -/
def isSuffix : Layer → Bool
  | pointer _ | reference _ => false
  | array _ | function .. => true

/-- How the layer is written. -/
def text (style : Style) : Layer → String
  | pointer cv => "*" ++ " ".intercalate cv.words
  | reference kind => kind.sigil
  | array size => "[" ++ size.getD "" ++ "]"
  | function params isVariadic => spellParameters (CType.spellAll style params) isVariadic

/-- The lexemes of the layer. -/
def lexemes (joins : Char → Bool) (style : Style) (layer : Layer) : List (List Char) :=
  Text.lexemes joins (layer.text style).toList

end Layer

namespace CType

/-- The type under all layers. -/
def leaf : CType → CType
  | pointer _ target | reference _ _ target => target.leaf
  | array _ element _ => element.leaf
  | function _ result _ _ => result.leaf
  | t => t

/-- The layers around the leaf, the innermost first. -/
def layers : CType → List Layer
  | pointer cv target => target.layers ++ [.pointer cv]
  | reference _ kind target => target.layers ++ [.reference kind]
  | array _ element size => element.layers ++ [.array size]
  | function _ result params isVariadic => result.layers ++ [.function params isVariadic]
  | _ => []

/-- A type decays if its outermost layer is a suffix. -/
theorem decays_eq (t : CType) : t.decays = t.layers.getLast?.any Layer.isSuffix := by
  cases t <;> simp [decays, layers, Layer.isSuffix]

end CType

/-! ## Spelling layer by layer -/

namespace CType

variable (style : Style) (declarator : String)

theorem spellAround_pointer (cv : Cv) (target : CType) :
    (pointer cv target).spellAround style declarator =
      target.spellAround style (target.wrapSigil ((Layer.pointer cv).text style) declarator) := by
  rw [spellAround, Layer.text]

theorem spellAround_reference (cv : Cv) (kind : ValueKind) (target : CType) :
    (reference cv kind target).spellAround style declarator =
      target.spellAround style
        (target.wrapSigil ((Layer.reference kind).text style) declarator) := by
  rw [spellAround, Layer.text]

theorem spellAround_array (cv : Cv) (element : CType) (size : Option String) :
    (array cv element size).spellAround style declarator =
      element.spellAround style (declarator ++ (Layer.array size).text style) := by
  rw [spellAround, Layer.text, String.append_assoc, String.append_assoc, String.append_assoc]

theorem spellAround_function (cv : Cv) (result : CType) (params : List CType)
    (isVariadic : Bool) : (function cv result params isVariadic).spellAround style declarator =
      result.spellAround style (declarator ++ (Layer.function params isVariadic).text style) := by
  rw [spellAround, Layer.text]

/-- A type without layers is written in front of the declarator. -/
theorem spellAround_of_layers_eq_nil {t : CType} (h : t.layers = []) :
    t.spellAround style declarator = joinDeclarator (t.spell style) declarator := by
  cases t with
  | builtin | named | template | spelled => simp [spell, spellAround, joinDeclarator]
  | pointer | reference | array | function => simp [layers] at h

end CType

/-! ## Arrangement of layers -/

section

variable (lexemesOf : Layer → List (List Char))

mutual

/-- The lexemes of a declarator with the given layers, the innermost first, around `core`. -/
def arrange (core : List (List Char)) : List Layer → List (List Char)
  | [] => core
  | layer :: outer =>
    if layer.isSuffix then arrangeGroup core outer ++ lexemesOf layer
    else lexemesOf layer ++ arrange core outer

/-- The lexemes of a declarator that a suffix comes after. -/
def arrangeGroup (core : List (List Char)) : List Layer → List (List Char)
  | [] => core
  | layer :: outer =>
    if layer.isSuffix then arrangeGroup core outer ++ lexemesOf layer
    else [['(']] ++ (lexemesOf layer ++ arrange core outer) ++ [[')']]

end

/-- Lexemes in parentheses, where they are needed. -/
def parenthesised (isNeeded : Bool) (inner : List (List Char)) : List (List Char) :=
  if isNeeded then [['(']] ++ inner ++ [[')']] else inner

variable {lexemesOf}

theorem arrange_concat_suffix {layer : Layer} (hlayer : layer.isSuffix = true)
    (core : List (List Char)) (layers : List Layer) :
    arrange lexemesOf core (layers ++ [layer]) =
        arrange lexemesOf (core ++ lexemesOf layer) layers ∧
      arrangeGroup lexemesOf core (layers ++ [layer]) =
        arrangeGroup lexemesOf (core ++ lexemesOf layer) layers := by
  induction layers with
  | nil => simp [arrange, arrangeGroup, hlayer]
  | cons inner layers ih => simp [arrange, arrangeGroup, ih]

/-- A sigil on the outside is put in parentheses if a suffix is next to it on the inside. Of a
declarator that a suffix comes after, this is so also if there is no other layer. -/
theorem arrange_concat_sigil {layer : Layer} (hlayer : layer.isSuffix = false)
    (core : List (List Char)) (layers : List Layer) :
    arrange lexemesOf core (layers ++ [layer]) =
        arrange lexemesOf (parenthesised (layers.getLast?.any Layer.isSuffix)
          (lexemesOf layer ++ core)) layers ∧
      arrangeGroup lexemesOf core (layers ++ [layer]) =
        arrangeGroup lexemesOf (parenthesised (layers.getLast?.all Layer.isSuffix)
          (lexemesOf layer ++ core)) layers := by
  induction layers with
  | nil => simp [arrange, arrangeGroup, hlayer, parenthesised]
  | cons inner layers ih =>
    have hany : inner.isSuffix = false → (inner :: layers).getLast?.any Layer.isSuffix =
        layers.getLast?.any Layer.isSuffix := by
      cases layers <;> simp
    have hall : inner.isSuffix = true → (inner :: layers).getLast?.any Layer.isSuffix =
        layers.getLast?.all Layer.isSuffix := by
      rw [List.getLast?_cons]
      cases layers.getLast? <;> simp
    have hboth : (inner :: layers).getLast?.all Layer.isSuffix =
        (inner :: layers).getLast?.any Layer.isSuffix := by
      simp [List.getLast?_cons]
    cases hinner : inner.isSuffix with
    | true => simp [arrange, arrangeGroup, hinner, ih, hboth, hall hinner]
    | false => simp [arrange, arrangeGroup, hinner, ih, hboth, hany hinner]

end

/-! ## Lexemes of a type -/

namespace CType

/-- Whether a name that is put into the declarator comes right after the qualifiers of a pointer:
there are only arrays and functions around the pointer. -/
def touchesQualifiers : CType → Bool
  | pointer cv _ => cv ≠ .plain
  | array _ element _ => element.touchesQualifiers
  | function _ result _ _ => result.touchesQualifiers
  | _ => false

end CType

section

variable {joins : Char → Bool} (hjoins : Text.ReadsWords joins)

include hjoins

theorem lexemes_joinDeclarator (leaf declarator : String) :
    Text.lexemes joins (joinDeclarator leaf declarator).toList =
      Text.lexemes joins leaf.toList ++ Text.lexemes joins declarator.toList := by
  have hspaced : Text.lexemes joins (leaf ++ " " ++ declarator).toList =
      Text.lexemes joins leaf.toList ++ Text.lexemes joins declarator.toList := by
    have hsplit : (leaf ++ " " ++ declarator).toList = leaf.toList ++ ' ' :: declarator.toList := by
      simp
    rw [hsplit, hjoins.lexemes_append_space]
  unfold joinDeclarator
  split
  case h_1 hnil => simp [hnil]
  case h_2 | h_3 => exact hspaced
  case h_4 =>
    split
    case isFalse => exact hspaced
    case isTrue hsigil =>
      have hends : Text.endsWord joins leaf.toList = false := by
        simp only [Bool.or_eq_true, decide_eq_true_eq] at hsigil
        obtain hlast | hlast := hsigil <;> rw [Text.endsWord, hlast] <;>
          exact hjoins.mark _ (by decide)
      rw [String.toList_append, Text.lexemes_append (.inl hends)]

/-- A sigil is read apart from the declarator unless a qualifier meets a word. -/
theorem lexemes_joinSigil {sigil declarator : String}
    (h : Text.endsWord joins sigil.toList = false ∨
      Text.startsWord joins declarator.toList = false) :
    Text.lexemes joins (joinSigil sigil declarator).toList =
      Text.lexemes joins sigil.toList ++ Text.lexemes joins declarator.toList := by
  unfold joinSigil
  split
  · have hsplit : (sigil ++ " " ++ declarator).toList =
        sigil.toList ++ ' ' :: declarator.toList := by
      simp
    rw [hsplit, hjoins.lexemes_append_space]
  · rw [String.toList_append, Text.lexemes_append h]

theorem lexemes_wrapSigil (target : CType) (sigil declarator : String) :
    Text.lexemes joins (target.wrapSigil sigil declarator).toList =
      parenthesised target.decays (Text.lexemes joins (joinSigil sigil declarator).toList) := by
  rw [CType.wrapSigil, parenthesised]
  split
  · have hsplit : ("(" ++ joinSigil sigil declarator ++ ")").toList =
        '(' :: ((joinSigil sigil declarator).toList ++ [')']) := by simp
    rw [hsplit, hjoins.lexemes_mark (by decide), hjoins.lexemes_append_mark (by decide),
      Text.lexemes_nil]
    rfl
  · rfl

/-- A sigil with anything after it does not start with a word. -/
theorem Layer.startsWord_wrapSigil (layer : Layer) (hlayer : layer.isSuffix = false)
    (style : Style) (target : CType) (declarator : String) :
    Text.startsWord joins (target.wrapSigil (layer.text style) declarator).toList = false := by
  have hsigil : ∃ c cs, (layer.text style).toList = c :: cs ∧ joins c = false := by
    cases layer with
    | pointer cv => exact ⟨'*', _, String.toList_append, hjoins.mark '*' (by decide)⟩
    | reference kind =>
      cases kind with
      | lvalue => exact ⟨'&', [], by simp [text, ValueKind.sigil], hjoins.mark '&' (by decide)⟩
      | rvalue => exact ⟨'&', ['&'], by simp [text, ValueKind.sigil], hjoins.mark '&' (by decide)⟩
    | array | function => cases hlayer
  obtain ⟨c, cs, hsigil, hc⟩ := hsigil
  unfold CType.wrapSigil joinSigil
  split
  · simp [Text.startsWord, hjoins.mark '(' (by decide)]
  · split <;> simp [Text.startsWord, hsigil, hc]

/-- A suffix does not start with a word. -/
theorem Layer.startsWord_text (layer : Layer) (hlayer : layer.isSuffix = true) (style : Style) :
    Text.startsWord joins (layer.text style).toList = false := by
  cases layer with
  | pointer | reference => cases hlayer
  | array => simp [Layer.text, Text.startsWord, hjoins.mark '[' (by decide)]
  | function => simp [Layer.text, spellParameters, Text.startsWord, hjoins.mark '(' (by decide)]

/-- A suffix is read apart from the declarator before it. -/
theorem Layer.lexemes_append_text (layer : Layer) (hlayer : layer.isSuffix = true) (style : Style)
    (declarator : String) :
    Text.lexemes joins (declarator ++ layer.text style).toList =
      Text.lexemes joins declarator.toList ++ layer.lexemes joins style := by
  rw [String.toList_append, Text.lexemes_append (.inr (startsWord_text hjoins layer hlayer style))]
  rfl

theorem Layer.startsWord_append_text (layer : Layer) (hlayer : layer.isSuffix = true)
    (style : Style) {declarator : String}
    (h : Text.startsWord joins declarator.toList = false) :
    Text.startsWord joins (declarator ++ layer.text style).toList = false := by
  rw [String.toList_append]
  exact Text.startsWord_append h (startsWord_text hjoins layer hlayer style)

/-- One more layer of sigils, at the place where it is written. -/
theorem arrange_wrapSigil (layer : Layer) (hlayer : layer.isSuffix = false) (style : Style)
    (target : CType) {declarator : String}
    (h : Text.endsWord joins (layer.text style).toList = false ∨
      Text.startsWord joins declarator.toList = false) :
    arrange (Layer.lexemes joins style)
        (Text.lexemes joins (target.wrapSigil (layer.text style) declarator).toList)
        target.layers =
      arrange (Layer.lexemes joins style) (Text.lexemes joins declarator.toList)
        (target.layers ++ [layer]) := by
  rw [lexemes_wrapSigil hjoins, lexemes_joinSigil hjoins h, CType.decays_eq,
    (arrange_concat_sigil hlayer _ _).1]
  rfl

/-- The lexemes of a type around a declarator: the leaf, and the layers arranged around the lexemes
of the declarator. -/
theorem lexemes_spellAround (style : Style) (t : CType) {declarator : String}
    (h : t.touchesQualifiers = false ∨ Text.startsWord joins declarator.toList = false) :
    Text.lexemes joins (t.spellAround style declarator).toList =
      Text.lexemes joins (t.leaf.spell style).toList ++
        arrange (Layer.lexemes joins style) (Text.lexemes joins declarator.toList) t.layers := by
  fun_induction CType.leaf t generalizing declarator with
  | case1 cv target ih =>
    have hsigil : Text.endsWord joins ((Layer.pointer cv).text style).toList = false ∨
        Text.startsWord joins declarator.toList = false := by
      refine h.imp_left fun hplain => ?_
      obtain rfl : cv = .plain := by simpa [CType.touchesQualifiers] using hplain
      simp [Text.endsWord, Layer.text, Cv.words, Cv.plain, hjoins.mark '*' (by decide)]
    have hstart := Layer.startsWord_wrapSigil hjoins (.pointer cv) rfl style target declarator
    rw [CType.spellAround_pointer, ih (.inr hstart), CType.layers,
      arrange_wrapSigil hjoins _ rfl style target hsigil]
  | case2 cv kind target ih =>
    have hsigil : Text.endsWord joins ((Layer.reference kind).text style).toList = false := by
      cases kind <;>
        simp [Text.endsWord, Layer.text, ValueKind.sigil, hjoins.mark '&' (by decide)]
    have hstart := Layer.startsWord_wrapSigil hjoins (.reference kind) rfl style target declarator
    rw [CType.spellAround_reference, ih (.inr hstart), CType.layers,
      arrange_wrapSigil hjoins _ rfl style target (.inl hsigil)]
  | case3 cv element size ih =>
    have hstart := h.imp_right (Layer.startsWord_append_text hjoins (.array size) rfl style)
    rw [CType.spellAround_array, ih hstart, CType.layers, (arrange_concat_suffix rfl _ _).1,
      Layer.lexemes_append_text hjoins _ rfl style]
  | case4 cv result params isVariadic ih =>
    have hstart := h.imp_right
      (Layer.startsWord_append_text hjoins (.function params isVariadic) rfl style)
    rw [CType.spellAround_function, ih hstart, CType.layers, (arrange_concat_suffix rfl _ _).1,
      Layer.lexemes_append_text hjoins _ rfl style]
  | case5 t hpointer hreference harray hfunction =>
    have hlayers : t.layers = [] := by
      cases t <;> grind [CType.layers]
    rw [CType.spellAround_of_layers_eq_nil style declarator hlayers,
      lexemes_joinDeclarator hjoins, hlayers]
    rfl

end

end ClassEdit
