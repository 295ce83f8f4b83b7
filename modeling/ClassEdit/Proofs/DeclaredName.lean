import ClassEdit.Proofs.TypeLayers

/-!
# The name in a declaration

A declaration of a name is the spelling of its type with the name put in: at the end, or inside of
the declarator of an array or function. Inside it is written right after what stands there. That is
a sigil, a parenthesis or the leaf with a space, and the name stays a lexeme of its own, or it is
the keyword of a qualified pointer, and the two are read as one word.

## Main definitions

* `InsertsName`: the lexemes of a type with those of a name put in.

## Main statements

* `exists_arrange_eq`: what is arranged around a name does not depend on it.
* `length_lexemes_spellAround`: a name that touches qualifiers is lost as a lexeme.
* `CType.declare_insertsName_iff`: when a declaration declares its name.
-/

namespace ClassEdit

/-- The lexemes of a declaration are those of the type with the name put in at one place. -/
def InsertsName (name : List Char) (type declaration : List (List Char)) : Prop :=
  ∃ before after, type = before ++ after ∧ declaration = before ++ name :: after

/-- The lexemes around the core of a declarator do not depend on it. -/
theorem exists_arrange_eq (lexemesOf : Layer → List (List Char)) (layers : List Layer) :
    (∃ before after, ∀ core, arrange lexemesOf core layers = before ++ core ++ after) ∧
      ∃ before after, ∀ core, arrangeGroup lexemesOf core layers = before ++ core ++ after := by
  induction layers with
  | nil => exact ⟨⟨[], [], by simp [arrange]⟩, [], [], by simp [arrangeGroup]⟩
  | cons layer outer ih =>
    obtain ⟨⟨before, after, harrange⟩, left, right, hgroup⟩ := ih
    cases hlayer : layer.isSuffix with
    | true =>
      refine ⟨⟨left, right ++ lexemesOf layer, ?_⟩, left, right ++ lexemesOf layer, ?_⟩ <;>
        simp [arrange, arrangeGroup, hlayer, hgroup]
    | false =>
      refine ⟨⟨lexemesOf layer ++ before, after, ?_⟩,
        [['(']] ++ lexemesOf layer ++ before, after ++ [[')']], ?_⟩ <;>
        simp [arrange, arrangeGroup, hlayer, harrange]

/-- One lexeme more at the core of a declarator is one lexeme more of the declarator. -/
theorem length_arrange_succ (lexemesOf : Layer → List (List Char)) {core more : List (List Char)}
    (h : core.length + 1 = more.length) (layers : List Layer) :
    (arrange lexemesOf core layers).length + 1 = (arrange lexemesOf more layers).length := by
  obtain ⟨before, after, harrange⟩ := (exists_arrange_eq lexemesOf layers).1
  rw [harrange, harrange]
  grind

theorem length_parenthesised_succ {core more : List (List Char)}
    (h : core.length + 1 = more.length) (isNeeded : Bool) :
    (parenthesised isNeeded core).length + 1 = (parenthesised isNeeded more).length := by
  cases isNeeded <;> grind [parenthesised]

/-! ## Names after qualifiers -/

section

variable {joins : Char → Bool} (hjoins : Text.ReadsWords joins)

include hjoins

/-- The sigil of a qualified pointer ends in a keyword. -/
theorem exists_word_of_ne_plain {cv : Cv} (hcv : cv ≠ .plain) (style : Style) :
    ∃ front word, ((Layer.pointer cv).text style).toList = front ++ word ∧ word ≠ [] ∧
      (∀ c ∈ word, joins c = true) ∧ Text.endsWord joins front = false := by
  have hwords : "constvolatile".toList = "const".toList ++ "volatile".toList := by decide
  have hqualifier := hjoins.qualifier
  rw [hwords, List.forall_mem_append] at hqualifier
  obtain ⟨hconst, hvolatile⟩ := hqualifier
  have hstar : joins '*' = false := hjoins.mark '*' (by decide)
  have hfront : Text.endsWord joins ['*'] = false := by simp [Text.endsWord, hstar]
  have hspaced : Text.endsWord joins "*const ".toList = false := by
    simp [Text.endsWord, hjoins.space]
  obtain ⟨isConst, isVolatile⟩ := cv
  cases isConst <;> cases isVolatile
  case false.false => exact absurd rfl hcv
  case false.true =>
    exact ⟨['*'], "volatile".toList, by simp [Layer.text, Cv.words], by simp, hvolatile, hfront⟩
  case true.false =>
    exact ⟨['*'], "const".toList, by simp [Layer.text, Cv.words], by simp, hconst, hfront⟩
  case true.true =>
    exact ⟨"*const ".toList, "volatile".toList, by simp [Layer.text, Cv.words], by simp,
      hvolatile, hspaced⟩

variable {name rest : List Char}

/-- A declarator with a suffix still starts with the name. -/
theorem exists_rest_append_text (layer : Layer) (hlayer : layer.isSuffix = true) (style : Style)
    {declarator : String} (hdeclarator : declarator.toList = name ++ rest)
    (hrest : Text.startsWord joins rest = false) :
    ∃ longer, (declarator ++ layer.text style).toList = name ++ longer ∧
      Text.startsWord joins longer = false := by
  refine ⟨rest ++ (layer.text style).toList, ?_, ?_⟩
  · rw [String.toList_append, hdeclarator, List.append_assoc]
  · exact Text.startsWord_append hrest (Layer.startsWord_text hjoins layer hlayer style)

variable (hne : name ≠ []) (hname : ∀ c ∈ name, joins c = true)

include hne hname

/-- After the sigil of a qualified pointer a name is lost as a lexeme. -/
theorem length_lexemes_joinSigil {cv : Cv} (hcv : cv ≠ .plain) (style : Style)
    {declarator : String} (hdeclarator : declarator.toList = name ++ rest)
    (hrest : Text.startsWord joins rest = false) :
    (Text.lexemes joins (joinSigil ((Layer.pointer cv).text style) declarator).toList).length + 1 =
      ((Layer.pointer cv).lexemes joins style).length +
        (Text.lexemes joins declarator.toList).length := by
  obtain ⟨front, word, hsigil, hword, hjoined, hfront⟩ := exists_word_of_ne_plain hjoins hcv style
  have htouches : joinSigil ((Layer.pointer cv).text style) declarator =
      (Layer.pointer cv).text style ++ declarator := by
    obtain ⟨c, cs, rfl⟩ := List.exists_cons_of_ne_nil hne
    have hc : joins c = true := hname c List.mem_cons_self
    have hstar : c ≠ '*' := by
      rintro rfl
      simp [hjoins.mark '*' (by decide)] at hc
    have hamp : c ≠ '&' := by
      rintro rfl
      simp [hjoins.mark '&' (by decide)] at hc
    rw [joinSigil, if_neg]
    simp [hdeclarator, hstar, hamp]
  have hapart : (Layer.pointer cv).lexemes joins style =
      Text.lexemes joins front ++ [word] := by
    rw [Layer.lexemes, hsigil, Text.lexemes_append (.inl hfront), Text.lexemes_word hword hjoined]
  rw [htouches, String.toList_append, hsigil, hdeclarator,
    Text.lexemes_glued hjoined hname hne hfront hrest, Text.lexemes_word_append hne hname hrest,
    hapart]
  simp
  omega

/-- A name that is put into a declarator right after qualifiers is lost as a lexeme. -/
theorem length_lexemes_spellAround (style : Style) {t : CType} (ht : t.touchesQualifiers = true)
    {declarator : String} (hdeclarator : declarator.toList = name ++ rest)
    (hrest : Text.startsWord joins rest = false) :
    (Text.lexemes joins (t.spellAround style declarator).toList).length + 1 =
      (Text.lexemes joins (t.leaf.spell style).toList).length +
        (arrange (Layer.lexemes joins style) (Text.lexemes joins declarator.toList)
          t.layers).length := by
  fun_induction CType.touchesQualifiers t generalizing declarator rest with
  | case1 cv target =>
    have hcv : cv ≠ .plain := by simpa using ht
    have hlost := length_lexemes_joinSigil hjoins hne hname hcv style hdeclarator hrest
    have hstart := Layer.startsWord_wrapSigil hjoins (.pointer cv) rfl style target declarator
    rw [CType.spellAround_pointer, lexemes_spellAround hjoins style target (.inr hstart),
      CType.layers, CType.leaf, (arrange_concat_sigil rfl _ _).1, ← CType.decays_eq,
      lexemes_wrapSigil hjoins, List.length_append, Nat.add_assoc]
    refine congrArg _ (length_arrange_succ _ (length_parenthesised_succ ?_ _) _)
    rw [hlost, List.length_append]
  | case2 cv element size ih =>
    obtain ⟨longer, hlonger, hstart⟩ :=
      exists_rest_append_text hjoins (.array size) rfl style hdeclarator hrest
    rw [CType.spellAround_array, ih ht hlonger hstart, CType.leaf, CType.layers,
      (arrange_concat_suffix rfl _ _).1, Layer.lexemes_append_text hjoins _ rfl style]
  | case3 cv result params isVariadic ih =>
    obtain ⟨longer, hlonger, hstart⟩ :=
      exists_rest_append_text hjoins (.function params isVariadic) rfl style hdeclarator hrest
    rw [CType.spellAround_function, ih ht hlonger hstart, CType.leaf, CType.layers,
      (arrange_concat_suffix rfl _ _).1, Layer.lexemes_append_text hjoins _ rfl style]
  | case4 => cases ht

end

/-! ## Declarations -/

namespace CType

/-- A declaration has the lexemes of its type with the name put in, unless the name is put inside
of the declarator and right after the qualifiers of a pointer there. -/
theorem declare_insertsName_iff (style : Style) (t : CType) {name : String} (hne : name ≠ "")
    (hname : ∀ c ∈ name.toList, Text.isNameChar c = true) :
    InsertsName name.toList (Text.lexemes Text.isNameChar (t.spell style).toList)
        (Text.lexemes Text.isNameChar (t.declare style name).toList) ↔
      ¬ (t.enclosesName = true ∧ t.touchesQualifiers = true) := by
  have hjoins := Text.readsWords_isNameChar
  have hlist : name.toList ≠ [] := by simpa using hne
  have hword := Text.lexemes_word hlist hname
  have hspell := @lexemes_spellAround _ hjoins style t "" (.inr rfl)
  have hdeclare : t.declare style name =
      if t.enclosesName then t.spellAround style name else t.spell style ++ " " ++ name := by
    rw [declare, if_neg (by simpa using hne)]
  rw [hdeclare]
  cases hencloses : t.enclosesName with
  | false =>
    have hsplit : (t.spell style ++ " " ++ name).toList =
        (t.spell style).toList ++ ' ' :: name.toList := by simp
    refine iff_of_true ⟨_, [], (List.append_nil _).symm, ?_⟩ (by simp)
    rw [if_neg (by simp), hsplit, hjoins.lexemes_append_space, hword]
  | true =>
    rw [if_pos rfl]
    cases htouches : t.touchesQualifiers with
    | false =>
      obtain ⟨before, after, harrange⟩ :=
        (exists_arrange_eq (Layer.lexemes Text.isNameChar style) t.layers).1
      refine iff_of_true
        ⟨Text.lexemes Text.isNameChar (t.leaf.spell style).toList ++ before, after, ?_, ?_⟩
        (by simp)
      · rw [spell, hspell, harrange]
        simp
      · rw [lexemes_spellAround hjoins style t (.inl htouches), harrange, hword]
        simp
    | true =>
      have hlost := length_lexemes_spellAround hjoins hlist hname style htouches
        (List.append_nil name.toList).symm rfl
      have hone : ([] : List (List Char)).length + 1 = [name.toList].length := rfl
      have hmore := length_arrange_succ (Layer.lexemes Text.isNameChar style) hone t.layers
      refine iff_of_false ?_ (by simp)
      rintro ⟨before, after, htype, hdeclaration⟩
      have hlength := congrArg List.length hspell
      rw [← spell, htype] at hlength
      rw [hdeclaration, hword] at hlost
      simp at hlength hlost
      omega

/-- A constant pointer to an array of three integers. -/
def constArrayPointer : CType :=
  pointer ⟨true, false⟩ (array .plain (builtin .plain (.int true)) (some "3"))

theorem declare_insertsName_constArrayPointer :
    constArrayPointer.spell .written = "int (*const)[3]" ∧
      constArrayPointer.declare .written "p" = "int (*constp)[3]" ∧
      ¬ InsertsName ['p'] (Text.lexemes Text.isNameChar (constArrayPointer.spell .written).toList)
        (Text.lexemes Text.isNameChar (constArrayPointer.declare .written "p").toList) ∧
      constArrayPointer.pointerTo.declare .written "p" = "int (*const *p)[3]" ∧
      InsertsName ['p']
        (Text.lexemes Text.isNameChar (constArrayPointer.pointerTo.spell .written).toList)
        (Text.lexemes Text.isNameChar
          (constArrayPointer.pointerTo.declare .written "p").toList) := by
  have hne : "p" ≠ "" := by decide
  have hname : ∀ c ∈ "p".toList, Text.isNameChar c = true := List.all_eq_true.1 (by decide)
  refine ⟨by decide +kernel, by decide +kernel, ?_, by decide +kernel, ?_⟩
  · exact fun hinserts =>
      (declare_insertsName_iff .written constArrayPointer hne hname).1 hinserts ⟨rfl, rfl⟩
  · exact (declare_insertsName_iff .written constArrayPointer.pointerTo hne hname).2
      fun ⟨_, htouches⟩ => Bool.noConfusion htouches

end CType

end ClassEdit
