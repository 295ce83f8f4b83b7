import ClassEdit.Proofs.SpelledTexts
import ClassEdit.Proofs.StrippedScope
import ClassEdit.Proofs.WrittenTypes

/-!
# Texts with closed brackets

A parameter ends at the first comma or closing parenthesis that is outside of the brackets it opens.
So parameters with closed brackets are told apart in a list. A type is spelled with closed brackets
if the texts in it have closed brackets, and its spelling starts with its leaf, which is mostly a
name. Both stay so when a scope is deleted.

## Main definitions

* `Text.IsClosed`: all brackets of a text are closed, and no comma is outside of them.
* `StartsWithName`: a text starts with a name that no parenthesis comes after.
* `IsNameText`: a word that does not end in a colon.
* `CType.IsLegible`: types that are told apart in a list of parameters.
* `ShownSignature.IsPlain`: signatures of such parameters.

## Main statements

* `Text.IsClosed.separable`: closed texts are told apart by what comes after them.
* `keptBySpelling_isClosed`: a type is spelled with closed brackets if its texts are.
* `CType.isLegible_of_isNameText`: types that are spelled from words are legible.
* `StartsWithName.not_isPrefix`: a type in front of a signature does not start the signature.
* `ShownSignature.IsPlain.apart`, `ShownSignature.IsPlain.strip`: plain signatures are told apart,
  also without a scope.
-/

namespace ClassEdit

/-! ## Brackets -/

namespace Text

/-- The number of open brackets after a character, if it may stand where `depth` are open. Outside
of all brackets there may be neither a comma nor a closing bracket. -/
def nest (depth : Nat) (c : Char) : Option Nat :=
  if c ∈ ['(', '[', '<'] then some (depth + 1)
  else if c ∈ [')', ']', '>'] then if depth = 0 then none else some (depth - 1)
  else if c = ',' ∧ depth = 0 then none
  else some depth

/-- All brackets are closed, and no comma is outside of them. -/
def IsClosed (cs : List Char) : Prop :=
  cs.foldlM nest 0 = some 0

instance (cs : List Char) : Decidable (IsClosed cs) :=
  inferInstanceAs (Decidable (cs.foldlM nest 0 = some 0))

/-- A bracket or a comma. -/
def isNestMark (c : Char) : Bool :=
  c ∈ ['(', '[', '<', ')', ']', '>', ',']

section

variable {cs ds : List Char} {depth : Nat}

theorem nest_succ {c : Char} {after : Nat} (h : nest depth c = some after) :
    nest (depth + 1) c = some (after + 1) := by
  unfold nest at h ⊢
  split_ifs at h ⊢ <;> grind

theorem nest_of_isNestMark {c : Char} (h : isNestMark c = false) (depth : Nat) :
    nest depth c = some depth := by
  simp only [isNestMark, List.mem_cons, List.not_mem_nil, or_false, decide_eq_false_iff_not,
    not_or] at h
  simp [nest, h]

theorem isNestMark_of_continuesName {c : Char} (h : continuesName c = true) :
    isNestMark c = false := by
  by_contra hmark
  rw [Bool.not_eq_false, isNestMark, decide_eq_true_eq] at hmark
  have hmarks : ['(', '[', '<', ')', ']', '>', ','].any continuesName = false := by decide
  exact List.any_eq_false.1 hmarks c hmark h

theorem foldlM_nest_append {after : Nat} (h : cs.foldlM nest depth = some after)
    (ds : List Char) : (cs ++ ds).foldlM nest depth = ds.foldlM nest after := by
  rw [List.foldlM_append, h]
  rfl

theorem foldlM_nest_succ {after : Nat} (h : cs.foldlM nest depth = some after) :
    cs.foldlM nest (depth + 1) = some (after + 1) := by
  induction cs generalizing depth with
  | nil => simpa using h
  | cons c cs ih =>
    rw [List.foldlM_cons] at h ⊢
    obtain ⟨next, hnext, h⟩ := Option.bind_eq_some_iff.1 h
    exact Option.bind_eq_some_iff.2 ⟨next + 1, nest_succ hnext, ih h⟩

/-- Only brackets and commas count. -/
theorem foldlM_nest_filter (cs : List Char) (depth : Nat) :
    (cs.filter isNestMark).foldlM nest depth = cs.foldlM nest depth := by
  induction cs generalizing depth with
  | nil => rfl
  | cons c cs ih =>
    cases hc : isNestMark c with
    | true =>
      rw [List.filter_cons_of_pos hc, List.foldlM_cons, List.foldlM_cons]
      exact bind_congr ih
    | false =>
      rw [List.filter_cons_of_neg (by simp [hc]), ih, List.foldlM_cons, nest_of_isNestMark hc]
      rfl

namespace IsClosed

/-- A closed text may stand inside of brackets as well. -/
theorem foldlM_nest (h : IsClosed cs) (depth : Nat) : cs.foldlM nest depth = some depth := by
  induction depth with
  | zero => exact h
  | succ depth ih => exact foldlM_nest_succ ih

theorem append (h : IsClosed cs) (h' : IsClosed ds) : IsClosed (cs ++ ds) := by
  rw [IsClosed, foldlM_nest_append h]
  exact h'

/-- Closed texts are told apart by a comma or a closing parenthesis after them. -/
theorem separable (h : IsClosed cs) (h' : IsClosed ds) : Separable [',', ')'] cs ds := by
  have hnil : ∀ {front more : List Char}, IsClosed front → IsClosed (front ++ more) →
      StartsIn [',', ')'] more → more = [] := by
    rintro front (_ | ⟨c, more⟩) hfront hmore hstart
    · rfl
    · have hmarks : ∀ c ∈ [',', ')'], nest 0 c = none := by simp [nest]
      rw [IsClosed, foldlM_nest_append hfront, List.foldlM_cons,
        hmarks c (startsIn_cons.1 hstart)] at hmore
      cases hmore
  exact separable_of_append (fun more hds => hnil h (hds ▸ h')) fun more hcs => hnil h' (hcs ▸ h)

end IsClosed

/-- A list of closed texts in brackets is closed. -/
theorem isClosed_brackets {opening closing : Char} {entries : List (List Char)}
    (hopening : nest 0 opening = some 1) (hclosing : nest 1 closing = some 0)
    (h : ∀ entry ∈ entries, IsClosed entry) :
    IsClosed (opening :: ([',', ' '].intercalate entries ++ [closing])) := by
  have hlist : ∀ entries : List (List Char), (∀ entry ∈ entries, IsClosed entry) →
      (entries.flatMap ([',', ' '] ++ ·)).foldlM nest 1 = some 1 := by
    intro entries h
    induction entries with
    | nil => rfl
    | cons entry entries ih =>
      obtain ⟨hentry, h⟩ := List.forall_mem_cons.1 h
      have hcomma : [',', ' '].foldlM nest 1 = some 1 := by decide
      rw [List.flatMap_cons, List.append_assoc, foldlM_nest_append hcomma,
        foldlM_nest_append (hentry.foldlM_nest 1), ih h]
  have hentries : ([',', ' '].intercalate entries).foldlM nest 1 = some 1 := by
    cases entries with
    | nil => rfl
    | cons entry entries =>
      obtain ⟨hentry, h⟩ := List.forall_mem_cons.1 h
      rw [intercalate_cons, foldlM_nest_append (hentry.foldlM_nest 1), hlist entries h]
  have hfirst : [opening].foldlM nest 0 = some 1 := by simpa using hopening
  have hlast : [closing].foldlM nest 1 = some 0 := by simpa using hclosing
  rw [IsClosed, ← List.singleton_append, foldlM_nest_append hfirst, foldlM_nest_append hentries,
    hlast]

/-- Leaving out a closed text makes no difference. -/
theorem foldlM_nest_replaceFrom {pattern : List Char} (hne : pattern ≠ [])
    (hpattern : IsClosed pattern) {skip : Nat} (hskip : skip ≤ cs.length) (depth : Nat) :
    (replaceFrom pattern [] skip cs).foldlM nest depth = (cs.drop skip).foldlM nest depth := by
  induction cs generalizing skip depth with
  | nil => simp [replaceFrom]
  | cons c cs ih =>
    cases skip with
    | succ skip => exact ih (by simpa using hskip) depth
    | zero =>
      rw [replaceFrom, List.drop_zero]
      split
      case isTrue hstart =>
        obtain ⟨rest, hrest⟩ := List.isPrefixOf_iff_prefix.1 hstart
        obtain ⟨d, ds, rfl⟩ := List.exists_cons_of_ne_nil hne
        rw [List.cons_append] at hrest
        obtain ⟨rfl, rfl⟩ := List.cons.inj hrest
        rw [List.nil_append, List.length_cons, Nat.add_sub_cancel, ih (by simp), List.drop_left,
          ← List.cons_append, foldlM_nest_append (hpattern.foldlM_nest depth)]
      case isFalse =>
        rw [List.foldlM_cons, List.foldlM_cons]
        exact bind_congr fun after => ih (Nat.zero_le _) after

theorem IsClosed.replaced {s pattern : String} (hne : pattern ≠ "")
    (hpattern : IsClosed pattern.toList) (hs : IsClosed s.toList) :
    IsClosed (Text.replaced s pattern "").toList := by
  have hpatternNe : pattern.toList ≠ [] := by simpa using hne
  rw [Text.replaced, String.toList_ofList, replaceAll, IsClosed, String.toList_empty,
    foldlM_nest_replaceFrom hpatternNe hpattern (Nat.zero_le _), List.drop_zero]
  exact hs

theorem isClosed_stripScope_iff {scope : List Char} (hscope : IsScopeText scope) :
    IsClosed (stripScope scope cs) ↔ IsClosed cs := by
  have hnames : ∀ c ∈ scope, isNestMark c = false :=
    fun c hc => isNestMark_of_continuesName (hscope.continues c hc)
  rw [IsClosed, ← foldlM_nest_filter, filter_stripScope hnames hscope.ne_nil, foldlM_nest_filter,
    IsClosed]

end

end Text

/-- A type is spelled with closed brackets if the texts in it have closed brackets. -/
theorem keptBySpelling_isClosed : KeptBySpelling fun text => Text.IsClosed text.toList where
  append ha hb := by
    rw [String.toList_append]
    exact ha.append hb
  fixed := by decide
  brackets pair hpair entries hentries := by
    have hpairs : ∀ pair ∈ [("(", ")"), ("[", "]"), ("<", ">")], ∃ opening closing,
        pair.1.toList = [opening] ∧ pair.2.toList = [closing] ∧
          Text.nest 0 opening = some 1 ∧ Text.nest 1 closing = some 0 := by
      simp only [List.forall_mem_cons, List.not_mem_nil, false_implies, implies_true, and_true]
      exact ⟨⟨'(', ')', by decide⟩, ⟨'[', ']', by decide⟩, ⟨'<', '>', by decide⟩⟩
    obtain ⟨opening, closing, hfirst, hlast, hopening, hclosing⟩ := hpairs pair hpair
    have htext : (bracketed pair.1 pair.2 entries).toList =
        opening :: ([',', ' '].intercalate (entries.map String.toList) ++ [closing]) := by
      simp [bracketed, String.toList_intercalate, hfirst, hlast]
    rw [htext]
    exact Text.isClosed_brackets hopening hclosing (by simpa using hentries)
  spellScopes style name hname := by
    cases style with
    | written => exact hname
    | qualified => exact Text.IsClosed.replaced (by decide) (by decide) hname

/-! ## Names in front -/

/-- A text that starts with a name: with characters of names up to one that is no colon, and then
neither with another such character nor with an opening parenthesis. -/
def StartsWithName (cs : List Char) : Prop :=
  ∃ front last rest, cs = front ++ last :: rest ∧ (∀ c ∈ front, continuesName c = true) ∧
    (continuesName last = true ∧ last ≠ ':') ∧
    ∀ c ∈ rest.head?, continuesName c = false ∧ c ≠ '('

namespace StartsWithName

variable {cs more : List Char}

theorem exists_cons (h : StartsWithName cs) :
    ∃ c rest, cs = c :: rest ∧ continuesName c = true := by
  obtain ⟨front, last, rest, rfl, hfront, hlast, -⟩ := h
  cases front with
  | nil => exact ⟨last, rest, rfl, hlast.1⟩
  | cons c front => exact ⟨c, front ++ last :: rest, rfl, hfront c (by simp)⟩

theorem append_of_startsIn (h : StartsWithName cs) (hmore : StartsIn [' ', '<'] more) :
    StartsWithName (cs ++ more) := by
  obtain ⟨front, last, rest, rfl, hfront, hlast, hrest⟩ := h
  refine ⟨front, last, rest ++ more, by simp, hfront, hlast, ?_⟩
  have hmarks : ∀ c ∈ [' ', '<'], continuesName c = false ∧ c ≠ '(' :=
    List.forall_mem_cons.2 ⟨by decide, List.forall_mem_singleton.2 (by decide)⟩
  cases rest with
  | nil => exact fun c hc => hmarks c (hmore c hc)
  | cons c rest => exact hrest

theorem append_of_getLast? (h : StartsWithName cs)
    (hend : ∃ c, cs.getLast? = some c ∧ continuesName c = false) : StartsWithName (cs ++ more) := by
  obtain ⟨front, last, rest, rfl, hfront, hlast, hrest⟩ := h
  obtain ⟨c, hc, hname⟩ := hend
  refine ⟨front, last, rest ++ more, by simp, hfront, hlast, ?_⟩
  cases rest with
  | nil =>
    obtain rfl : last = c := by simpa using hc
    cases hlast.1.symm.trans hname
  | cons d rest => exact hrest

/-- What starts with a name and has a space after it does not start a text in which a parenthesis
comes after the first name. -/
theorem not_isPrefix (h : StartsWithName cs) {word : List Char}
    (hword : ∀ c ∈ word, continuesName c = true) (rest : List Char) :
    ¬ cs ++ [' '] <+: word ++ '(' :: rest := by
  rintro ⟨more, hmore⟩
  obtain ⟨front, last, after, rfl, hfront, hlast, hafter⟩ := h
  -- The first character that belongs to no name is a parenthesis in one of them only.
  have hfind := congrArg (List.find? (!continuesName ·)) hmore
  have hnone : ∀ {name : List Char}, (∀ c ∈ name, continuesName c = true) →
      name.find? (!continuesName ·) = none := by simp
  have hopen : continuesName '(' = false := by decide
  have hspace : continuesName ' ' = false := by decide
  cases after with
  | nil => simp [List.find?_append, hnone hword, hnone hfront, hlast.1, hopen, hspace] at hfind
  | cons c after =>
    obtain ⟨hc, hne⟩ := hafter c rfl
    simp [List.find?_append, hnone hword, hnone hfront, hlast.1, hopen, hc, hne] at hfind

section

variable {scope : List Char}

/-- A scope is deleted in front of a name at most, and not the end of the name. -/
theorem exists_stripScope_eq (hscope : IsScopeText scope) {front : List Char} {last : Char}
    (hfront : ∀ c ∈ front, continuesName c = true) (hlast : continuesName last = true)
    (hcolon : last ≠ ':') : ∃ kept, (∀ c ∈ kept, continuesName c = true) ∧
      stripScope scope (front ++ [last]) = kept ++ [last] := by
  have hname : ∀ c ∈ front ++ [last], continuesName c = true := by
    simpa [or_imp, forall_and] using ⟨hfront, hlast⟩
  by_cases hstart : scope <+: front ++ [last]
  · obtain ⟨rest, hrest⟩ := hstart
    obtain ⟨before, hbefore, hstrip⟩ := stripScope_scope_append hscope rest
    rw [← hrest] at hname ⊢
    have hkept : ∀ c ∈ rest, continuesName c = true := fun c hc => hname c (by simp [hc])
    rw [hstrip, stripScopeFrom_of_continuesName hbefore hkept]
    obtain rfl | ⟨kept, final, rfl⟩ := List.eq_nil_or_concat rest
    · obtain ⟨colons, rfl⟩ := hscope.colons
      exact absurd (by simpa using congrArg List.getLast? hrest) (Ne.symm hcolon)
    · obtain rfl : final = last := by simpa using congrArg List.getLast? hrest
      exact ⟨kept, fun c hc => hkept c (by simp [hc]), by simp⟩
  · refine ⟨front, hfront, ?_⟩
    obtain ⟨c, cs, hcs⟩ := List.exists_cons_of_ne_nil (List.concat_ne_nil last front)
    rw [hcs] at hname hstart ⊢
    obtain ⟨hc, hcs⟩ := List.forall_mem_cons.1 hname
    have hrest : stripScopeFrom scope (some c) 0 true cs = cs :=
      stripScopeFrom_of_continuesName (by simpa using hc) hcs 0
    rw [ClassEdit.stripScope, stripScopeFrom, if_neg (by rwa [List.isPrefixOf_iff_prefix]), hrest]

theorem stripScope (hscope : IsScopeText scope) (h : StartsWithName cs) :
    StartsWithName (stripScope scope cs) := by
  obtain ⟨front, last, rest, rfl, hfront, ⟨hlast, hcolon⟩, hrest⟩ := h
  obtain ⟨kept, hkept, hstrip⟩ := exists_stripScope_eq hscope hfront hlast hcolon
  cases rest with
  | nil => exact ⟨kept, last, [], hstrip, hkept, ⟨hlast, hcolon⟩, by simp⟩
  | cons c rest =>
    refine ⟨kept, last, c :: ClassEdit.stripScope scope rest, ?_, hkept, ⟨hlast, hcolon⟩, hrest⟩
    rw [List.append_cons, stripScope_append_cons hscope (hrest c rfl).1, hstrip, List.append_assoc]
    rfl

end

end StartsWithName

/-! ## Types -/

/-- A leaf that starts with a name does so in front of a declarator. -/
theorem StartsWithName.joinDeclarator {leaf : String} (h : StartsWithName leaf.toList)
    (declarator : String) : StartsWithName (joinDeclarator leaf declarator).toList := by
  have hspaced : StartsWithName (leaf ++ " " ++ declarator).toList := by
    rw [String.append_assoc, String.toList_append]
    exact h.append_of_startsIn (by simp [StartsIn])
  rw [ClassEdit.joinDeclarator]
  split
  · exact h
  · exact hspaced
  · exact hspaced
  · split
    case isTrue hsigil =>
      rw [String.toList_append]
      apply h.append_of_getLast?
      rw [Bool.or_eq_true, decide_eq_true_eq, decide_eq_true_eq] at hsigil
      obtain hsigil | hsigil := hsigil
      · exact ⟨'*', hsigil, by decide⟩
      · exact ⟨'&', hsigil, by decide⟩
    case isFalse => exact hspaced

namespace CType

/-- A type is spelled as its leaf in front of a declarator. -/
theorem exists_spellAround_eq (style : Style) (t : CType) (declarator : String) :
    ∃ inner, t.spellAround style declarator = joinDeclarator (t.leaf.spell style) inner := by
  cases t with
  | pointer cv target =>
    rw [spellAround_pointer]
    exact exists_spellAround_eq style target _
  | reference cv kind target =>
    rw [spellAround_reference]
    exact exists_spellAround_eq style target _
  | array cv element size =>
    rw [spellAround_array]
    exact exists_spellAround_eq style element _
  | function cv result params isVariadic =>
    rw [spellAround_function]
    exact exists_spellAround_eq style result _
  | builtin | named | template | spelled =>
    exact ⟨declarator, spellAround_of_layers_eq_nil style declarator rfl⟩

/-- The texts in the type have closed brackets, and the leaf starts with a name. -/
structure IsLegible (t : CType) : Prop where
  texts : ∀ text ∈ t.texts, Text.IsClosed text.toList
  leaf : StartsWithName (t.leaf.spell .qualified).toList

namespace IsLegible

variable {t : CType}

theorem startsWithName_spellAround (h : t.IsLegible) (declarator : String) :
    StartsWithName (t.spellAround .qualified declarator).toList := by
  obtain ⟨inner, hinner⟩ := exists_spellAround_eq .qualified t declarator
  rw [hinner]
  exact h.leaf.joinDeclarator inner

theorem isClosed_declare (h : t.IsLegible) {name : String} (hname : Text.IsClosed name.toList) :
    Text.IsClosed (t.declare .qualified name).toList :=
  keptBySpelling_isClosed.declare .qualified h.texts hname

theorem startsWithName_declare (h : t.IsLegible) (name : String) :
    StartsWithName (t.declare .qualified name).toList := by
  rw [declare]
  split
  · exact h.startsWithName_spellAround ""
  · split
    · exact h.startsWithName_spellAround name
    · rw [String.append_assoc, String.toList_append]
      exact (h.startsWithName_spellAround "").append_of_startsIn (by simp [StartsIn])

end IsLegible

end CType

/-! ## Types of words -/

theorem IsWord.isClosed {text : String} (h : IsWord text) : Text.IsClosed text.toList := by
  have hnone : text.toList.filter Text.isNestMark = [] := by
    rw [List.filter_eq_nil_iff]
    exact fun c hc => Bool.eq_false_iff.1 (Text.isNestMark_of_continuesName (h.2 c hc))
  rw [Text.IsClosed, ← Text.foldlM_nest_filter, hnone]
  rfl

/-- A word that does not end in a colon, such as a scoped name. -/
structure IsNameText (text : String) : Prop where
  word : IsWord text
  noColon : text.toList.getLast? ≠ some ':'

instance (text : String) : Decidable (IsNameText text) :=
  decidable_of_iff (IsWord text ∧ text.toList.getLast? ≠ some ':')
    ⟨fun ⟨hword, hcolon⟩ => ⟨hword, hcolon⟩, fun ⟨hword, hcolon⟩ => ⟨hword, hcolon⟩⟩

theorem IsNameText.startsWithName {text : String} (h : IsNameText text) :
    StartsWithName text.toList := by
  obtain ⟨⟨hne, hname⟩, hcolon⟩ := h
  obtain hnil | ⟨front, last, htext⟩ := List.eq_nil_or_concat text.toList
  · exact absurd hnil (by simpa using hne)
  · rw [htext] at hname hcolon ⊢
    refine ⟨front, last, [], by simp, fun c hc => hname c (by simp [hc]),
      ⟨hname last (by simp), ?_⟩, by simp⟩
    simpa using hcolon

theorem Cv.startsWithName_before (cv : Cv) {leaf : String} (h : StartsWithName leaf.toList) :
    StartsWithName (cv.before leaf).toList := by
  have hword : ∀ word more : String, IsNameText word →
      StartsWithName (word ++ (" " ++ more)).toList := by
    intro word more hword
    rw [String.toList_append]
    exact hword.startsWithName.append_of_startsIn (by simp [StartsIn])
  obtain ⟨isConst, isVolatile⟩ := cv
  cases isConst <;> cases isVolatile
  · exact h
  · exact hword "volatile" leaf (by decide)
  · exact hword "const" leaf (by decide)
  · exact hword "const" ("volatile" ++ " " ++ leaf) (by decide)

/-- A name that is a word is spelled as it is. -/
theorem TypeName.startsWithName {name : TypeName} (h : ∀ text ∈ name.texts, IsNameText text) :
    StartsWithName (Style.qualified.spellName name).toList := by
  have hmem : name.qualifiedName ∈ name.texts := by
    rw [TypeName.qualifiedName, TypeName.texts]
    cases name.qualified <;> simp
  have hname := h name.qualifiedName hmem
  have hopen : ¬ (unnamedNamespace ++ "::").toList <:+: name.qualifiedName.toList := by
    intro hoccurs
    have hparen : '(' ∈ (unnamedNamespace ++ "::").toList := by decide
    exact absurd (hname.word.2 '(' (hoccurs.subset hparen)) (by decide)
  rw [Style.spellName, Style.spellScopes, Text.replaced, String.toList_ofList, Text.replaceAll,
    Text.replaceFrom_of_not_isInfix hopen]
  exact hname.startsWithName

namespace CType

theorem startsWithName_leaf (t : CType) (h : ∀ text ∈ t.texts, IsNameText text) :
    StartsWithName (t.leaf.spell .qualified).toList := by
  cases t with
  | pointer cv target | reference cv kind target =>
    rw [texts] at h
    exact startsWithName_leaf target h
  | array cv element size =>
    rw [texts, List.forall_mem_append] at h
    exact startsWithName_leaf element h.1
  | function cv result params isVariadic =>
    rw [texts, List.forall_mem_append] at h
    exact startsWithName_leaf result h.1
  | builtin cv type | spelled cv text =>
    rw [texts, List.forall_mem_singleton] at h
    simp only [leaf, spell, spellAround]
    exact cv.startsWithName_before h.startsWithName
  | named cv name =>
    rw [texts] at h
    simp only [leaf, spell, spellAround]
    exact cv.startsWithName_before (TypeName.startsWithName h)
  | template cv name arguments =>
    rw [texts, List.forall_mem_append] at h
    simp only [leaf, spell, spellAround]
    apply cv.startsWithName_before
    rw [String.toList_append]
    exact (TypeName.startsWithName h.1).append_of_startsIn (by simp [StartsIn, spellArguments])

/-- Types that are spelled from words only are legible, whatever their layers and arguments are. So
are readable types with plain names, and the builtin types of one word. -/
theorem isLegible_of_isNameText {t : CType} (h : ∀ text ∈ t.texts, IsNameText text) :
    t.IsLegible where
  texts text htext := (h text htext).word.isClosed
  leaf := t.startsWithName_leaf h

end CType

/-! ## Signatures -/

/-- A text that is empty, or a space and then a keyword of exception specifications. -/
def IsExceptionText (cs : List Char) : Prop :=
  cs = [] ∨ ∃ word ∈ ["noexcept".toList, "throw".toList], ∃ rest, cs = ' ' :: (word ++ rest) ∧
    ∀ c ∈ rest.head?, continuesName c = false

theorem IsExceptionText.stripScope {scope cs : List Char} (hscope : IsScopeText scope)
    (h : IsExceptionText cs) : IsExceptionText (stripScope scope cs) := by
  obtain rfl | ⟨word, hword, rest, rfl, hrest⟩ := h
  · exact .inl rfl
  · have hcolons : ∀ word ∈ ["noexcept".toList, "throw".toList],
        Text.occursIn "::".toList word = false := by decide
    have hkept : ClassEdit.stripScope scope word = word :=
      stripScopeFrom_of_not_isInfix (hscope.not_isInfix (hcolons word hword)) none
    rw [stripScope_cons hscope (by decide)]
    refine .inr ⟨word, hword, ?_⟩
    cases rest with
    | nil => exact ⟨[], by rw [List.append_nil, hkept], by simp⟩
    | cons c rest =>
      exact ⟨c :: ClassEdit.stripScope scope rest,
        by rw [stripScope_append_cons hscope (hrest c rfl), hkept], hrest⟩

namespace ShownSignature

/-- A signature with a name of characters of names, parameters with closed brackets that start with
names, and an exception specification that starts with its keyword. -/
structure IsPlain (s : ShownSignature) : Prop where
  name : ∀ c ∈ s.name, continuesName c = true
  params : ∀ x ∈ s.params, Text.IsClosed x ∧ StartsWithName x
  exception : IsExceptionText s.exception

namespace IsPlain

variable {s t : ShownSignature}

theorem isLegible (h : s.IsPlain) : s.IsLegible where
  params x hx := by
    obtain ⟨c, rest, rfl, hc⟩ := (h.params x hx).2.exists_cons
    refine ⟨c, rest, rfl, ?_, ?_⟩ <;> rintro rfl <;> exact absurd hc (by decide)
  exception := by
    obtain hnil | ⟨word, hword, rest, htext, -⟩ := h.exception
    · exact .inl hnil
    · have hstarts : ∀ word ∈ ["noexcept".toList, "throw".toList],
          ∃ c cs, word = c :: cs ∧ c ∉ ['c', '&'] := by
        simp
      obtain ⟨c, cs, rfl, hc⟩ := hstarts word hword
      exact .inr ⟨c, cs ++ rest, htext, hc⟩

/-- The parts of plain signatures are told apart. -/
theorem apart (hs : s.IsPlain) (ht : t.IsPlain) : s.Apart t where
  left := hs.isLegible
  right := ht.isLegible
  name := by
    have hopen : ∀ {s : ShownSignature}, s.IsPlain → '(' ∉ s.name :=
      fun hs hmem => absurd (hs.name '(' hmem) (by decide)
    exact separable_of_notMem (hopen hs) (hopen ht)
  params x hx y hy := (hs.params x hx).1.separable (ht.params y hy).1

/-- A plain signature is plain without the scope as well. -/
theorem strip {scope : List Char} (hscope : IsScopeText scope) (h : s.IsPlain) :
    (s.strip scope).IsPlain where
  name := h.name
  params x hx := by
    obtain ⟨y, hy, rfl⟩ := List.mem_map.1 hx
    obtain ⟨hclosed, hname⟩ := h.params y hy
    exact ⟨(Text.isClosed_stripScope_iff hscope).2 hclosed, hname.stripScope hscope⟩
  exception := h.exception.stripScope hscope

end IsPlain

end ShownSignature

end ClassEdit
