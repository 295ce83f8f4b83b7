import ClassEdit.Text.Blank
import ClassEdit.Text.Letter
import Mathlib.Data.List.SplitBy

/-!
# Lexemes

A spelling is read as lexemes: the maximal runs of the characters that make up words, and every
other character on its own unless it is a blank. Which characters make up words is a parameter, so
that `::` can be read as two marks or as part of a name. Texts are read one after the other wherever
they do not meet inside of a word.

## Main definitions

* `lexemes`: the lexemes of a text.
* `ReadsWords`: qualifiers are words, and the marks of a spelled type are not.

## Main statements

* `lexemes_append`: texts that do not meet inside of a word are read one after the other.
* `lexemes_word`, `lexemes_glued`: a word, and two words without anything between them.
* `ReadsWords.lexemes_spaced`, `ReadsWords.lexemes_listed`: entries with spaces, or with commas,
  between them.
-/

namespace ClassEdit.Text

/-- The maximal runs of characters that `joins` marks, and every other character that is no blank.
-/
def lexemes (joins : Char → Bool) (cs : List Char) : List (List Char) :=
  (cs.splitBy fun a b => joins a && joins b).filter fun run =>
    run.any fun c => joins c || !isBlank c

/-- Whether the text starts with a character of a word. -/
def startsWord (joins : Char → Bool) (cs : List Char) : Bool :=
  cs.head?.any joins

/-- Whether the text ends with a character of a word. -/
def endsWord (joins : Char → Bool) (cs : List Char) : Bool :=
  cs.getLast?.any joins

variable {joins : Char → Bool} {cs ds : List Char} {c : Char}

theorem startsWord_append (hcs : startsWord joins cs = false) (hds : startsWord joins ds = false) :
    startsWord joins (cs ++ ds) = false := by
  cases cs with
  | nil => exact hds
  | cons => exact hcs

@[simp] theorem lexemes_nil : lexemes joins [] = [] := rfl

/-- Texts that do not meet inside of a word are read one after the other. -/
theorem lexemes_append (h : endsWord joins cs = false ∨ startsWord joins ds = false) :
    lexemes joins (cs ++ ds) = lexemes joins cs ++ lexemes joins ds := by
  have hapart : ∀ x ∈ cs.getLast?, ∀ y ∈ ds.head?, (joins x && joins y) = false := by
    intro x hx y hy
    rw [Option.mem_def] at hx hy
    obtain h | h := h
    · rw [endsWord, hx, Option.any_some] at h
      rw [h, Bool.false_and]
    · rw [startsWord, hy, Option.any_some] at h
      rw [h, Bool.and_false]
  rw [lexemes, List.splitBy_append hapart, List.filter_append]
  rfl

/-- A run of characters of words is one lexeme. -/
theorem lexemes_word (hne : cs ≠ []) (hcs : ∀ c ∈ cs, joins c = true) :
    lexemes joins cs = [cs] := by
  have hchain : cs.IsChain fun a b => (joins a && joins b) = true :=
    (List.pairwise_of_forall_mem_list fun a ha b hb => by simp [hcs a ha, hcs b hb]).isChain
  obtain ⟨c, hc⟩ := List.exists_mem_of_ne_nil cs hne
  have hkept : (cs.any fun c => joins c || !isBlank c) = true :=
    List.any_eq_true.2 ⟨c, hc, by simp [hcs c hc]⟩
  rw [lexemes, List.splitBy_of_isChain hne hchain, List.filter_singleton, hkept, cond_true]

theorem lexemes_word_append (hne : cs ≠ []) (hcs : ∀ c ∈ cs, joins c = true)
    (hds : startsWord joins ds = false) :
    lexemes joins (cs ++ ds) = cs :: lexemes joins ds := by
  rw [lexemes_append (.inr hds), lexemes_word hne hcs]
  rfl

/-- A character that belongs to no word stands for itself, or for nothing if it is a blank. -/
theorem lexemes_cons (hc : joins c = false) (cs : List Char) :
    lexemes joins (c :: cs) = if isBlank c then lexemes joins cs else [c] :: lexemes joins cs := by
  have hsingle : lexemes joins [c] = if isBlank c then [] else [[c]] := by
    have hsplit : [c].splitBy (fun a b => joins a && joins b) = [[c]] :=
      List.splitBy_of_isChain (List.cons_ne_nil c []) (List.isChain_singleton c)
    rw [lexemes, hsplit]
    cases hblank : isBlank c <;> simp [hc, hblank]
  have happend : lexemes joins ([c] ++ cs) = lexemes joins [c] ++ lexemes joins cs :=
    lexemes_append (.inl (by simp [endsWord, hc]))
  rw [List.singleton_append, hsingle] at happend
  rw [happend]
  split <;> rfl

theorem lexemes_append_cons (hc : joins c = false) (cs ds : List Char) :
    lexemes joins (cs ++ c :: ds) = lexemes joins cs ++ lexemes joins (c :: ds) :=
  lexemes_append (.inr (by simp [startsWord, hc]))

/-- Two words without anything between them are read as one. -/
theorem lexemes_glued {word next : List Char} (hword : ∀ c ∈ word, joins c = true)
    (hnext : ∀ c ∈ next, joins c = true) (hne : next ≠ []) (hcs : endsWord joins cs = false)
    (hds : startsWord joins ds = false) :
    lexemes joins (cs ++ word ++ (next ++ ds)) =
      lexemes joins cs ++ (word ++ next) :: lexemes joins ds := by
  have hboth : lexemes joins (word ++ next) = [word ++ next] :=
    lexemes_word (List.append_ne_nil_of_right_ne_nil word hne)
      (List.forall_mem_append.2 ⟨hword, hnext⟩)
  have hassoc : cs ++ word ++ (next ++ ds) = cs ++ ((word ++ next) ++ ds) := by simp
  rw [hassoc, lexemes_append (.inl hcs), lexemes_append (.inr hds), hboth]
  rfl

/-! ## The marks of a spelled type -/

/-- The marks of a spelled type. -/
def typeMarks : List Char :=
  ['*', '&', '(', ')', '[', ']', '<', '>', ',', '.']

/-- The keywords of the qualifiers are made up of characters of words, and neither the space nor
the marks of a spelled type belong to words. -/
structure ReadsWords (joins : Char → Bool) : Prop where
  qualifier : ∀ c ∈ "constvolatile".toList, joins c = true
  space : joins ' ' = false
  mark : ∀ c ∈ typeMarks, joins c = false

theorem isBlank_of_mem_typeMarks : ∀ c ∈ typeMarks, isBlank c = false :=
  fun c hc => Bool.eq_false_iff.2 (List.any_eq_false.1 (by decide) c hc)

theorem readsWords_isNameChar : ReadsWords isNameChar where
  qualifier := List.all_eq_true.1 (by decide)
  space := rfl
  mark c hc := Bool.eq_false_iff.2 (List.any_eq_false.1 (by decide) c hc)

namespace ReadsWords

variable (hjoins : ReadsWords joins)

include hjoins

theorem lexemes_mark (hc : c ∈ typeMarks) (cs : List Char) :
    lexemes joins (c :: cs) = [c] :: lexemes joins cs := by
  rw [lexemes_cons (hjoins.mark c hc), isBlank_of_mem_typeMarks c hc]
  rfl

theorem lexemes_space (cs : List Char) : lexemes joins (' ' :: cs) = lexemes joins cs := by
  rw [lexemes_cons hjoins.space]
  rfl

theorem lexemes_append_mark (hc : c ∈ typeMarks) (cs ds : List Char) :
    lexemes joins (cs ++ c :: ds) = lexemes joins cs ++ [c] :: lexemes joins ds := by
  rw [lexemes_append_cons (hjoins.mark c hc), hjoins.lexemes_mark hc]

theorem lexemes_append_space (cs ds : List Char) :
    lexemes joins (cs ++ ' ' :: ds) = lexemes joins cs ++ lexemes joins ds := by
  rw [lexemes_append_cons hjoins.space, hjoins.lexemes_space]

/-- Entries with spaces between them are read one after the other. -/
theorem lexemes_spaced (entries : List String) :
    lexemes joins (" ".intercalate entries).toList =
      entries.flatMap fun entry => lexemes joins entry.toList := by
  induction entries with
  | nil => simp
  | cons entry entries ih =>
    cases entries with
    | nil => simp
    | cons next entries =>
      have hsplit : (" ".intercalate (entry :: next :: entries)).toList =
          entry.toList ++ ' ' :: (" ".intercalate (next :: entries)).toList := by
        simp [String.intercalate_cons_cons]
      rw [hsplit, hjoins.lexemes_append_space, ih]
      rfl

/-- Entries with commas between them are read with the commas between them. -/
theorem lexemes_listed (entries : List String) :
    lexemes joins (", ".intercalate entries).toList =
      [[',']].intercalate (entries.map fun entry => lexemes joins entry.toList) := by
  induction entries with
  | nil => simp
  | cons entry entries ih =>
    cases entries with
    | nil => simp
    | cons next entries =>
      have hsplit : (", ".intercalate (entry :: next :: entries)).toList =
          entry.toList ++ ',' :: ' ' :: (", ".intercalate (next :: entries)).toList := by
        simp [String.intercalate_cons_cons]
      rw [hsplit, hjoins.lexemes_append_mark (by decide), hjoins.lexemes_space, ih]
      simp [List.intercalate_cons_cons]

end ReadsWords

end ClassEdit.Text
