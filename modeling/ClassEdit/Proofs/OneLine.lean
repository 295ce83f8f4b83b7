import ClassEdit.Proofs.SpelledTexts
import ClassEdit.Proofs.StrippedScope
import ClassEdit.Reading.Spelling

/-!
# Texts on one line

A normal spelling is put together from words, and a word has no blanks. So spellings are on one
line whatever the layout of the text is. A type is spelled on one line if the texts in it are, and
deleting a scope from a text deletes no newline unless the scope has one.

## Main definitions

* `OnOneLine`: a text without newlines.
* `Text.lines`: the lines of a text whose last line is ended.

## Main statements

* `onOneLine_normalSpelling`, `onOneLine_operatorSpelling`: spellings are on one line.
* `keptBySpelling_onOneLine`: a type is, if its texts are.
* `mem_stripScope_iff`: what is deleted with a scope.
* `length_lines_endedLines_iff`, `lines_endedLines`: texts that are each ended by a newline.
-/

namespace ClassEdit

/-- The text has no newline. -/
def OnOneLine (text : String) : Prop :=
  '\n' ∉ text.toList

instance (text : String) : Decidable (OnOneLine text) :=
  inferInstanceAs (Decidable ('\n' ∉ text.toList))

variable {a b separator text : String}

@[simp] theorem onOneLine_append : OnOneLine (a ++ b) ↔ OnOneLine a ∧ OnOneLine b := by
  simp [OnOneLine, not_or]

theorem onOneLine_ofList {cs : List Char} : OnOneLine (String.ofList cs) ↔ '\n' ∉ cs := by
  simp [OnOneLine]

theorem notMem_intercalate_iff {c : Char} {mark : List Char} (hmark : c ∉ mark)
    {texts : List (List Char)} :
    c ∉ mark.intercalate texts ↔ ∀ text ∈ texts, c ∉ text := by
  induction texts with
  | nil => simp
  | cons text texts ih =>
    cases texts with
    | nil => simp
    | cons next texts =>
      rw [List.intercalate_cons_cons, List.mem_append, List.mem_append, not_or, not_or, ih,
        List.forall_mem_cons (a := text)]
      tauto

theorem onOneLine_intercalate (hseparator : OnOneLine separator) {texts : List String} :
    OnOneLine (separator.intercalate texts) ↔ ∀ text ∈ texts, OnOneLine text := by
  rw [OnOneLine, String.toList_intercalate, notMem_intercalate_iff hseparator]
  simp [OnOneLine]

theorem onOneLine_join {texts : List String} (h : ∀ text ∈ texts, OnOneLine text) :
    OnOneLine (String.join texts) := by
  simpa [OnOneLine] using h

theorem onOneLine_empty : OnOneLine "" := by decide

theorem onOneLine_map_getD {α : Type} {f : α → String} {o : Option α}
    (h : ∀ x ∈ o, OnOneLine (f x)) : OnOneLine ((o.map f).getD "") := by
  cases o with
  | none => exact onOneLine_empty
  | some x => exact h x rfl

/-! ## Spellings -/

namespace Text

variable {c : Char} {cs : List Char}

theorem mem_of_mem_replaceFrom {pattern replacement : List Char} {skip : Nat}
    (h : c ∈ replaceFrom pattern replacement skip cs) : c ∈ replacement ∨ c ∈ cs := by
  fun_induction replaceFrom pattern replacement skip cs with grind

theorem mem_of_mem_trim (h : c ∈ trim cs) : c ∈ cs := by
  have hend := (List.dropWhile_sublist isBlank).subset (List.mem_reverse.1 h)
  exact (List.dropWhile_sublist isBlank).subset (List.mem_reverse.1 hend)

/-- The parts between marks have no marks. -/
theorem eq_false_of_mem_parts {sep : Char → Bool} {part : List Char} (hpart : part ∈ parts sep cs)
    (hc : c ∈ part) : sep c = false := by
  induction cs generalizing part with
  | nil => simp_all [parts]
  | cons d ds ih =>
    rw [parts] at hpart
    split_ifs at hpart with hd
    · obtain rfl | hpart := List.mem_cons.1 hpart
      · cases hc
      · exact ih hpart hc
    · split at hpart
      next => simp_all
      next first rest hparts =>
        rw [hparts, List.forall_mem_cons] at ih
        grind

theorem isBlank_eq_false_of_mem_words {word : List Char} (hword : word ∈ words cs) (hc : c ∈ word) :
    isBlank c = false :=
  eq_false_of_mem_parts (List.mem_of_mem_filter hword) hc

theorem onOneLine_replaced {s pattern replacement : String} (hs : OnOneLine s)
    (hreplacement : OnOneLine replacement) : OnOneLine (replaced s pattern replacement) := by
  rw [replaced, onOneLine_ofList]
  intro h
  exact (mem_of_mem_replaceFrom h).elim hreplacement hs

theorem onOneLine_trimmed {s : String} (hs : OnOneLine s) : OnOneLine (trimmed s) := by
  rw [trimmed, onOneLine_ofList]
  exact fun h => hs (mem_of_mem_trim h)

theorem onOneLine_dropStart {start s : String} (hs : OnOneLine s) :
    OnOneLine (dropStart start s) := by
  rw [dropStart, afterStart?, stripStart?]
  split_ifs
  · rw [Option.map_some, Option.getD_some, onOneLine_ofList]
    exact fun h => hs (List.mem_of_mem_drop h)
  · exact hs

end Text

theorem onOneLine_singleSpaced (text : String) : OnOneLine (singleSpaced text) := by
  rw [singleSpaced, onOneLine_intercalate (by decide)]
  intro word hword
  obtain ⟨cs, hcs, rfl⟩ := List.mem_map.1 hword
  rw [onOneLine_ofList]
  intro h
  cases Text.isBlank_eq_false_of_mem_words hcs h

/-- Words are never apart by more than a space in a normal spelling. -/
theorem onOneLine_normalSpelling (text : String) : OnOneLine (normalSpelling text) := by
  have hrules : ∀ (rules : List (String × String)) (s : String),
      (∀ rule ∈ rules, OnOneLine rule.2) → OnOneLine s →
      OnOneLine (rules.foldl (fun s rule => Text.replaced s rule.1 rule.2) s) := by
    intro rules
    induction rules with
    | nil => exact fun s _ hs => hs
    | cons rule rules ih =>
      intro s hrules hs
      obtain ⟨hrule, hrules⟩ := List.forall_mem_cons.1 hrules
      exact ih _ hrules (Text.onOneLine_replaced hs hrule)
  exact hrules _ _ (by decide) (onOneLine_singleSpaced text)

theorem onOneLine_operatorSpelling (text : String) : OnOneLine (operatorSpelling text) := by
  simp only [operatorSpelling]
  split_ifs <;> refine onOneLine_append.2 ⟨by decide, ?_⟩
  · exact Text.onOneLine_replaced
      (Text.onOneLine_replaced (onOneLine_normalSpelling _) (by decide)) (by decide)
  · exact Text.onOneLine_replaced (onOneLine_normalSpelling _) (by decide)

theorem onOneLine_qualify {scope name : String} (hscope : OnOneLine scope)
    (hname : OnOneLine name) : OnOneLine (qualify scope name) := by
  rw [qualify]
  split_ifs
  · exact hname
  · exact onOneLine_append.2 ⟨onOneLine_append.2 ⟨hscope, by decide⟩, hname⟩

theorem Style.onOneLine_spellScopes (style : Style) {name : String} (h : OnOneLine name) :
    OnOneLine (style.spellScopes name) := by
  cases style with
  | written => exact h
  | qualified => exact Text.onOneLine_replaced h (by decide)

/-! ## Types -/

/-- Types are spelled on one line if the texts in them are on one line. -/
theorem keptBySpelling_onOneLine : KeptBySpelling OnOneLine where
  append ha hb := onOneLine_append.2 ⟨ha, hb⟩
  fixed := by decide
  brackets pair hpair entries hentries := by
    have hpairs : ∀ pair ∈ [("(", ")"), ("[", "]"), ("<", ">")],
        OnOneLine pair.1 ∧ OnOneLine pair.2 := by decide
    obtain ⟨hopening, hclosing⟩ := hpairs pair hpair
    rw [bracketed, onOneLine_append, onOneLine_append, onOneLine_intercalate (by decide)]
    exact ⟨⟨hopening, hentries⟩, hclosing⟩
  spellScopes style _ hname := style.onOneLine_spellScopes hname

/-- The texts that the type is spelled from have no newlines. -/
def CType.IsOnOneLine (t : CType) : Prop :=
  ∀ text ∈ t.texts, OnOneLine text

/-! ## Deleted scopes -/

theorem mem_stripScope_iff {scope cs : List Char} {c : Char} (hscope : c ∉ scope)
    (hne : scope ≠ []) : c ∈ stripScope scope cs ↔ c ∈ cs := by
  have hfilter : (stripScope scope cs).filter (· == c) = cs.filter (· == c) :=
    filter_stripScope (fun d hd => by simpa using ne_of_mem_of_not_mem hd hscope) hne
  have hmem : ∀ ds : List Char, c ∈ ds ↔ c ∈ ds.filter (· == c) := by simp
  rw [hmem, hfilter, ← hmem]

/-! ## Lines -/

namespace Text

/-- The lines of a text whose last line is ended. -/
def lines (cs : List Char) : List (List Char) :=
  (parts (· = '\n') cs).dropLast

theorem length_parts (sep : Char → Bool) (cs : List Char) :
    (parts sep cs).length = cs.countP sep + 1 := by
  induction cs with
  | nil => rfl
  | cons c cs ih =>
    rw [parts, List.countP_cons]
    split_ifs
    · rw [List.length_cons, ih]
    · split
      next hparts => simp [hparts] at ih
      next first rest hparts => simpa [hparts] using ih

theorem parts_append_cons {sep : Char → Bool} {xs : List Char} {c : Char}
    (hxs : ∀ x ∈ xs, sep x = false) (hc : sep c = true) (ys : List Char) :
    parts sep (xs ++ c :: ys) = xs :: parts sep ys := by
  induction xs with
  | nil => rw [List.nil_append, parts, if_pos hc]
  | cons x xs ih =>
    obtain ⟨hx, hxs⟩ := List.forall_mem_cons.1 hxs
    rw [List.cons_append, parts, if_neg (by simp [hx]), ih hxs]

end Text

/-- Some texts, each ended by a newline. -/
def endedLines (texts : List String) : String :=
  String.join (texts.map (· ++ "\n"))

theorem toList_endedLines (texts : List String) :
    (endedLines texts).toList = texts.flatMap fun text => text.toList ++ ['\n'] := by
  simp [endedLines, List.flatMap_map]

/-- There are as many lines as texts if and only if each text is on one line. -/
theorem length_lines_endedLines_iff {texts : List String} :
    (Text.lines (endedLines texts).toList).length = texts.length ↔
      ∀ text ∈ texts, OnOneLine text := by
  have hcount : (endedLines texts).toList.count '\n' =
      texts.length + (texts.flatMap String.toList).count '\n' := by
    rw [toList_endedLines]
    induction texts with
    | nil => rfl
    | cons text texts ih =>
      simp only [List.flatMap_cons, List.count_append, ih, List.length_cons,
        List.count_singleton_self]
      omega
  have hlines : (Text.lines (endedLines texts).toList).length =
      (endedLines texts).toList.count '\n' := by
    rw [Text.lines, List.length_dropLast, Text.length_parts, Nat.add_sub_cancel, List.count]
    rfl
  rw [hlines, hcount, Nat.add_eq_left, List.count_eq_zero]
  simp [OnOneLine]

/-- The lines are the texts if each text is on one line. -/
theorem lines_endedLines {texts : List String} (h : ∀ text ∈ texts, OnOneLine text) :
    Text.lines (endedLines texts).toList = texts.map String.toList := by
  have hparts : Text.parts (· = '\n') (endedLines texts).toList =
      texts.map String.toList ++ [[]] := by
    rw [toList_endedLines]
    induction texts with
    | nil => rfl
    | cons text texts ih =>
      obtain ⟨htext, h⟩ := List.forall_mem_cons.1 h
      rw [List.flatMap_cons, List.append_assoc, List.singleton_append, Text.parts_append_cons, ih h,
        List.map_cons, List.cons_append]
      · intro c hc
        simpa using fun heq : c = '\n' => htext (heq ▸ hc)
      · rfl
  rw [Text.lines, hparts, List.dropLast_concat]

end ClassEdit
