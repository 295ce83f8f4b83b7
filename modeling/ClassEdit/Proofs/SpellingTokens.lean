import ClassEdit.Proofs.OneLine
import ClassEdit.Proofs.ScopeNames
import ClassEdit.Proofs.SignatureRendering

/-!
# The tokens of a normal spelling

In a normal spelling some words of a text stand without a space between them. Their tokens stay the
same unless the first word ends in a colon that is no half of a `::` and the second one starts with
a colon: `: ::` becomes `:::`, which is read as `::` and `:`.

## Main definitions

* `Text.joined`: words with a space between any two of them that are not glued.
* `Text.glues`: two words stand without a space between them in a normal spelling.
* `Text.tokens`: the tokens of a text, each one as long as it can be.
* `Text.TakesColon`: a word takes a colon of the next one in a normal spelling.

## Main statements

* `Text.tokens_append`: texts that do not meet inside of a token are read one after the other.
* `Text.tokens_eq_flatMap_words`: the tokens of a text are those of its words.
* `toList_normalSpelling`: which words have a space between them in a normal spelling.
* `tokens_normalSpelling_iff`: a normal spelling has the tokens of the text if and only if no word
  takes a colon of the next one.
-/

namespace ClassEdit

namespace Text

variable {c d : Char} {cs u v : List Char} {ws : List (List Char)}

/-! ## Words with and without a space between them -/

/-- The text of some words that follow the word `u`. -/
def joinedAfter (glued : List Char → List Char → Bool) : List Char → List (List Char) → List Char
  | _, [] => []
  | u, v :: ws => (if glued u v then v else ' ' :: v) ++ joinedAfter glued v ws

/-- Words with a space between any two of them that are not `glued`. -/
def joined (glued : List Char → List Char → Bool) : List (List Char) → List Char
  | [] => []
  | u :: ws => u ++ joinedAfter glued u ws

/-- A word of a text: it is not empty and has no blanks. -/
structure IsNonblank (word : List Char) : Prop where
  ne_nil : word ≠ []
  not_blank : ∀ c ∈ word, isBlank c = false

theorem isNonblank_of_mem_words (h : u ∈ words cs) : IsNonblank u where
  ne_nil := by simpa using (List.mem_filter.1 h).2
  not_blank _ hc := isBlank_eq_false_of_mem_words h hc

theorem IsNonblank.space_notMem (h : IsNonblank u) : ' ' ∉ u :=
  fun hspace => Bool.noConfusion (h.not_blank ' ' hspace)

theorem toList_intercalate_space (ws : List (List Char)) :
    (" ".intercalate (ws.map String.ofList)).toList = joined (fun _ _ => false) ws := by
  have hafter : ∀ (u : List Char) (ws : List (List Char)),
      (" ".intercalate ((u :: ws).map String.ofList)).toList =
        u ++ joinedAfter (fun _ _ => false) u ws := by
    intro u ws
    induction ws generalizing u with
    | nil => simp [joinedAfter]
    | cons v ws ih =>
      have hrest := ih v
      rw [List.map_cons] at hrest
      simp [String.intercalate_cons_cons, joinedAfter, hrest]
  cases ws with
  | nil => rfl
  | cons u ws => exact hafter u ws

/-! ## Rules that delete a space -/

variable {glued : List Char → List Char → Bool} {mark : List Char}

/-- A mark does not go on from a word into the ones that follow. -/
theorem isPrefixOf_append_joinedAfter (hmark : ' ' ∉ mark)
    (hglued : ∀ w, glued v w = true → mark.length ≤ v.length) :
    mark.isPrefixOf (v ++ joinedAfter glued v ws) = mark.isPrefixOf v := by
  rw [Bool.eq_iff_iff, List.isPrefixOf_iff_prefix, List.isPrefixOf_iff_prefix]
  refine ⟨fun h => ?_, fun h => h.trans (List.prefix_append _ _)⟩
  rcases Nat.lt_or_ge v.length mark.length with hlt | hle
  · -- The mark would go on past the word, where a space stands or nothing.
    obtain ⟨rest, rfl⟩ := List.prefix_of_prefix_length_le (List.prefix_append v _) h hlt.le
    rw [List.prefix_append_right_inj] at h
    cases ws with
    | nil => simp_all [joinedAfter]
    | cons w ws =>
      have hw : glued v w = false := by grind
      cases rest with
      | nil => simp
      | cons d rest => simp_all [joinedAfter]
  · exact List.prefix_of_prefix_length_le h (List.prefix_append v _) hle

theorem replaceFrom_space_mark (hmark : ' ' ∉ mark) (hws : ∀ w ∈ ws, ' ' ∉ w)
    (hglued : ∀ v ∈ ws, ∀ w, glued v w = true → mark.length ≤ v.length) (u : List Char) :
    replaceFrom (' ' :: mark) mark 0 (joinedAfter glued u ws) =
      joinedAfter (fun u v => glued u v || mark.isPrefixOf v) u ws := by
  induction ws generalizing u with
  | nil => rfl
  | cons v ws ih =>
    obtain ⟨hv, hws⟩ := List.forall_mem_cons.1 hws
    obtain ⟨hlength, hglued⟩ := List.forall_mem_cons.1 hglued
    have hrest : ∀ part, ' ' ∉ part →
        replaceFrom (' ' :: mark) mark 0 (part ++ joinedAfter glued v ws) =
          part ++ joinedAfter (fun u v => glued u v || mark.isPrefixOf v) v ws := by
      intro part hpart
      rw [replaceFrom_append_of_notMem rfl hpart, ih hws hglued]
    rw [joinedAfter, joinedAfter]
    by_cases hg : glued u v = true
    · simpa [hg] using hrest v hv
    by_cases hstart : mark <+: v
    · obtain ⟨rest, rfl⟩ := hstart
      have hfirst : replaceFrom (' ' :: mark) mark 0
          (' ' :: mark ++ (rest ++ joinedAfter glued (mark ++ rest) ws)) =
            mark ++ replaceFrom (' ' :: mark) mark 0
              (rest ++ joinedAfter glued (mark ++ rest) ws) :=
        replaceFrom_pattern_append (List.cons_ne_nil ' ' mark) _
      rw [hrest rest fun h => hv (List.mem_append_right mark h)] at hfirst
      simpa [hg] using hfirst
    · have hno : mark.isPrefixOf v = false := by
        simpa [Bool.eq_false_iff, List.isPrefixOf_iff_prefix] using hstart
      have hkept : mark.isPrefixOf (v ++ joinedAfter glued v ws) = false := by
        rw [isPrefixOf_append_joinedAfter hmark hlength, hno]
      simp [hg, hno, replaceFrom, hkept, hrest v hv]

theorem eq_of_append_space_eq {rest rest' : List Char} (hu : ' ' ∉ u) (hv : ' ' ∉ v)
    (h : u ++ ' ' :: rest = v ++ ' ' :: rest') : u = v := by
  rcases List.append_eq_append_iff.1 h with ⟨part, rfl, hpart⟩ | ⟨part, rfl, hpart⟩ <;>
    cases part <;> simp_all

/-- The first space of a text, with the word that ends in front of it. -/
theorem replaceFrom_mark_space_append (hne : mark ≠ []) (hmark : ' ' ∉ mark) (hu : ' ' ∉ u)
    (rest : List Char) :
    replaceFrom (mark ++ [' ']) mark 0 (u ++ ' ' :: rest) =
      (if mark.isSuffixOf u then u else u ++ [' ']) ++
        replaceFrom (mark ++ [' ']) mark 0 rest := by
  induction u with
  | nil =>
    obtain ⟨d, mark, rfl⟩ := List.exists_cons_of_ne_nil hne
    have hd : d ≠ ' ' := by grind
    simp [replaceFrom, hd]
  | cons c u ih =>
    by_cases hwhole : mark = c :: u
    · subst hwhole
      have hfirst : replaceFrom (c :: u ++ [' ']) (c :: u) 0 (c :: u ++ [' '] ++ rest) =
          c :: u ++ replaceFrom (c :: u ++ [' ']) (c :: u) 0 rest :=
        replaceFrom_pattern_append (by simp) rest
      simpa using hfirst
    · have hno : (mark ++ [' ']).isPrefixOf (c :: (u ++ ' ' :: rest)) = false := by
        rw [Bool.eq_false_iff, Ne, List.isPrefixOf_iff_prefix]
        rintro ⟨tail, htail⟩
        apply hwhole
        exact eq_of_append_space_eq hmark hu (by simpa using htail)
      have hsuffix : mark.isSuffixOf (c :: u) = mark.isSuffixOf u := by
        rw [Bool.eq_iff_iff, List.isSuffixOf_iff_suffix, List.isSuffixOf_iff_suffix,
          List.suffix_cons_iff, or_iff_right hwhole]
      rw [List.cons_append, replaceFrom, if_neg (by simp [hno]), hsuffix, ih (by grind)]
      split <;> rfl

theorem replaceFrom_mark_space (hne : mark ≠ []) (hmark : ' ' ∉ mark) (hws : ∀ w ∈ ws, ' ' ∉ w)
    (hglued : ∀ w ∈ ws, ∀ v, glued v w = true → mark.length ≤ w.length) (hu : ' ' ∉ u) :
    replaceFrom (mark ++ [' ']) mark 0 (u ++ joinedAfter glued u ws) =
      u ++ joinedAfter (fun u v => glued u v || mark.isSuffixOf u) u ws := by
  -- The words without a space in front of `u` end in the mark if and only if `u` does.
  suffices h : ∀ front, ' ' ∉ front → (mark <:+ front ++ u → mark <:+ u) →
      replaceFrom (mark ++ [' ']) mark 0 (front ++ u ++ joinedAfter glued u ws) =
        front ++ u ++ joinedAfter (fun u v => glued u v || mark.isSuffixOf u) u ws by
    exact h [] List.not_mem_nil id
  induction ws generalizing u with
  | nil =>
    intro front hfront _
    have hspace : ' ' ∉ front ++ u := by grind
    have hno : ¬ mark ++ [' '] <:+: front ++ u := by
      intro hoccurs
      exact hspace (hoccurs.subset (by simp))
    simp only [joinedAfter, List.append_nil]
    exact replaceFrom_of_not_isInfix hno
  | cons v ws ih =>
    obtain ⟨hv, hws⟩ := List.forall_mem_cons.1 hws
    obtain ⟨hlength, hglued⟩ := List.forall_mem_cons.1 hglued
    intro front hfront hsuffix
    rw [joinedAfter, joinedAfter]
    by_cases hg : glued u v = true
    · have hlast : mark <:+ front ++ u ++ v → mark <:+ v := fun h =>
        List.suffix_of_suffix_length_le h (List.suffix_append _ v) (hlength u hg)
      have hrest := ih hws hglued hv (front ++ u) (by grind) hlast
      simpa [hg] using hrest
    · have hrest := ih hws hglued hv [] List.not_mem_nil id
      rw [List.nil_append] at hrest
      have hends : mark.isSuffixOf (front ++ u) = mark.isSuffixOf u := by
        rw [Bool.eq_iff_iff, List.isSuffixOf_iff_suffix, List.isSuffixOf_iff_suffix]
        exact ⟨hsuffix, fun h => h.trans (List.suffix_append front u)⟩
      have hgap := replaceFrom_mark_space_append hne hmark (by grind : ' ' ∉ front ++ u)
        (v ++ joinedAfter glued v ws)
      rw [hends, hrest] at hgap
      rw [if_neg hg, List.cons_append, hgap]
      by_cases hmarked : mark.isSuffixOf u = true <;> simp [hg, hmarked]

/-! ## The spaces of a normal spelling -/

variable {s : String}

/-- A rule that deletes the space in front of a mark. -/
theorem toList_replaced_before (pattern m : String) (hs : s.toList = joined glued ws)
    (hws : ∀ w ∈ ws, IsNonblank w) (hpattern : pattern.toList = ' ' :: m.toList)
    (hspace : ' ' ∉ m.toList)
    (hglued : ∀ v ∈ ws, ∀ w, glued v w = true → m.toList.length ≤ v.length) :
    (replaced s pattern m).toList =
      joined (fun u v => glued u v || m.toList.isPrefixOf v) ws := by
  rw [replaced, String.toList_ofList, replaceAll, hpattern, hs]
  cases ws with
  | nil => rfl
  | cons u ws =>
    obtain ⟨hu, hws⟩ := List.forall_mem_cons.1 hws
    rw [joined, joined, replaceFrom_append_of_notMem rfl hu.space_notMem,
      replaceFrom_space_mark hspace (fun w hw => (hws w hw).space_notMem)
        (List.forall_mem_cons.1 hglued).2]

/-- A rule that deletes the space behind a mark. -/
theorem toList_replaced_after (pattern m : String) (hs : s.toList = joined glued ws)
    (hws : ∀ w ∈ ws, IsNonblank w) (hpattern : pattern.toList = m.toList ++ [' '])
    (hne : m.toList ≠ []) (hspace : ' ' ∉ m.toList)
    (hglued : ∀ w ∈ ws, ∀ v, glued v w = true → m.toList.length ≤ w.length) :
    (replaced s pattern m).toList =
      joined (fun u v => glued u v || m.toList.isSuffixOf u) ws := by
  rw [replaced, String.toList_ofList, replaceAll, hpattern, hs]
  cases ws with
  | nil => rfl
  | cons u ws =>
    obtain ⟨hu, hws⟩ := List.forall_mem_cons.1 hws
    exact replaceFrom_mark_space hne hspace (fun w hw => (hws w hw).space_notMem)
      (List.forall_mem_cons.1 hglued).2 hu.space_notMem

/-- Whether two words stand without a space between them in a normal spelling. -/
def glues (u v : List Char) : Bool :=
  "::".toList.isPrefixOf v || "::".toList.isSuffixOf u || "<".toList.isSuffixOf u ||
    ">".toList.isPrefixOf v || "<".toList.isPrefixOf v || ",".toList.isPrefixOf v

/-! ## Tokens -/

/-- The tokens of a text, each one as long as it can be: a `::`, a run of characters of names, or
any other character that is no blank. -/
def tokens : List Char → List (List Char)
  | [] => []
  | [c] => if isBlank c then [] else [[c]]
  | c :: d :: cs =>
    if isBlank c then tokens (d :: cs)
    else if c = ':' ∧ d = ':' then [c, d] :: tokens cs
    else if isNameChar c && isNameChar d then (tokens (d :: cs)).modifyHead (c :: ·)
    else [c] :: tokens (d :: cs)

theorem inRanges_eq_false_of_apart {xs ys : List (Nat × Nat)} {n : Nat}
    (h : (xs.all fun x => ys.all fun y => decide (x.2 < y.1) || decide (y.2 < x.1)) = true)
    (hn : inRanges xs n = true) : inRanges ys n = false := by
  rw [Bool.eq_false_iff, Ne, inRanges_iff]
  rintro ⟨y, hy, hyn⟩
  obtain ⟨x, hx, hxn⟩ := inRanges_iff.1 hn
  have hxy := List.all_eq_true.1 (List.all_eq_true.1 h x hx) y hy
  grind

/-- No blank stands inside of a name. -/
theorem isNameChar_of_isBlank (h : isBlank c = true) : isNameChar c = false := by
  rw [isBlank] at h
  split_ifs at h with hascii
  · have hcode : c.toNat = 9 ∨ c.toNat = 10 ∨ c.toNat = 11 ∨ c.toNat = 12 ∨ c.toNat = 13 ∨
        c.toNat = 32 := by grind
    rw [← Char.ofNat_toNat c]
    rcases hcode with hc | hc | hc | hc | hc | hc <;> rw [hc] <;> rfl
  · have hletter : inRanges letterRanges c.toNat = false :=
      inRanges_eq_false_of_apart (by decide +kernel) h
    have hnumeral : inRanges numeralRanges c.toNat = false :=
      inRanges_eq_false_of_apart (by decide +kernel) h
    have hunderscore : c ≠ '_' := by
      rintro rfl
      exact hascii (by decide)
    rw [isNameChar, isLetterOrNumeral, if_neg hascii, hletter, hnumeral,
      beq_eq_false_iff_ne.2 hunderscore]
    rfl

theorem isBlank_of_isNameChar (h : isNameChar c = true) : isBlank c = false := by
  rw [Bool.eq_false_iff]
  intro hblank
  rw [isNameChar_of_isBlank hblank] at h
  exact Bool.noConfusion h

/-- The number of colons at the end of a text. -/
def endColons (cs : List Char) : Nat :=
  (cs.reverse.takeWhile (· == ':')).length

/-- The text ends in a colon that is no half of a `::`. -/
def EndsInLoneColon (cs : List Char) : Prop :=
  endColons cs % 2 = 1

instance (cs : List Char) : Decidable (EndsInLoneColon cs) :=
  inferInstanceAs (Decidable (endColons cs % 2 = 1))

theorem endColons_append_colon (cs : List Char) : endColons (cs ++ [':']) = endColons cs + 1 := by
  simp [endColons]

theorem endColons_cons (c : Char) (cs : List Char) : endColons (c :: cs) =
    if c = ':' ∧ cs.all (· == ':') then endColons cs + 1 else endColons cs := by
  have hall : (cs.reverse.takeWhile (· == ':')).length = cs.reverse.length ↔
      cs.all (· == ':') = true := by
    rw [← List.all_reverse, List.all_eq_true, ← List.takeWhile_eq_self_iff,
      (List.takeWhile_sublist _).length_eq]
  rw [endColons, List.reverse_cons, List.takeWhile_append, endColons]
  by_cases hc : c = ':' <;> grind [List.takeWhile_cons, List.takeWhile_nil]

theorem endsInLoneColon_colons : EndsInLoneColon (':' :: ':' :: cs) ↔ EndsInLoneColon cs := by
  simp only [EndsInLoneColon, endColons_cons]
  grind

theorem endsInLoneColon_cons_cons (h : ¬ (c = ':' ∧ d = ':')) :
    EndsInLoneColon (c :: d :: cs) ↔ EndsInLoneColon (d :: cs) := by
  rw [EndsInLoneColon, endColons_cons, if_neg (by grind), EndsInLoneColon]

/-- A colon at the end that is no half of a `::` can be taken away. -/
theorem EndsInLoneColon.exists_append (h : EndsInLoneColon u) :
    ∃ start, u = start ++ [':'] ∧ ¬ EndsInLoneColon start := by
  rw [EndsInLoneColon] at h
  rcases List.eq_nil_or_concat u with rfl | ⟨start, c, rfl⟩
  · cases h
  · rw [List.concat_eq_append] at h ⊢
    obtain rfl : c = ':' := by
      apply Decidable.byContradiction
      intro hc
      simp [endColons, hc] at h
    rw [endColons_append_colon] at h
    exact ⟨start, rfl, by rw [EndsInLoneColon]; omega⟩

/-- The texts do not meet inside of a token. -/
structure MeetBetweenTokens (u v : List Char) : Prop where
  name : ∀ c ∈ u.getLast?, ∀ d ∈ v.head?, (isNameChar c && isNameChar d) = false
  colon : EndsInLoneColon u → v.head? ≠ some ':'

theorem MeetBetweenTokens.of_colons (h : MeetBetweenTokens (':' :: ':' :: cs) v) :
    MeetBetweenTokens cs v where
  name c hc := h.name c (by cases cs <;> simp_all)
  colon hcs := h.colon (endsInLoneColon_colons.2 hcs)

theorem MeetBetweenTokens.of_cons (hcolons : ¬ (c = ':' ∧ d = ':'))
    (h : MeetBetweenTokens (c :: d :: cs) v) : MeetBetweenTokens (d :: cs) v where
  name e he := h.name e (by simpa using he)
  colon hcs := h.colon ((endsInLoneColon_cons_cons hcolons).2 hcs)

theorem tokens_blank_cons (hc : isBlank c = true) (cs : List Char) :
    tokens (c :: cs) = tokens cs := by
  cases cs <;> simp [tokens, hc]

theorem exists_tokens_cons (hc : isBlank c = false) (cs : List Char) :
    ∃ token rest, tokens (c :: cs) = token :: rest := by
  induction cs generalizing c with
  | nil => simp [tokens, hc]
  | cons d cs ih =>
    rw [tokens, if_neg (by simp [hc])]
    split_ifs with hcolons hname
    · exact ⟨_, _, rfl⟩
    · obtain ⟨token, rest, hrest⟩ := ih (isBlank_of_isNameChar (Bool.and_eq_true_iff.1 hname).2)
      exact ⟨c :: token, rest, by rw [hrest]; rfl⟩
    · exact ⟨_, _, rfl⟩

/-- Texts that do not meet inside of a token are read one after the other. -/
theorem tokens_append (h : MeetBetweenTokens u v) : tokens (u ++ v) = tokens u ++ tokens v := by
  fun_induction tokens u with
  | case1 => rfl
  | case2 c hc => exact tokens_blank_cons hc v
  | case3 c hc =>
    cases v with
    | nil => simp [tokens, hc]
    | cons d v =>
      have hname : ¬ (isNameChar c && isNameChar d) = true := by
        simpa using h.name c rfl d rfl
      have hcolons : ¬ (c = ':' ∧ d = ':') := by
        rintro ⟨rfl, rfl⟩
        exact h.colon (by decide) rfl
      rw [List.singleton_append, tokens, if_neg hc, if_neg hcolons, if_neg hname]
      rfl
  | case4 c d cs hc ih =>
    have hcolons : ¬ (c = ':' ∧ d = ':') := by
      rintro ⟨rfl, -⟩
      exact Bool.noConfusion hc
    rw [List.cons_append, tokens_blank_cons hc, ih (h.of_cons hcolons)]
  | case5 c d cs hc hcolons ih =>
    obtain ⟨rfl, rfl⟩ := hcolons
    rw [List.cons_append, List.cons_append, tokens, if_neg hc, if_pos ⟨rfl, rfl⟩,
      ih h.of_colons]
    rfl
  | case6 c d cs hc hcolons hname ih =>
    have hd := isBlank_of_isNameChar (Bool.and_eq_true_iff.1 hname).2
    obtain ⟨token, rest, htokens⟩ := exists_tokens_cons hd cs
    rw [List.cons_append, List.cons_append, tokens, if_neg hc, if_neg hcolons, if_pos hname,
      ← List.cons_append, ih (h.of_cons hcolons), htokens]
    rfl
  | case7 c d cs hc hcolons hname ih =>
    rw [List.cons_append, List.cons_append, tokens, if_neg hc, if_neg hcolons, if_neg hname,
      ← List.cons_append, ih (h.of_cons hcolons)]
    rfl

example : tokens "a::b1 : ::c:::d".toList =
    ["a", "::", "b1", ":", "::", "c", "::", ":", "d"].map String.toList := by decide

theorem MeetBetweenTokens.of_head (hname : isNameChar c = false)
    (hcolon : EndsInLoneColon u → c ≠ ':') (cs : List Char) : MeetBetweenTokens u (c :: cs) where
  name e _ d hd := by
    obtain rfl : c = d := Option.some.inj hd
    rw [hname, Bool.and_false]
  colon hu := by simpa using hcolon hu

theorem tokens_append_blank (hc : isBlank c = true) (u cs : List Char) :
    tokens (u ++ c :: cs) = tokens u ++ tokens cs := by
  have hcolon : c ≠ ':' := by
    rintro rfl
    exact Bool.noConfusion hc
  rw [tokens_append (.of_head (isNameChar_of_isBlank hc) (fun _ => hcolon) cs),
    tokens_blank_cons hc]

theorem parts_of_forall {sep : Char → Bool} (h : ∀ c ∈ cs, sep c = false) :
    parts sep cs = [cs] := by
  induction cs with
  | nil => rfl
  | cons c cs ih =>
    obtain ⟨hc, hcs⟩ := List.forall_mem_cons.1 h
    rw [parts, if_neg (by simp [hc]), ih hcs]

theorem flatMap_tokens_words (cs : List Char) :
    (words cs).flatMap tokens = (parts isBlank cs).flatMap tokens := by
  rw [words]
  induction parts isBlank cs with
  | nil => rfl
  | cons part rest ih => cases part <;> simp_all [tokens]

/-- The tokens of a text are those of its words. -/
theorem tokens_eq_flatMap_words (cs : List Char) : tokens cs = (words cs).flatMap tokens := by
  rw [flatMap_tokens_words]
  induction cs using parts_induction isBlank with
  | last word hword => simp [parts_of_forall hword]
  | next word c rest hword hc ih =>
    rw [tokens_append_blank hc, parts_append_cons hword hc, List.flatMap_cons, ih]

/-! ## The tokens of a normal spelling -/

/-- The colon at the end of the word `u` is read together with the first one of the word `v` in a
normal spelling. -/
def TakesColon (u v : List Char) : Prop :=
  EndsInLoneColon u ∧ v.head? = some ':' ∧ ("::".toList <+: v ∨ "::".toList <:+ u)

instance (u v : List Char) : Decidable (TakesColon u v) :=
  inferInstanceAs (Decidable (_ ∧ _ ∧ _))

theorem glues_iff : glues u v = true ↔
    "::".toList <+: v ∨ "::".toList <:+ u ∨ "<".toList <:+ u ∨ ">".toList <+: v ∨
      "<".toList <+: v ∨ ",".toList <+: v := by
  simp only [glues, Bool.or_eq_true, List.isPrefixOf_iff_prefix, List.isSuffixOf_iff_suffix,
    or_assoc]

theorem TakesColon.glues (h : TakesColon u v) : glues u v = true := by
  rw [glues_iff]
  exact h.2.2.elim .inl fun hends => .inr (.inl hends)

theorem isNameChar_of_glues (h : glues u v = true) (hc : u.getLast? = some c)
    (hd : v.head? = some d) : (isNameChar c && isNameChar d) = false := by
  have hmarks : isNameChar ':' = false ∧ isNameChar '<' = false ∧ isNameChar '>' = false ∧
      isNameChar ',' = false := by decide
  rcases glues_iff.1 h with ⟨rest, rfl⟩ | ⟨start, rfl⟩ | ⟨start, rfl⟩ | ⟨rest, rfl⟩ | ⟨rest, rfl⟩ |
    ⟨rest, rfl⟩ <;> simp at hc hd <;> grind

/-- Words without a space between them meet inside of a token only if the first one takes a
colon. -/
theorem meetBetweenTokens_of_glues (hglues : glues u v = true) (h : ¬ TakesColon u v)
    (hv : v ≠ []) (cs : List Char) : MeetBetweenTokens u (v ++ cs) := by
  have hhead : (v ++ cs).head? = v.head? := List.head?_append_of_ne_nil v hv
  refine ⟨fun c hc d hd => isNameChar_of_glues hglues hc (hhead ▸ hd), fun hu hd => h ?_⟩
  rw [hhead] at hd
  obtain ⟨start, rfl, -⟩ := hu.exists_append
  obtain ⟨rest, rfl⟩ := List.head?_eq_some_iff.1 hd
  refine ⟨hu, hd, ?_⟩
  simpa [glues_iff] using hglues

/-- A word that takes a colon is not read for itself. -/
theorem TakesColon.tokens_append_ne (h : TakesColon u v) (cs : List Char)
    (rest : List (List Char)) : tokens (u ++ (v ++ cs)) ≠ tokens u ++ rest := by
  obtain ⟨hu, hv, -⟩ := h
  obtain ⟨start, rfl, hstart⟩ := hu.exists_append
  obtain ⟨v, rfl⟩ := List.head?_eq_some_iff.1 hv
  have hmeet : ∀ tail, MeetBetweenTokens start (':' :: tail) :=
    .of_head rfl fun h => absurd h hstart
  have hboth : tokens (start ++ ':' :: ':' :: (v ++ cs)) =
      tokens start ++ [':', ':'] :: tokens (v ++ cs) := tokens_append (hmeet _)
  have hone : tokens (start ++ [':']) = tokens start ++ [[':']] := tokens_append (hmeet _)
  simp [hboth, hone]

/-- The words that follow the word `u` are read for themselves if and only if no word takes a
colon. -/
theorem tokens_append_joinedAfter_iff (hws : ∀ w ∈ ws, IsNonblank w) (u : List Char) :
    tokens (u ++ joinedAfter glues u ws) = tokens u ++ ws.flatMap tokens ↔
      (u :: ws).IsChain fun u v => ¬ TakesColon u v := by
  induction ws generalizing u with
  | nil => simp [joinedAfter]
  | cons v ws ih =>
    obtain ⟨hv, hws⟩ := List.forall_mem_cons.1 hws
    rw [List.isChain_cons_cons, ← ih hws, joinedAfter]
    by_cases hcolon : TakesColon u v
    · rw [if_pos hcolon.glues]
      exact iff_of_false (hcolon.tokens_append_ne _ _) fun h => h.1 hcolon
    · have happend : tokens (u ++ ((if glues u v then v else ' ' :: v) ++ joinedAfter glues v ws)) =
          tokens u ++ tokens (v ++ joinedAfter glues v ws) := by
        split_ifs with hglues
        · exact tokens_append (meetBetweenTokens_of_glues hglues hcolon hv.ne_nil _)
        · exact tokens_append_blank rfl u _
      simp [happend, hcolon]

end Text

open Text

/-- The words of a text are kept, and some of them stand without a space between them. -/
theorem toList_normalSpelling (text : String) :
    (normalSpelling text).toList = joined glues (words text.toList) := by
  have hws : ∀ w ∈ words text.toList, IsNonblank w := fun _ => isNonblank_of_mem_words
  -- A mark of one character is no longer than a word.
  have hlength : ∀ w ∈ words text.toList, 1 ≤ w.length :=
    fun w hw => List.length_pos_of_ne_nil (hws w hw).ne_nil
  have hspaced : (singleSpaced text).toList = _ := toList_intercalate_space _
  have hcolons : ∀ w ∈ words text.toList, ∀ v : List Char,
      (false || "::".toList.isPrefixOf w) = true → "::".toList.length ≤ w.length := by
    intro w _ _ hstart
    exact (List.isPrefixOf_iff_prefix.1 hstart).length_le
  have h₁ := toList_replaced_before " ::" "::" hspaced hws rfl (by decide) (by simp)
  have h₂ := toList_replaced_after ":: " "::" h₁ hws rfl (by decide) (by decide) hcolons
  have h₃ := toList_replaced_after "< " "<" h₂ hws rfl (by decide) (by decide)
    fun w hw _ _ => hlength w hw
  have h₄ := toList_replaced_before " >" ">" h₃ hws rfl (by decide) fun w hw _ _ => hlength w hw
  have h₅ := toList_replaced_before " <" "<" h₄ hws rfl (by decide) fun w hw _ _ => hlength w hw
  exact toList_replaced_before " ," "," h₅ hws rfl (by decide) fun w hw _ _ => hlength w hw

/-- A normal spelling has the tokens of the text if and only if no word takes a colon of the next
one. -/
theorem tokens_normalSpelling_iff (text : String) :
    tokens (normalSpelling text).toList = tokens text.toList ↔
      (words text.toList).IsChain fun u v => ¬ TakesColon u v := by
  have hws : ∀ w ∈ words text.toList, IsNonblank w := fun _ => isNonblank_of_mem_words
  rw [toList_normalSpelling, tokens_eq_flatMap_words text.toList]
  cases hwords : words text.toList with
  | nil => simp [joined, tokens]
  | cons u ws =>
    rw [joined, List.flatMap_cons]
    exact tokens_append_joinedAfter_iff (by grind) u

/-- In a conditional expression with a global name behind the `:`, the `:` takes a colon. -/
theorem tokens_normalSpelling_conditional :
    normalSpelling "x ? y : ::c" = "x ? y :::c" ∧
      tokens (normalSpelling "x ? y : ::c").toList ≠ tokens "x ? y : ::c".toList ∧
      tokens (normalSpelling "std :: vector < int >").toList =
        tokens "std :: vector < int >".toList :=
  ⟨by decide +kernel, mt (tokens_normalSpelling_iff _).1 (by decide +kernel),
    (tokens_normalSpelling_iff _).2 (by decide +kernel)⟩

end ClassEdit
