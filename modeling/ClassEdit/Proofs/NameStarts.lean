import ClassEdit.Render.Overrides

/-!
# Where a scope is deleted

The occurrences of a scope in a text are searched from the left, and one that starts inside of
another is not found. A scope is made up of characters of names, so behind the start of an
occurrence a name goes on until the occurrence ends. An occurrence that starts a name is thus never
inside of another one and is always found.

## Main definitions

* `Text.search`: the positions of the occurrences that a search from the left finds.
* `ScopeStartsAt`: an occurrence of a scope that starts a name.
* `InStartingScope`: the positions of the characters of such occurrences.
* `inFound`: the positions of the characters of the occurrences found that start a name.
* `charactersAt`: the characters at some positions of a text.

## Main statements

* `stripScope_eq_search`: of the occurrences found, those that start a name are deleted.
* `ScopeStartsAt.mem_search`: an occurrence that starts a name is found.
* `stripScope_deletes_starting`: the occurrences that start a name are deleted, and nothing else.
-/

namespace ClassEdit

/-! ## Positions -/

/-- The characters at the positions that `keep` marks, of a text that starts at `position`. -/
def charactersAt (keep : Nat → Bool) (position : Nat) (cs : List Char) : List Char :=
  ((cs.zipIdx position).filter fun entry => keep entry.2).map Prod.fst

theorem charactersAt_cons (keep : Nat → Bool) (position : Nat) (c : Char) (cs : List Char) :
    charactersAt keep position (c :: cs) =
      if keep position then c :: charactersAt keep (position + 1) cs
      else charactersAt keep (position + 1) cs := by
  simp only [charactersAt, List.zipIdx_cons, List.filter_cons]
  split <;> rfl

/-- Only the positions from the start of the text on matter. -/
theorem charactersAt_congr {keep keep' : Nat → Bool} {position : Nat} {cs : List Char}
    (h : ∀ p, position ≤ p → keep p = keep' p) :
    charactersAt keep position cs = charactersAt keep' position cs := by
  induction cs generalizing position with
  | nil => rfl
  | cons c cs ih =>
    rw [charactersAt_cons, charactersAt_cons, h position (Nat.le_refl _),
      ih fun p hp => h p (by omega)]

/-- The first character and those after it, with the positions of these marked in another way. -/
theorem charactersAt_cons_of_eq {keep keep' : Nat → Bool} {position : Nat} {b : Bool} {c : Char}
    {cs : List Char} (hfirst : keep position = b) (h : ∀ p, position < p → keep p = keep' p) :
    charactersAt keep position (c :: cs) =
      if b then c :: charactersAt keep' (position + 1) cs
      else charactersAt keep' (position + 1) cs := by
  rw [charactersAt_cons, hfirst, charactersAt_congr h]

namespace Text

/-- The positions at which a search from the left finds `pattern`, in a text that starts at
`position` and whose first `inside` characters belong to the occurrence found last. -/
def searchFrom (pattern : List Char) (position inside : Nat) : List Char → List Nat
  | [] => []
  | c :: cs =>
    match inside with
    | inside + 1 => searchFrom pattern (position + 1) inside cs
    | 0 =>
      if pattern.isPrefixOf (c :: cs) then
        position :: searchFrom pattern (position + 1) (pattern.length - 1) cs
      else searchFrom pattern (position + 1) 0 cs

/-- The positions at which a search from the left finds `pattern`, each after the end of the
occurrence found before. -/
def search (pattern cs : List Char) : List Nat :=
  searchFrom pattern 0 0 cs

/-- What is found is an occurrence. -/
theorem drop_of_mem_searchFrom {pattern front cs : List Char} {inside i : Nat}
    (h : i ∈ searchFrom pattern front.length inside cs) :
    front.length ≤ i ∧ pattern <+: (front ++ cs).drop i := by
  induction cs generalizing front inside with
  | nil => cases h
  | cons c cs ih =>
    have hnext : ∀ {inside}, i ∈ searchFrom pattern (front.length + 1) inside cs →
        front.length ≤ i ∧ pattern <+: (front ++ c :: cs).drop i := by
      intro inside hmem
      have := @ih (front ++ [c]) inside (by simpa using hmem)
      simp at this
      exact ⟨by omega, this.2⟩
    cases inside with
    | succ inside => exact hnext h
    | zero =>
      rw [searchFrom] at h
      split at h
      case isTrue hstart =>
        obtain rfl | h := List.mem_cons.1 h
        · rw [List.drop_left]
          exact ⟨Nat.le_refl _, List.isPrefixOf_iff_prefix.1 hstart⟩
        · exact hnext h
      case isFalse => exact hnext h

end Text

/-! ## Occurrences that start a name -/

/-- Whether no name goes on at the position: it is the start of the text, or it comes after a
character that belongs to no name. -/
def nameStartsAt (cs : List Char) (i : Nat) : Bool :=
  !(cs.take i).getLast?.any continuesName

/-- The scope occurs at the position and starts a name there. -/
def ScopeStartsAt (scope cs : List Char) (i : Nat) : Prop :=
  scope <+: cs.drop i ∧ nameStartsAt cs i = true

instance (scope cs : List Char) (i : Nat) : Decidable (ScopeStartsAt scope cs i) :=
  inferInstanceAs (Decidable (_ ∧ _))

/-- The position is that of a character of an occurrence that starts a name. -/
def InStartingScope (scope cs : List Char) (p : Nat) : Prop :=
  ∃ i, ScopeStartsAt scope cs i ∧ i ≤ p ∧ p < i + scope.length

instance (scope cs : List Char) (p : Nat) : Decidable (InStartingScope scope cs p) :=
  decidable_of_iff
    (((List.range (p + 1)).any fun i => ScopeStartsAt scope cs i ∧ p < i + scope.length) = true)
    (by
      simp only [List.any_eq_true, List.mem_range, Nat.lt_succ_iff, decide_eq_true_eq,
        InStartingScope]
      exact exists_congr fun i => and_left_comm)

theorem nameStartsAt_length_append (front cs : List Char) :
    nameStartsAt (front ++ cs) front.length = !front.getLast?.any continuesName := by
  rw [nameStartsAt, List.take_left]

section

variable {scope front cs : List Char} {i j : Nat}

/-- Whether a position is in an occurrence that was found and starts a name. -/
def inFound (scope cs : List Char) (found : List Nat) (p : Nat) : Bool :=
  found.any fun i => nameStartsAt cs i && i ≤ p && p < i + scope.length

theorem inFound_cons (text : List Char) (i : Nat) (found : List Nat) (p : Nat) :
    inFound scope text (i :: found) p =
      (nameStartsAt text i && decide (i ≤ p) && decide (p < i + scope.length) ||
        inFound scope text found p) := rfl

/-- Positions before the search are in no occurrence that it finds. -/
theorem inFound_of_lt {text : List Char} {found : List Nat} {p : Nat} (h : ∀ i ∈ found, p < i) :
    inFound scope text found p = false := by
  rw [inFound, List.any_eq_false]
  intro i hi
  have := h i hi
  simp
  omega

/-- Going through a text deletes the rest of the occurrence found last, unless it is kept, and the
occurrences found from there on that start a name. -/
theorem stripScopeFrom_eq_charactersAt (hne : scope ≠ []) (inside : Nat) (kept : Bool) :
    stripScopeFrom scope front.getLast? inside kept cs =
      charactersAt (fun p => !(!kept && decide (p < front.length + inside) ||
        inFound scope (front ++ cs) (Text.searchFrom scope front.length inside cs) p))
        front.length cs := by
  induction cs generalizing front inside kept with
  | nil => rfl
  | cons c cs ih =>
    have hlater : ∀ inside, inFound scope (front ++ c :: cs)
        (Text.searchFrom scope (front.length + 1) inside cs) front.length = false := by
      intro inside
      refine inFound_of_lt fun i hi => ?_
      have := @Text.drop_of_mem_searchFrom scope (front ++ [c]) cs inside i (by simpa using hi)
      simp at this
      omega
    have hnext := @ih (front ++ [c])
    simp only [List.getLast?_append, List.getLast?_singleton, Option.some_or, List.length_append,
      List.length_singleton, List.append_assoc, List.singleton_append] at hnext
    cases inside with
    | succ inside =>
      rw [stripScopeFrom, hnext inside kept, Text.searchFrom]
      refine (charactersAt_cons_of_eq ?_ fun p hp => ?_).symm
      · simp [hlater]
      · rw [Nat.add_right_comm, Nat.add_assoc]
    | zero =>
      rw [stripScopeFrom, Text.searchFrom]
      split
      case isFalse =>
        rw [hnext 0 true]
        refine (charactersAt_cons_of_eq (b := true) ?_ fun p hp => ?_).symm
        · simp [hlater]
        · simp
          omega
      case isTrue hstart =>
        have hpos := List.length_pos_iff.2 hne
        have hstarts := nameStartsAt_length_append front (c :: cs)
        simp only [hnext]
        refine (charactersAt_cons_of_eq ?_ fun p hp => ?_).symm
        · rw [inFound_cons, hlater, hstarts]
          simp [hpos]
        · have hinside : decide (p < front.length + 1 + (scope.length - 1)) =
              decide (p < front.length + scope.length) := decide_eq_decide.2 (by omega)
          have hle : decide (front.length ≤ p) = true := decide_eq_true (by omega)
          have hlt : decide (p < front.length + 0) = false := decide_eq_false (by omega)
          rw [inFound_cons, hstarts, hinside, hle, hlt]
          simp

/-- Of the occurrences that a search from the left finds, those that start a name are deleted. -/
theorem stripScope_eq_search (hne : scope ≠ []) (cs : List Char) :
    stripScope scope cs =
      charactersAt (fun p => !inFound scope cs (Text.search scope cs) p) 0 cs := by
  have h := @stripScopeFrom_eq_charactersAt scope [] cs hne 0 true
  simpa [stripScope, Text.search] using h

/-- Behind the start of an occurrence of the scope a name goes on. -/
theorem nameStartsAt_eq_false_of_inside (hscope : ∀ c ∈ scope, continuesName c = true)
    (hoccurs : scope <+: cs.drop i) (hlt : i < j) (hinside : j < i + scope.length) :
    nameStartsAt cs j = false := by
  obtain ⟨back, hback⟩ := hoccurs
  have hlast : (cs.take j).getLast? = scope[j - 1 - i]? := by
    have hlength : j - 1 < cs.length := by
      have := congrArg List.length hback
      simp at this
      omega
    calc (cs.take j).getLast?
        = cs[j - 1]? := by
          rw [List.getLast?_take, if_neg (by omega), List.getElem?_eq_getElem hlength,
            Option.some_or]
      _ = (cs.drop i)[j - 1 - i]? := by
          rw [List.getElem?_drop, show i + (j - 1 - i) = j - 1 by omega]
      _ = scope[j - 1 - i]? := by rw [← hback, List.getElem?_append_left (by omega)]
  have hget : j - 1 - i < scope.length := by omega
  rw [nameStartsAt, hlast, List.getElem?_eq_getElem hget, Option.any_some,
    hscope _ (List.getElem_mem hget)]
  rfl

/-- Occurrences that start a name do not overlap. -/
theorem ScopeStartsAt.add_length_le (hscope : ∀ c ∈ scope, continuesName c = true)
    (hi : ScopeStartsAt scope cs i) (hj : ScopeStartsAt scope cs j) (hlt : i < j) :
    i + scope.length ≤ j := by
  refine Nat.not_lt.1 fun hinside => ?_
  have hgoesOn := nameStartsAt_eq_false_of_inside hscope hi.1 hlt hinside
  exact Bool.false_ne_true (hgoesOn.symm.trans hj.2)

/-- An occurrence that starts a name is found, also if an occurrence has been found that goes on
into the rest of the text. -/
theorem ScopeStartsAt.mem_searchFrom (hne : scope ≠ [])
    (hscope : ∀ c ∈ scope, continuesName c = true) {inside : Nat}
    (hbefore : 0 < inside → front.getLast?.any continuesName = true)
    (hinside : ∀ c ∈ cs.take inside, continuesName c = true) (hle : front.length ≤ i)
    (h : ScopeStartsAt scope (front ++ cs) i) :
    i ∈ Text.searchFrom scope front.length inside cs := by
  induction cs generalizing front inside with
  | nil =>
    have hempty : scope <+: [] := by
      have := h.1
      rwa [List.append_nil, List.drop_of_length_le hle] at this
    exact absurd (List.prefix_nil.1 hempty) hne
  | cons c cs ih =>
    have hnext : ∀ inside, (0 < inside → continuesName c = true) →
        (∀ d ∈ cs.take inside, continuesName d = true) → front.length + 1 ≤ i →
        i ∈ Text.searchFrom scope (front.length + 1) inside cs := by
      intro inside hbefore hinside hle
      have hrest := @ih (front ++ [c]) inside
      simp only [List.getLast?_append, List.getLast?_singleton, Option.some_or, Option.any_some,
        List.length_append, List.length_singleton, List.append_assoc,
        List.singleton_append] at hrest
      exact hrest hbefore hinside hle h
    obtain rfl | hlt := Nat.eq_or_lt_of_le hle
    · -- a name goes on inside of an occurrence, so the search is at this position
      have hstarts := h.2
      rw [nameStartsAt_length_append] at hstarts
      obtain rfl : inside = 0 := by
        refine Nat.eq_zero_of_not_pos fun hpos => ?_
        rw [hbefore hpos] at hstarts
        cases hstarts
      have hoccurs := h.1
      rw [List.drop_left, ← List.isPrefixOf_iff_prefix] at hoccurs
      rw [Text.searchFrom, if_pos hoccurs]
      exact List.mem_cons_self
    · cases inside with
      | succ inside =>
        exact hnext inside (fun _ => hinside c (by simp))
          (fun d hd => hinside d (by simp [hd])) hlt
      | zero =>
        rw [Text.searchFrom]
        split
        case isTrue hstart =>
          obtain ⟨first, tail, hcons⟩ := List.exists_cons_of_ne_nil hne
          rw [List.isPrefixOf_iff_prefix, hcons, List.cons_prefix_cons] at hstart
          obtain ⟨rfl, htail⟩ := hstart
          have hlength : scope.length - 1 = tail.length := by rw [hcons]; rfl
          refine List.mem_cons_of_mem _ (hnext _ (fun _ => hscope first ?_) (fun d hd => ?_) hlt)
          · rw [hcons]
            exact List.mem_cons_self
          · rw [hlength, ← List.prefix_iff_eq_take.1 htail] at hd
            exact hscope d (hcons ▸ List.mem_cons_of_mem first hd)
        case isFalse => exact hnext 0 (fun hpos => absurd hpos (Nat.lt_irrefl 0)) (by simp) hlt

/-- An occurrence that starts a name is found by a search from the left. -/
theorem ScopeStartsAt.mem_search (hne : scope ≠ []) (hscope : ∀ c ∈ scope, continuesName c = true)
    (h : ScopeStartsAt scope cs i) : i ∈ Text.search scope cs :=
  @mem_searchFrom scope [] cs i hne hscope 0 (fun hpos => absurd hpos (Nat.lt_irrefl 0)) (by simp)
    (Nat.zero_le i) h

/-- A position is in an occurrence that was found and starts a name if it is in any that does. -/
theorem inFound_search_iff (hne : scope ≠ []) (hscope : ∀ c ∈ scope, continuesName c = true)
    (p : Nat) : inFound scope cs (Text.search scope cs) p = true ↔ InStartingScope scope cs p := by
  simp only [inFound, List.any_eq_true, Bool.and_eq_true, decide_eq_true_eq]
  constructor
  · rintro ⟨i, hi, ⟨hstarts, hle⟩, hlt⟩
    have hoccurs := (@Text.drop_of_mem_searchFrom scope [] cs 0 i hi).2
    exact ⟨i, ⟨hoccurs, hstarts⟩, hle, hlt⟩
  · rintro ⟨i, hi, hle, hlt⟩
    exact ⟨i, hi.mem_search hne hscope, ⟨hi.2, hle⟩, hlt⟩

end

/-- From a text the occurrences of a scope that start a name are deleted, and nothing else. These
occurrences do not overlap. Though only occurrences are deleted that a search from the left finds,
those that it misses do not start a name. -/
theorem stripScope_deletes_starting {scope : List Char} (hne : scope ≠ [])
    (hscope : ∀ c ∈ scope, continuesName c = true) (cs : List Char) :
    stripScope scope cs = charactersAt (fun p => ¬ InStartingScope scope cs p) 0 cs ∧
    (∀ i j, ScopeStartsAt scope cs i → ScopeStartsAt scope cs j → i < j → i + scope.length ≤ j) ∧
    stripScope scope cs =
      charactersAt (fun p => !inFound scope cs (Text.search scope cs) p) 0 cs ∧
    ∀ i, scope <+: cs.drop i → i ∉ Text.search scope cs → nameStartsAt cs i = false := by
  have hsearch := stripScope_eq_search hne cs
  refine ⟨?_, fun i j hi hj => hi.add_length_le hscope hj, hsearch, fun i hoccurs hmissed => ?_⟩
  · rw [hsearch]
    refine charactersAt_congr fun p _ => ?_
    rw [decide_not, Bool.not_inj_iff, Bool.eq_iff_iff, decide_eq_true_eq,
      inFound_search_iff hne hscope]
  · refine Bool.eq_false_iff.2 fun hstarts => ?_
    exact hmissed (ScopeStartsAt.mem_search hne hscope ⟨hoccurs, hstarts⟩)

/-- An occurrence that overlaps one before it and is not found does not start a name. -/
theorem stripScope_deletes_starting_overlap :
    let scope := "a::a::".toList
    let text := "a::a::a::x (a::a::y".toList
    stripScope scope text = "a::x (y".toList ∧ ScopeStartsAt scope text 0 ∧
    ScopeStartsAt scope text 12 ∧ 0 + scope.length ≤ 12 ∧
    scope <+: text.drop 3 ∧ 3 ∉ Text.search scope text ∧ nameStartsAt text 3 = false := by
  intro scope text
  have hscope : ∀ c ∈ scope, continuesName c = true := List.all_eq_true.1 (by decide)
  obtain ⟨hstrip, hapart, -, hmissed⟩ := stripScope_deletes_starting (by decide) hscope text
  have hkept : charactersAt (fun p => ¬ InStartingScope scope text p) 0 text =
      "a::x (y".toList := by decide
  have hfirst : ScopeStartsAt scope text 0 := by decide
  have hsecond : ScopeStartsAt scope text 12 := by decide
  have hoccurs : scope <+: text.drop 3 := by decide
  have hoverlaps : 3 ∉ Text.search scope text := by decide
  exact ⟨hstrip.trans hkept, hfirst, hsecond, hapart 0 12 hfirst hsecond (by decide), hoccurs,
    hoverlaps, hmissed 3 hoccurs hoverlaps⟩

end ClassEdit
