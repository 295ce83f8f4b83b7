import ClassEdit.Proofs.Splice

/-!
# Edits one after the other

An edit may be made in two parts. The insertions of the second part then have to be moved, since
the first part has put text in front of them: an offset of the text before the edit becomes one of
the text in between by adding the bytes that the first part adds up to it. What goes to the same
offset counts too, so that it stays in front.

## Main definitions

* `addedBefore`, `addedUpTo`: how many bytes some insertions add in front of what stands at an
  offset, without and with those at the offset.
* `Insertion.after`: an insertion moved to where its offset is once others are made.

## Main statements

* `textsAt_map_after`: the moved insertions add at the moved offsets what they added before.
* `interleave_map_after`: the moved insertions made in the text in between.
* `applyInsertions_in_sequence`: an edit made in two parts.
-/

namespace ClassEdit

/-! ## Moved offsets -/

/-- The number of bytes that an insertion adds. -/
def Insertion.size (i : Insertion) : Nat :=
  Text.byteLength i.text.toList

/-- The number of bytes that the insertions before an offset add. -/
def addedBefore (made : List Insertion) (offset : Nat) : Nat :=
  rowSize Insertion.size (made.filter (·.offset < offset))

/-- The number of bytes that the insertions up to an offset add, those at the offset included. -/
def addedUpTo (made : List Insertion) (offset : Nat) : Nat :=
  rowSize Insertion.size (made.filter (·.offset ≤ offset))

/-- The insertion at the place that its offset has once others are made. -/
def Insertion.after (made : List Insertion) (i : Insertion) : Insertion :=
  { i with offset := i.offset + addedUpTo made i.offset }

section Offsets

variable {made pending : List Insertion} {n m : Nat}

theorem addedUpTo_eq (made : List Insertion) (n : Nat) :
    addedUpTo made n = addedBefore made n + Text.byteLength (textsAt made n) := by
  unfold addedUpTo addedBefore
  induction made with
  | nil => rfl
  | cons i made ih =>
    rcases Nat.lt_trichotomy i.offset n with hlt | heq | hgt
    · rw [textsAt_cons_of_ne (Nat.ne_of_lt hlt)]
      simp [hlt, Nat.le_of_lt hlt, rowSize, ih, Nat.add_assoc]
    · subst heq
      rw [textsAt_cons_self]
      simp [rowSize, ih, Insertion.size, Nat.add_left_comm]
    · rw [textsAt_cons_of_ne (Nat.ne_of_gt hgt)]
      simp [Nat.not_le.2 hgt, Nat.le_of_lt hgt, ih]

theorem addedUpTo_le_addedBefore (h : n < m) : addedUpTo made n ≤ addedBefore made m := by
  unfold addedUpTo addedBefore
  induction made with
  | nil => exact Nat.le_refl _
  | cons i made ih =>
    by_cases hle : i.offset ≤ n
    · have hlt : i.offset < m := by omega
      simpa [hle, hlt, rowSize] using ih
    · by_cases hlt : i.offset < m
      · rw [List.filter_cons_of_neg (by simpa using hle),
          List.filter_cons_of_pos (by simpa using hlt), rowSize]
        omega
      · simpa [hle, hlt] using ih

/-- Nothing is added between two offsets without an insertion. -/
theorem addedBefore_eq_addedUpTo (h : n < m) (hgap : ∀ i ∈ made, i.offset ≤ n ∨ m ≤ i.offset) :
    addedBefore made m = addedUpTo made n := by
  unfold addedUpTo addedBefore
  congr 1
  refine List.filter_congr fun i hi => ?_
  have := hgap i hi
  rw [decide_eq_decide]
  omega

/-- A moved offset is behind those before it, with all that goes there. -/
theorem add_addedUpTo_lt (h : n < m) : n + addedUpTo made n < m + addedBefore made m := by
  have := @addedUpTo_le_addedBefore made n m h
  omega

theorem add_addedUpTo_inj : n + addedUpTo made n = m + addedUpTo made m ↔ n = m := by
  constructor
  · intro heq
    have hn := addedUpTo_eq made n
    have hm := addedUpTo_eq made m
    rcases Nat.lt_trichotomy n m with hlt | heq | hgt
    · have := @add_addedUpTo_lt made n m hlt
      omega
    · exact heq
    · have := @add_addedUpTo_lt made m n hgt
      omega
  · rintro rfl
    rfl

/-- The moved insertions add at the moved offsets what they added before. -/
theorem textsAt_map_after (made pending : List Insertion) (n : Nat) :
    textsAt (pending.map (·.after made)) (n + addedUpTo made n) = textsAt pending n := by
  unfold textsAt
  rw [List.filter_map, List.flatMap_map]
  have hsame : pending.filter ((fun i => decide (i.offset = n + addedUpTo made n)) ∘
      Insertion.after made) = pending.filter (·.offset = n) := by
    refine List.filter_congr fun i _ => ?_
    exact decide_eq_decide.2 add_addedUpTo_inj
  rw [hsame]
  rfl

/-- Inside of what has been added at an offset there is no moved insertion. -/
theorem textsAt_map_after_eq_nil (hlow : n + addedBefore made n ≤ m)
    (hhigh : m < n + addedUpTo made n) : textsAt (pending.map (·.after made)) m = [] := by
  refine textsAt_eq_nil fun j hj heq => ?_
  obtain ⟨i, -, rfl⟩ := List.mem_map.1 hj
  change i.offset + addedUpTo made i.offset = m at heq
  by_cases hlt : i.offset < n
  · have := @add_addedUpTo_lt made i.offset n hlt
    omega
  · rcases Nat.eq_or_lt_of_le (Nat.le_of_not_lt hlt) with rfl | hgt
    · omega
    · have := @add_addedUpTo_lt made n i.offset hgt
      have := addedUpTo_eq made i.offset
      omega

theorem textsAt_append (xs ys : List Insertion) (n : Nat) :
    textsAt (xs ++ ys) n = textsAt xs n ++ textsAt ys n := by
  simp [textsAt]

end Offsets

/-! ## The text in between -/

section Between

variable {made pending : List Insertion} {offset : Nat} {c : Char} {cs xs ys : List Char}

/-- Nothing is added inside of the first character. -/
theorem AtPositions.addedBefore_eq (h : AtPositions made offset (c :: cs)) :
    addedBefore made (offset + c.utf8Size) = addedUpTo made offset :=
  addedBefore_eq_addedUpTo (Nat.lt_add_of_pos_right c.utf8Size_pos) h.of_cons.2

/-- A position of the text is also one of the text in between, moved by what has been added up to
it. -/
theorem exists_interleave_eq (h : AtPositions made offset (xs ++ ys)) :
    ∃ front back, interleave Char.utf8Size (textsAt made) offset (xs ++ ys) = front ++ back ∧
      offset + addedBefore made offset + Text.byteLength front =
        offset + Text.byteLength xs + addedUpTo made (offset + Text.byteLength xs) := by
  induction xs generalizing offset with
  | nil =>
    have hupTo := addedUpTo_eq made offset
    have hfront : ∃ back, interleave Char.utf8Size (textsAt made) offset ys =
        textsAt made offset ++ back := by
      cases ys with
      | nil => exact ⟨[], (List.append_nil _).symm⟩
      | cons c cs => exact ⟨_, rfl⟩
    obtain ⟨back, hback⟩ := hfront
    refine ⟨textsAt made offset, back, hback, ?_⟩
    rw [Text.byteLength_nil, Nat.add_zero]
    omega
  | cons c cs ih =>
    have hnext := AtPositions.addedBefore_eq h
    obtain ⟨front, back, heq, hlength⟩ := ih (AtPositions.of_cons h).1
    have hupTo := addedUpTo_eq made offset
    refine ⟨textsAt made offset ++ c :: front, back, ?_, ?_⟩
    · rw [List.cons_append, interleave, heq, List.append_assoc, List.cons_append]
    · rw [Text.byteLength_append, Text.byteLength_cons, Text.byteLength_cons,
        ← Nat.add_assoc offset]
      omega

/-- What has been added at an offset is passed over. -/
theorem interleave_textsAt_append (made pending : List Insertion) (offset : Nat)
    (bs : List Char) :
    interleave Char.utf8Size (textsAt (pending.map (·.after made)))
        (offset + addedBefore made offset) (textsAt made offset ++ bs) =
      textsAt made offset ++ interleave Char.utf8Size (textsAt (pending.map (·.after made)))
        (offset + addedUpTo made offset) bs := by
  have hupTo := addedUpTo_eq made offset
  rw [interleave_append fun c => c.utf8Size_pos]
  · rw [rowSize_utf8Size, hupTo, Nat.add_assoc]
  · intro n hlow hhigh
    rw [rowSize_utf8Size] at hhigh
    exact textsAt_map_after_eq_nil hlow (by omega)

/-- Making the moved insertions in the text in between is making all of them at once. -/
theorem interleave_map_after (h : AtPositions made offset cs) :
    interleave Char.utf8Size (textsAt (pending.map (·.after made)))
        (offset + addedBefore made offset)
        (interleave Char.utf8Size (textsAt made) offset cs) =
      interleave Char.utf8Size (textsAt (made ++ pending)) offset cs := by
  induction cs generalizing offset with
  | nil =>
    have hpass := interleave_textsAt_append made pending offset []
    rw [List.append_nil] at hpass
    rw [interleave, hpass, interleave, interleave, textsAt_map_after, textsAt_append]
  | cons c cs ih =>
    have hoffset : offset + addedUpTo made offset + c.utf8Size =
        offset + c.utf8Size + addedBefore made (offset + c.utf8Size) := by
      rw [h.addedBefore_eq]
      omega
    rw [interleave, interleave_textsAt_append, interleave, textsAt_map_after, hoffset,
      ih h.of_cons.1, interleave, textsAt_append, List.append_assoc]

end Between

/-! ## Whole edits -/

section Edits

variable {content : List Char} {first second : List Insertion}

theorem addedBefore_zero (made : List Insertion) : addedBefore made 0 = 0 := by
  have hnone : made.filter (·.offset < 0) = [] := by simp
  rw [addedBefore, hnone, rowSize]

theorem splice_map_after (h : ∀ i ∈ first, Text.IsBoundary content i.offset) :
    splice (second.map (·.after first)) (splice first content) =
      splice (first ++ second) content := by
  have hpositions : AtPositions first 0 content := fun i hi _ => h i hi
  have hsplice := @interleave_map_after first second 0 content hpositions
  rwa [addedBefore_zero] at hsplice

theorem isBoundary_splice_after (h : ∀ i ∈ first, Text.IsBoundary content i.offset)
    {i : Insertion} (hi : Text.IsBoundary content i.offset) :
    Text.IsBoundary (splice first content) (i.after first).offset := by
  obtain ⟨xs, ys, rfl, hxs⟩ := Text.isBoundary_iff.1 hi
  have hpositions : AtPositions first 0 (xs ++ ys) := fun i hi _ => h i hi
  obtain ⟨front, back, heq, hlength⟩ := exists_interleave_eq hpositions
  refine Text.isBoundary_iff.2 ⟨front, back, heq, ?_⟩
  rw [addedBefore_zero, hxs] at hlength
  simpa [Insertion.after] using hlength

/-- Let the offsets of two rows of insertions be positions of a text. Then the first row can be
made in the text, and the second one in the text after that once each of its insertions has been
moved by the bytes that the first row adds up to its offset. The result is that of making both rows
at once. -/
theorem applyInsertions_in_sequence
    (hfirst : ∀ i ∈ first, Text.IsBoundary content i.offset)
    (hsecond : ∀ i ∈ second, Text.IsBoundary content i.offset) :
    ∃ between result, applyInsertions content first = .ok between ∧
      applyInsertions between (second.map (·.after first)) = .ok result ∧
      applyInsertions content (first ++ second) = .ok result := by
  have hmoved : ∀ i ∈ second.map (·.after first),
      Text.IsBoundary (splice first content) i.offset := by
    intro j hj
    obtain ⟨i, hi, rfl⟩ := List.mem_map.1 hj
    exact isBoundary_splice_after hfirst (hsecond i hi)
  have hboth : ∀ i ∈ first ++ second, Text.IsBoundary content i.offset :=
    List.forall_mem_append.2 ⟨hfirst, hsecond⟩
  refine ⟨splice first content, splice (first ++ second) content,
    applyInsertions_of_isBoundary hfirst, ?_, applyInsertions_of_isBoundary hboth⟩
  rw [applyInsertions_of_isBoundary hmoved, splice_map_after hfirst]

end Edits

/-- Both rows add at the two positions around the character of two bytes. -/
theorem applyInsertions_in_sequence_twoBytes :
    let first : List Insertion := [⟨3, "x"⟩, ⟨1, "ü"⟩]
    let second : List Insertion := [⟨1, "b"⟩, ⟨3, "y"⟩]
    (∀ i ∈ first, Text.IsBoundary "aéc".toList i.offset) ∧
    (∀ i ∈ second, Text.IsBoundary "aéc".toList i.offset) ∧
    second.map (·.after first) = [⟨3, "b"⟩, ⟨6, "y"⟩] ∧
    applyInsertions "aéc".toList first = .ok "aüéxc".toList ∧
    applyInsertions "aüéxc".toList [⟨3, "b"⟩, ⟨6, "y"⟩] = .ok "aübéxyc".toList ∧
    applyInsertions "aéc".toList (first ++ second) = .ok "aübéxyc".toList := by
  intro first second
  have hfirst : ∀ i ∈ first, Text.IsBoundary "aéc".toList i.offset := by decide
  have hsecond : ∀ i ∈ second, Text.IsBoundary "aéc".toList i.offset := by decide
  have hmoved : second.map (·.after first) = [⟨3, "b"⟩, ⟨6, "y"⟩] := by decide
  have hbetween : applyInsertions "aéc".toList first = .ok "aüéxc".toList :=
    (applyInsertions_of_isBoundary hfirst).trans (congrArg _ (by decide))
  have hresult : applyInsertions "aéc".toList (first ++ second) = .ok "aübéxyc".toList :=
    (applyInsertions_of_isBoundary (by decide)).trans (congrArg _ (by decide))
  obtain ⟨between, result, hone, htwo, hall⟩ := applyInsertions_in_sequence hfirst hsecond
  obtain rfl := Except.ok.inj (hbetween.symm.trans hone)
  obtain rfl := Except.ok.inj (hresult.symm.trans hall)
  exact ⟨hfirst, hsecond, hmoved, hbetween, hmoved ▸ htwo, hresult⟩

end ClassEdit
