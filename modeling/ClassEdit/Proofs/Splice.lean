import ClassEdit.Edit.Insertion
import ClassEdit.Proofs.Position
import Mathlib.Data.List.Flatten
import Mathlib.Tactic.Push

/-!
# Edits as splices

An edit is specified without any order of making the insertions: going through the text, each
position has first the texts that go there, in the order given, and then what stood there. That
the insertions are made from the highest offset down is what lets them all have offsets of the text
before the edit. Once those from some offset on are made, the text before that offset is untouched.

## Main definitions

* `interleave`: a row with something added at each of its positions.
* `textsAt`: what some insertions add at an offset.
* `AtPositions`: the offsets of some insertions are positions of the text from an offset on.
* `splice`, `spliceBytes`: the text after an edit, by characters and by bytes.

## Main statements

* `Insertion.filter_reverse_schedule`: insertions at one offset are made from the last to the first.
* `Insertion.insertInto_splice`, `foldlM_makeInsertion`: one insertion, and all of them.
* `foldlM_makeInsertion_eq_error`: the offset that a failed edit reports.
* `applyInsertions_eq_splice`: when an edit fails, and the text after it if it does not.
-/

namespace ClassEdit

/-! ## Adding to a row -/

section Interleave

variable {α : Type} {size : α → Nat} {added added' : Nat → List α} {offset : Nat} {as bs : List α}

/-- The total size of the entries of a row. -/
def rowSize (size : α → Nat) : List α → Nat
  | [] => 0
  | a :: as => size a + rowSize size as

/-- A row with `added n` in front of the entry at each position `n`, and at the end. The first
position is `offset`, and the next one is further by the size of the entry. -/
def interleave (size : α → Nat) (added : Nat → List α) (offset : Nat) : List α → List α
  | [] => added offset
  | a :: as => added offset ++ a :: interleave size added (offset + size a) as

theorem interleave_congr (h : ∀ n, offset ≤ n → added n = added' n) :
    interleave size added offset as = interleave size added' offset as := by
  induction as generalizing offset with
  | nil => exact h offset (Nat.le_refl _)
  | cons a as ih =>
    rw [interleave, interleave, h offset (Nat.le_refl _)]
    rw [ih fun n hn => h n (by omega)]

/-- Where nothing is added the row stays as it is. -/
theorem interleave_append (hsize : ∀ a, 0 < size a)
    (h : ∀ n, offset ≤ n → n < offset + rowSize size as → added n = []) :
    interleave size added offset (as ++ bs) =
      as ++ interleave size added (offset + rowSize size as) bs := by
  induction as generalizing offset with
  | nil => rfl
  | cons a as ih =>
    have hpos := hsize a
    rw [rowSize] at h ⊢
    rw [List.cons_append, interleave, h offset (Nat.le_refl _) (by omega), List.nil_append,
      ih fun n hn hlt => h n (by omega) (by omega), Nat.add_assoc, List.cons_append]

theorem sublist_interleave : as.Sublist (interleave size added offset as) := by
  induction as generalizing offset with
  | nil => exact List.nil_sublist _
  | cons a as ih => exact (ih.cons_cons a).trans (List.sublist_append_right _ _)

end Interleave

theorem rowSize_utf8Size (cs : List Char) : rowSize Char.utf8Size cs = Text.byteLength cs := by
  induction cs with
  | nil => rfl
  | cons c cs ih => rw [rowSize, ih, Text.byteLength_cons]

theorem rowSize_one {α : Type} (as : List α) : rowSize (fun _ => 1) as = as.length := by
  induction as with
  | nil => rfl
  | cons a as ih => rw [rowSize, ih, List.length_cons, Nat.add_comm]

/-! ## Bytes -/

namespace Text

/-- The bytes of a text. -/
def bytes (cs : List Char) : List UInt8 :=
  cs.flatMap String.utf8EncodeChar

theorem bytes_append (xs ys : List Char) : bytes (xs ++ ys) = bytes xs ++ bytes ys :=
  List.flatMap_append

theorem bytes_cons (c : Char) (cs : List Char) :
    bytes (c :: cs) = String.utf8EncodeChar c ++ bytes cs :=
  List.flatMap_cons

variable {c : Char} {cs : List Char} {n : Nat}

/-- A position behind the start of a text is behind its first character. -/
theorem IsBoundary.of_cons (h : IsBoundary (c :: cs) n) (hn : n ≠ 0) :
    c.utf8Size ≤ n ∧ IsBoundary cs (n - c.utf8Size) := by
  obtain ⟨xs, ys, heq, rfl⟩ := isBoundary_iff.1 h
  cases xs with
  | nil => simp at hn
  | cons x xs =>
    obtain ⟨rfl, rfl⟩ := List.cons.inj heq
    have hsub : byteLength (c :: xs) - c.utf8Size = byteLength xs := by simp
    rw [hsub]
    exact ⟨by simp, isBoundary_append xs ys⟩

end Text

/-! ## The text after an edit -/

/-- What some insertions add at an offset, in the order given. -/
def textsAt (insertions : List Insertion) (offset : Nat) : List Char :=
  (insertions.filter (·.offset = offset)).flatMap (·.text.toList)

/-- The text with each position preceded by what the insertions add there. -/
def splice (insertions : List Insertion) (content : List Char) : List Char :=
  interleave Char.utf8Size (textsAt insertions) 0 content

/-- The bytes of a text, each preceded by those of what the insertions add at its position. -/
def spliceBytes (insertions : List Insertion) (content : List UInt8) : List UInt8 :=
  interleave (fun _ => 1) (fun offset => Text.bytes (textsAt insertions offset)) 0 content

section Splice

variable {i : Insertion} {insertions : List Insertion} {offset : Nat}

theorem textsAt_cons_self (i : Insertion) (insertions : List Insertion) :
    textsAt (i :: insertions) i.offset = i.text.toList ++ textsAt insertions i.offset := by
  rw [textsAt, List.filter_cons_of_pos (by simp), List.flatMap_cons, textsAt]

theorem textsAt_cons_of_ne (h : i.offset ≠ offset) :
    textsAt (i :: insertions) offset = textsAt insertions offset := by
  rw [textsAt, List.filter_cons_of_neg (by simpa using h), textsAt]

theorem textsAt_eq_nil (h : ∀ i ∈ insertions, i.offset ≠ offset) :
    textsAt insertions offset = [] := by
  rw [textsAt, List.filter_eq_nil_iff.2 (by simpa using h), List.flatMap_nil]

/-- A text is divided where the first insertion is. -/
theorem splice_append {xs ys : List Char}
    (h : ∀ i ∈ insertions, Text.byteLength xs ≤ i.offset) :
    splice insertions (xs ++ ys) =
      xs ++ interleave Char.utf8Size (textsAt insertions) (Text.byteLength xs) ys := by
  have hnone : ∀ n, 0 ≤ n → n < 0 + rowSize Char.utf8Size xs → textsAt insertions n = [] := by
    intro n _ hlt
    rw [rowSize_utf8Size] at hlt
    refine textsAt_eq_nil fun i hi heq => ?_
    have := h i hi
    omega
  rw [splice, interleave_append (fun c => c.utf8Size_pos) hnone, rowSize_utf8Size, Nat.zero_add]

@[simp]
theorem splice_nil (content : List Char) : splice [] content = content := by
  have hsplice : splice [] (content ++ []) = content ++ _ := splice_append (by simp)
  simpa [interleave, textsAt] using hsplice

/-- A further insertion goes in front of what the others add from its offset on. -/
theorem interleave_cons (i : Insertion) (insertions : List Insertion) (cs : List Char) :
    interleave Char.utf8Size (textsAt (i :: insertions)) i.offset cs =
      i.text.toList ++ interleave Char.utf8Size (textsAt insertions) i.offset cs := by
  cases cs with
  | nil => exact textsAt_cons_self i insertions
  | cons c cs =>
    have hrest : interleave Char.utf8Size (textsAt (i :: insertions)) (i.offset + c.utf8Size) cs =
        interleave Char.utf8Size (textsAt insertions) (i.offset + c.utf8Size) cs := by
      refine interleave_congr fun n hn => textsAt_cons_of_ne ?_
      have := c.utf8Size_pos
      omega
    rw [interleave, interleave, textsAt_cons_self, hrest, List.append_assoc]

/-- The offsets of some insertions, those before `offset` apart, are positions of a text that
starts there. -/
def AtPositions (insertions : List Insertion) (offset : Nat) (cs : List Char) : Prop :=
  ∀ i ∈ insertions, offset ≤ i.offset → Text.IsBoundary cs (i.offset - offset)

/-- No insertion goes into the first character, and those behind it are at positions of the rest. -/
theorem AtPositions.of_cons {c : Char} {cs : List Char}
    (h : AtPositions insertions offset (c :: cs)) :
    AtPositions insertions (offset + c.utf8Size) cs ∧
      ∀ i ∈ insertions, i.offset ≤ offset ∨ offset + c.utf8Size ≤ i.offset := by
  have hpos := c.utf8Size_pos
  have hbehind : ∀ i ∈ insertions, offset < i.offset → offset + c.utf8Size ≤ i.offset ∧
      Text.IsBoundary cs (i.offset - (offset + c.utf8Size)) := by
    intro i hi hlt
    obtain ⟨hle, hrest⟩ := (h i hi (by omega)).of_cons (by omega)
    rw [← Nat.sub_sub]
    exact ⟨by omega, hrest⟩
  refine ⟨fun i hi hle => (hbehind i hi (by omega)).2, fun i hi => ?_⟩
  by_cases hlt : offset < i.offset
  · exact .inr (hbehind i hi hlt).1
  · exact .inl (Nat.le_of_not_lt hlt)

/-- Inside of a character there is no position, so characters and bytes tell the same. -/
theorem bytes_interleave {cs : List Char} (h : AtPositions insertions offset cs) :
    Text.bytes (interleave Char.utf8Size (textsAt insertions) offset cs) =
      interleave (fun _ => 1) (fun n => Text.bytes (textsAt insertions n)) offset
        (Text.bytes cs) := by
  induction cs generalizing offset with
  | nil => rfl
  | cons c cs ih =>
    have hlength := String.length_utf8EncodeChar c
    obtain ⟨byte, rest, hbytes⟩ :=
      List.exists_cons_of_length_pos (hlength ▸ c.utf8Size_pos : 0 < _)
    obtain ⟨hnext, hgap⟩ := h.of_cons
    have hoffset : offset + 1 + rowSize (fun _ => 1) rest = offset + c.utf8Size := by
      grind [rowSize_one]
    have hnone : ∀ n, offset + 1 ≤ n → n < offset + 1 + rowSize (fun _ => 1) rest →
        Text.bytes (textsAt insertions n) = [] := by
      intro n hn hlt
      rw [textsAt_eq_nil, Text.bytes, List.flatMap_nil]
      rintro i hi rfl
      have := hgap i hi
      omega
    calc Text.bytes (interleave Char.utf8Size (textsAt insertions) offset (c :: cs))
        = Text.bytes (textsAt insertions offset) ++ byte :: (rest ++
            interleave (fun _ => 1) (fun n => Text.bytes (textsAt insertions n))
              (offset + c.utf8Size) (Text.bytes cs)) := by
          rw [interleave, Text.bytes_append, Text.bytes_cons, ih hnext, hbytes, List.cons_append]
      _ = interleave (fun _ => 1) (fun n => Text.bytes (textsAt insertions n)) offset
            (byte :: (rest ++ Text.bytes cs)) := by
          rw [interleave, interleave_append (fun _ => Nat.one_pos) hnone, hoffset]
      _ = _ := by rw [Text.bytes_cons, hbytes, List.cons_append]

theorem bytes_splice {content : List Char}
    (h : ∀ i ∈ insertions, Text.IsBoundary content i.offset) :
    Text.bytes (splice insertions content) = spliceBytes insertions (Text.bytes content) :=
  bytes_interleave fun i hi _ => h i hi

end Splice

/-! ## The order of making insertions -/

namespace Insertion

variable (insertions : List Insertion)

theorem perm_schedule : (schedule insertions).Perm insertions :=
  (List.mergeSort_perm _ _).trans insertions.reverse_perm

theorem pairwise_schedule : (schedule insertions).Pairwise fun a b => b.offset ≤ a.offset := by
  refine (List.pairwise_mergeSort ?_ ?_ _).imp fun h => by simpa using h
  · intro a b c hab hbc
    simp only [decide_eq_true_eq] at hab hbc ⊢
    omega
  · intro a b
    simp only [Bool.or_eq_true, decide_eq_true_eq]
    omega

/-- Insertions at one offset are made from the last to the first. -/
theorem filter_reverse_schedule (offset : Nat) :
    (schedule insertions).reverse.filter (·.offset = offset) =
      insertions.filter (·.offset = offset) := by
  -- Insertions at one offset are in order for the sort, which leaves them where they are.
  have hsub : (insertions.reverse.filter (·.offset = offset)).Sublist (schedule insertions) := by
    refine List.sublist_mergeSort ?_ ?_ (List.pairwise_of_forall_mem_list ?_) List.filter_sublist
    · grind
    · grind
    · grind
  have heq : insertions.reverse.filter (·.offset = offset) =
      (schedule insertions).filter (·.offset = offset) := by
    refine List.Sublist.eq_of_length ?_ ?_
    · simpa using hsub.filter (·.offset = offset)
    · refine (List.Perm.filter _ ?_).length_eq
      exact insertions.reverse_perm.trans (perm_schedule insertions).symm
  rw [List.filter_reverse, ← heq, List.filter_reverse, List.reverse_reverse]

theorem textsAt_reverse_schedule (offset : Nat) :
    textsAt (schedule insertions).reverse offset = textsAt insertions offset := by
  rw [textsAt, filter_reverse_schedule, textsAt]

theorem insertInto_append {i : Insertion} {xs ys : List Char}
    (h : i.offset = Text.byteLength xs) : i.insertInto (xs ++ ys) = xs ++ i.text.toList ++ ys := by
  rw [insertInto, h, Text.splitAt?_append]

/-- The step: if all insertions made are at an offset or further on, then one more insertion there
comes in front of theirs. -/
theorem insertInto_splice {i : Insertion} {made : List Insertion} {content : List Char}
    (hi : Text.IsBoundary content i.offset) (hmade : ∀ j ∈ made, i.offset ≤ j.offset) :
    i.insertInto (splice made content) = splice (i :: made) content := by
  obtain ⟨xs, ys, rfl, hxs⟩ := Text.isBoundary_iff.1 hi
  have hfirst : ∀ j ∈ i :: made, Text.byteLength xs ≤ j.offset := by
    rw [List.forall_mem_cons, hxs]
    exact ⟨Nat.le_refl _, hmade⟩
  rw [splice_append fun j hj => hfirst j (List.mem_cons_of_mem _ hj), insertInto_append hxs.symm,
    splice_append hfirst, hxs, interleave_cons, List.append_assoc]

end Insertion

/-! ## Whole edits -/

section Runs

variable {content text : List Char} {pending made : List Insertion}

/-- The run: insertions from the highest offset down, after others that are further on. -/
theorem foldlM_makeInsertion
    (horder : pending.Pairwise fun a b => b.offset ≤ a.offset)
    (hmade : ∀ i ∈ pending, ∀ j ∈ made, i.offset ≤ j.offset)
    (hpending : ∀ i ∈ pending, Text.IsBoundary content i.offset) :
    pending.foldlM (makeInsertion content) (splice made content) =
      .ok (splice (pending.reverse ++ made) content) := by
  induction pending generalizing made with
  | nil => rfl
  | cons i pending ih =>
    obtain ⟨hbelow, horder⟩ := List.pairwise_cons.1 horder
    obtain ⟨hi, hpending⟩ := List.forall_mem_cons.1 hpending
    obtain ⟨hfirst, hrest⟩ := List.forall_mem_cons.1 hmade
    have hnext : ∀ a ∈ pending, ∀ b ∈ i :: made, a.offset ≤ b.offset := by
      intro a ha
      exact List.forall_mem_cons.2 ⟨hbelow a ha, hrest a ha⟩
    rw [List.foldlM_cons, makeInsertion, if_pos hi, Insertion.insertInto_splice hi hfirst,
      List.reverse_cons, List.append_assoc]
    exact ih horder hnext hpending

/-- Of the offsets that are no positions of the text, the first one to come up is the highest. -/
theorem foldlM_makeInsertion_eq_error
    (horder : pending.Pairwise fun a b => b.offset ≤ a.offset)
    (hbad : ∃ i ∈ pending, ¬ Text.IsBoundary content i.offset) :
    ∃ i ∈ pending, ¬ Text.IsBoundary content i.offset ∧
      (∀ j ∈ pending, ¬ Text.IsBoundary content j.offset → j.offset ≤ i.offset) ∧
      pending.foldlM (makeInsertion content) text =
        .error (.invalidOffset i.offset (Text.byteLength content)) := by
  induction pending generalizing text with
  | nil => simp at hbad
  | cons first pending ih =>
    obtain ⟨hbelow, horder⟩ := List.pairwise_cons.1 horder
    by_cases hfirst : Text.IsBoundary content first.offset
    · have hrest : ∃ i ∈ pending, ¬ Text.IsBoundary content i.offset := by
        obtain ⟨i, hi, hbad⟩ := hbad
        obtain rfl | hi := List.mem_cons.1 hi
        · exact absurd hfirst hbad
        · exact ⟨i, hi, hbad⟩
      obtain ⟨i, hi, hno, hmax, herror⟩ := @ih (first.insertInto text) horder hrest
      refine ⟨i, List.mem_cons_of_mem _ hi, hno, ?_, ?_⟩
      · exact List.forall_mem_cons.2 ⟨fun h => absurd hfirst h, hmax⟩
      · rw [List.foldlM_cons, makeInsertion, if_pos hfirst]
        exact herror
    · refine ⟨first, List.mem_cons_self, hfirst, ?_, ?_⟩
      · exact List.forall_mem_cons.2 ⟨fun _ => Nat.le_refl _, fun j hj _ => hbelow j hj⟩
      · rw [List.foldlM_cons, makeInsertion, if_neg hfirst]
        rfl

end Runs

variable {content : List Char} {insertions : List Insertion}

/-- An edit at positions of the text gives the splice. -/
theorem applyInsertions_of_isBoundary
    (h : ∀ i ∈ insertions, Text.IsBoundary content i.offset) :
    applyInsertions content insertions = .ok (splice insertions content) := by
  have hpending : ∀ i ∈ Insertion.schedule insertions, Text.IsBoundary content i.offset :=
    fun i hi => h i ((Insertion.perm_schedule insertions).mem_iff.1 hi)
  have hrun : (Insertion.schedule insertions).foldlM (makeInsertion content) (splice [] content) =
      .ok (splice ((Insertion.schedule insertions).reverse ++ []) content) :=
    foldlM_makeInsertion (Insertion.pairwise_schedule insertions) (by simp) hpending
  rw [splice_nil, List.append_nil] at hrun
  rw [applyInsertions, hrun, splice, splice]
  congr 1
  exact interleave_congr fun n _ => Insertion.textsAt_reverse_schedule insertions n

/-- An edit with an offset that is no position of the text reports the highest such offset. -/
theorem applyInsertions_eq_error (h : ∃ i ∈ insertions, ¬ Text.IsBoundary content i.offset) :
    ∃ i ∈ insertions, ¬ Text.IsBoundary content i.offset ∧
      (∀ j ∈ insertions, ¬ Text.IsBoundary content j.offset → j.offset ≤ i.offset) ∧
      applyInsertions content insertions =
        .error (.invalidOffset i.offset (Text.byteLength content)) := by
  simp only [← (Insertion.perm_schedule insertions).mem_iff] at h ⊢
  exact foldlM_makeInsertion_eq_error (Insertion.pairwise_schedule insertions) h

theorem exists_error_iff : (∃ error, applyInsertions content insertions = .error error) ↔
    ∃ i ∈ insertions, ¬ Text.IsBoundary content i.offset := by
  constructor
  · rintro ⟨error, herror⟩
    by_contra hgood
    push Not at hgood
    rw [applyInsertions_of_isBoundary hgood] at herror
    cases herror
  · intro hbad
    obtain ⟨i, -, -, -, herror⟩ := applyInsertions_eq_error hbad
    exact ⟨_, herror⟩

/-- What an edit does depends on the insertions at each offset only. -/
theorem applyInsertions_congr {permuted : List Insertion}
    (h : ∀ offset, permuted.filter (·.offset = offset) = insertions.filter (·.offset = offset)) :
    applyInsertions content permuted = applyInsertions content insertions := by
  have hmem : ∀ i, i ∈ permuted ↔ i ∈ insertions := by
    intro i
    have := congrArg (i ∈ ·) (h i.offset)
    simpa using this
  by_cases hbad : ∃ i ∈ insertions, ¬ Text.IsBoundary content i.offset
  · obtain ⟨i, hi, hno, hmax, herror⟩ := applyInsertions_eq_error hbad
    have hbad' : ∃ i ∈ permuted, ¬ Text.IsBoundary content i.offset := by simpa [hmem]
    obtain ⟨j, hj, hno', hmax', herror'⟩ := applyInsertions_eq_error hbad'
    have hsame : j.offset = i.offset :=
      Nat.le_antisymm (hmax j ((hmem j).1 hj) hno') (hmax' i ((hmem i).2 hi) hno)
    rw [herror, herror', hsame]
  · push Not at hbad
    have htexts : textsAt permuted = textsAt insertions := by
      funext offset
      rw [textsAt, textsAt, h]
    rw [applyInsertions_of_isBoundary hbad,
      applyInsertions_of_isBoundary fun i hi => hbad i ((hmem i).1 hi), splice, splice, htexts]

/-- An edit fails if and only if an offset of it is no position of the text, such as one past its
end. It reports the highest such offset and the length of the text. Otherwise the text after it is
the splice, in which all bytes of the text are left in order. Only the order of the insertions at
one offset matters, so those at different offsets may change places. -/
theorem applyInsertions_eq_splice (content : List Char) (insertions : List Insertion) :
    ((∃ error, applyInsertions content insertions = .error error) ↔
      ∃ i ∈ insertions, ¬ Text.IsBoundary content i.offset) ∧
    (∀ i ∈ insertions, Text.byteLength content < i.offset →
      ¬ Text.IsBoundary content i.offset) ∧
    (∀ error, applyInsertions content insertions = .error error →
      ∃ i ∈ insertions, ¬ Text.IsBoundary content i.offset ∧
        (∀ j ∈ insertions, ¬ Text.IsBoundary content j.offset → j.offset ≤ i.offset) ∧
        error = .invalidOffset i.offset (Text.byteLength content)) ∧
    (∀ result, applyInsertions content insertions = .ok result →
      result = splice insertions content ∧
      Text.bytes result = spliceBytes insertions (Text.bytes content) ∧
      (Text.bytes content).Sublist (Text.bytes result)) ∧
    ∀ permuted : List Insertion,
      (∀ offset, permuted.filter (·.offset = offset) = insertions.filter (·.offset = offset)) →
      applyInsertions content permuted = applyInsertions content insertions := by
  refine ⟨exists_error_iff, fun i _ hlt hi => ?_, fun error herror => ?_, fun result hresult => ?_,
    fun permuted => applyInsertions_congr⟩
  · have := hi.le_byteLength
    omega
  · obtain ⟨i, hi, hno, hmax, hreport⟩ := applyInsertions_eq_error (exists_error_iff.1 ⟨_, herror⟩)
    exact ⟨i, hi, hno, hmax, Except.error.inj (herror.symm.trans hreport)⟩
  · have hgood : ∀ i ∈ insertions, Text.IsBoundary content i.offset := by
      by_contra hbad
      push Not at hbad
      obtain ⟨error, herror⟩ := exists_error_iff.2 hbad
      cases hresult.symm.trans herror
    obtain rfl := Except.ok.inj ((applyInsertions_of_isBoundary hgood).symm.trans hresult)
    exact ⟨rfl, bytes_splice hgood, sublist_interleave.flatMap _⟩

example : splice [⟨3, "x"⟩, ⟨1, "b"⟩, ⟨3, "y"⟩] "aéc".toList = "abéxyc".toList := by
  decide

end ClassEdit
