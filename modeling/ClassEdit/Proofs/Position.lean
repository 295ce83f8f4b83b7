import ClassEdit.Text.Blank
import ClassEdit.Text.Bytes
import ClassEdit.Text.Search
import Mathlib.Data.List.TakeWhile

/-!
# Positions of a text

What a text has at an offset is said by dividing it there: the part before has as many bytes as the
offset. The functions that look up offsets are characterised in these words, so that later
arguments compare parts of texts and never count bytes of characters.

## Main statements

* `splitAt?_eq_some_iff`, `dropBytes?_eq_some_iff`, `slice?_eq_some_iff`: lookups as divisions.
* `append_inj_of_le`: of two divisions of a text the earlier one divides the first part of the
  later one.
* `newlineOffset?_eq_some_iff`: the first newline.
-/

namespace ClassEdit.Text

variable {cs xs ys zs : List Char} {n start stop : Nat}

theorem byteLength_eq_zero : byteLength cs = 0 ↔ cs = [] := by
  cases cs with
  | nil => simp
  | cons c cs =>
    have := c.utf8Size_pos
    simp
    omega

theorem splitAt?_eq_some_iff :
    splitAt? cs n = some (xs, ys) ↔ cs = xs ++ ys ∧ byteLength xs = n := by
  constructor
  · exact splitAt?_eq_some
  · rintro ⟨rfl, rfl⟩
    exact splitAt?_append xs ys

/-! ## Boundaries -/

theorem isBoundary_iff : IsBoundary cs n ↔ ∃ xs ys, cs = xs ++ ys ∧ byteLength xs = n := by
  simp only [IsBoundary, Option.isSome_iff_exists, Prod.exists, splitAt?_eq_some_iff]

theorem isBoundary_append (xs ys : List Char) : IsBoundary (xs ++ ys) (byteLength xs) :=
  isBoundary_iff.2 ⟨xs, ys, rfl, rfl⟩

theorem IsBoundary.le_byteLength (h : IsBoundary cs n) : n ≤ byteLength cs := by
  obtain ⟨xs, ys, rfl, rfl⟩ := isBoundary_iff.1 h
  simp

/-! ## Parts -/

theorem dropBytes?_eq_some_iff :
    dropBytes? cs n = some ys ↔ ∃ xs, cs = xs ++ ys ∧ byteLength xs = n := by
  simp only [dropBytes?, Option.map_eq_some_iff, Prod.exists, splitAt?_eq_some_iff,
    exists_eq_right]

theorem slice?_eq_some_iff :
    slice? cs start stop = some ys ↔
      ∃ xs zs, cs = xs ++ ys ++ zs ∧ byteLength xs = start ∧ start + byteLength ys = stop := by
  constructor
  · intro h
    rw [slice?] at h
    split at h
    case isFalse => cases h
    case isTrue hle =>
      obtain ⟨rest, hrest, h⟩ := Option.bind_eq_some_iff.1 h
      obtain ⟨⟨part, after⟩, hpart, h⟩ := Option.bind_eq_some_iff.1 h
      obtain rfl : part = ys := Option.some.inj h
      obtain ⟨xs, rfl, hxs⟩ := dropBytes?_eq_some_iff.1 hrest
      obtain ⟨rfl, hlen⟩ := splitAt?_eq_some_iff.1 hpart
      exact ⟨xs, after, by simp, hxs, by omega⟩
  · rintro ⟨xs, zs, rfl, rfl, rfl⟩
    have hrest : dropBytes? (xs ++ ys ++ zs) (byteLength xs) = some (ys ++ zs) :=
      dropBytes?_eq_some_iff.2 ⟨xs, by simp, rfl⟩
    have hpart : splitAt? (ys ++ zs) (byteLength xs + byteLength ys - byteLength xs) =
        some (ys, zs) := splitAt?_eq_some_iff.2 ⟨rfl, by omega⟩
    rw [slice?, if_pos (by omega), hrest]
    simp only [Option.bind_eq_bind, Option.bind_some, hpart]
    rfl

/-- Of two divisions of a text the earlier one divides the first part of the later one. -/
theorem append_inj_of_le {xs' ys' : List Char} (h : xs ++ ys = xs' ++ ys')
    (hle : byteLength xs ≤ byteLength xs') : ∃ mid, xs' = xs ++ mid ∧ ys = mid ++ ys' := by
  obtain ⟨mid, hxs, hys⟩ | ⟨mid, hxs, hys⟩ := List.append_eq_append_iff.1 h
  · exact ⟨mid, hxs, hys⟩
  · have hmid : byteLength mid = 0 := by
      rw [hxs, byteLength_append] at hle
      omega
    obtain rfl := byteLength_eq_zero.1 hmid
    exact ⟨[], by simpa using hxs.symm, by simpa using hys.symm⟩

/-- Between two boundaries there is a part of the text. -/
theorem IsBoundary.exists_slice? (hstart : IsBoundary cs start) (hstop : IsBoundary cs stop)
    (hle : start ≤ stop) : ∃ part, slice? cs start stop = some part := by
  obtain ⟨xs, ys, rfl, rfl⟩ := isBoundary_iff.1 hstart
  obtain ⟨xs', ys', h, rfl⟩ := isBoundary_iff.1 hstop
  obtain ⟨mid, rfl, rfl⟩ := append_inj_of_le h hle
  exact ⟨mid, slice?_eq_some_iff.2 ⟨xs, ys', by simp, rfl, by simp⟩⟩

theorem isBoundary_start_of_slice? (h : slice? cs start stop = some ys) : IsBoundary cs start := by
  obtain ⟨xs, zs, rfl, rfl, _⟩ := slice?_eq_some_iff.1 h
  rw [List.append_assoc]
  exact isBoundary_append _ _

theorem isBoundary_stop_of_slice? (h : slice? cs start stop = some ys) : IsBoundary cs stop := by
  obtain ⟨xs, zs, rfl, rfl, rfl⟩ := slice?_eq_some_iff.1 h
  rw [← byteLength_append]
  exact isBoundary_append _ _

theorem byteLength_of_slice? (h : slice? cs start stop = some ys) :
    start + byteLength ys = stop := by
  obtain ⟨_, _, _, _, hlen⟩ := slice?_eq_some_iff.1 h
  exact hlen

/-- A part that lies inside of another part is a part of that part. -/
theorem infix_of_slice? {part : List Char} (h : slice? (xs ++ ys ++ zs) start stop = some part)
    (hstart : byteLength xs ≤ start) (hstop : stop ≤ byteLength (xs ++ ys)) : part <:+: ys := by
  obtain ⟨before, after, heq, rfl, rfl⟩ := slice?_eq_some_iff.1 h
  have hbefore : xs ++ (ys ++ zs) = before ++ (part ++ after) := by simpa using heq
  obtain ⟨u, rfl, hys⟩ := append_inj_of_le hbefore hstart
  have hle : byteLength (u ++ part) ≤ byteLength ys := by
    simp at hstop ⊢
    omega
  have hpart : (u ++ part) ++ after = ys ++ zs := by simpa using hys.symm
  obtain ⟨v, rfl, _⟩ := append_inj_of_le hpart hle
  exact ⟨u, v, rfl⟩

/-- A character that a part lacks stands before the part or after it. -/
theorem byteLength_le_of_slice? {c : Char} (h : slice? (xs ++ ys ++ zs) start stop = some [c])
    (hc : c ∉ ys) (hle : byteLength xs ≤ start) : byteLength (xs ++ ys) ≤ start := by
  obtain ⟨before, after, heq, rfl, -⟩ := slice?_eq_some_iff.1 h
  by_contra hlt
  have hbefore : xs ++ (ys ++ zs) = before ++ (c :: after) := by simpa using heq
  obtain ⟨u, rfl, hys⟩ := append_inj_of_le hbefore hle
  have hu : byteLength u ≤ byteLength ys := by
    simp at hlt
    omega
  obtain ⟨v, rfl, hv⟩ := append_inj_of_le hys.symm hu
  cases v with
  | nil => simp at hlt
  | cons d v =>
    obtain ⟨rfl, -⟩ := List.cons_eq_cons.1 hv
    simp at hc

/-! ## Newlines -/

theorem utf8Size_newline : '\n'.utf8Size = 1 := rfl

/-- The first newline divides the text into a part without newlines and the rest. -/
theorem newlineOffset?_eq_some_iff :
    newlineOffset? cs = some n ↔
      ∃ xs ys, cs = xs ++ '\n' :: ys ∧ '\n' ∉ xs ∧ byteLength xs = n := by
  induction cs generalizing n with
  | nil => simp [newlineOffset?]
  | cons c cs ih =>
    by_cases hc : c = '\n'
    · subst hc
      simp only [newlineOffset?, if_true, Option.some.injEq]
      constructor
      · rintro rfl
        exact ⟨[], cs, rfl, by simp, rfl⟩
      · rintro ⟨xs, ys, heq, hxs, rfl⟩
        cases xs with
        | nil => rfl
        | cons x xs => simp_all
    · rw [newlineOffset?, if_neg hc, Option.map_eq_some_iff]
      constructor
      · rintro ⟨k, hk, rfl⟩
        obtain ⟨xs, ys, rfl, hxs, rfl⟩ := ih.1 hk
        exact ⟨c :: xs, ys, rfl, by simp [hxs, Ne.symm hc], by simp [Nat.add_comm]⟩
      · rintro ⟨xs, ys, heq, hxs, rfl⟩
        cases xs with
        | nil => simp_all
        | cons x xs =>
          obtain ⟨rfl, rfl⟩ := List.cons_eq_cons.1 heq
          exact ⟨byteLength xs, ih.2 ⟨xs, ys, rfl, by simp_all, rfl⟩, by simp [Nat.add_comm]⟩

theorem newlineOffset?_append (xs ys : List Char) :
    newlineOffset? (xs ++ ys) =
      (newlineOffset? xs).or ((newlineOffset? ys).map (byteLength xs + ·)) := by
  induction xs with
  | nil => simp [newlineOffset?]
  | cons c cs ih =>
    by_cases hc : c = '\n'
    · simp [newlineOffset?, hc]
    · cases hcs : newlineOffset? cs <;> cases hys : newlineOffset? ys <;>
        simp [newlineOffset?, hc, ih, hcs, hys]
      omega

/-! ## Blanks -/

theorem isBlank_newline : isBlank '\n' = true := rfl

/-- A text is blank if nothing is left after trimming. -/
theorem trim_eq_nil_iff : trim cs = [] ↔ ∀ c ∈ cs, isBlank c = true := by
  constructor
  · intro h
    by_contra hvisible
    rw [← List.dropWhile_eq_nil_iff] at hvisible
    have hc := List.head_dropWhile_not isBlank hvisible
    rw [trim, trimEnd, List.reverse_eq_nil_iff, List.dropWhile_eq_nil_iff] at h
    have hblank := h _ (List.mem_reverse.2 (List.head_mem hvisible))
    simp [hblank] at hc
  · intro h
    rw [trim, trimStart, List.dropWhile_eq_nil_iff.2 h]
    rfl

/-- A text is what is left after trimming, between blanks. -/
theorem exists_eq_append_trim (cs : List Char) : ∃ front back, cs = front ++ trim cs ++ back ∧
    (∀ c ∈ front, isBlank c = true) ∧ ∀ c ∈ back, isBlank c = true := by
  have hend : trimStart cs = trim cs ++ ((trimStart cs).reverse.takeWhile isBlank).reverse := by
    rw [trim, trimEnd, ← List.reverse_append, List.takeWhile_append_dropWhile,
      List.reverse_reverse]
  refine ⟨cs.takeWhile isBlank, ((trimStart cs).reverse.takeWhile isBlank).reverse, ?_, ?_, ?_⟩
  · rw [List.append_assoc, ← hend, trimStart, List.takeWhile_append_dropWhile]
  · intro c hc
    exact List.mem_takeWhile_imp hc
  · intro c hc
    exact List.mem_takeWhile_imp (List.mem_reverse.1 hc)

end ClassEdit.Text
