import Mathlib.Data.List.Basic

/-!
# Lists with separators

A list is written as its entries with a separator between them and a closing mark after the last
one. If an entry can be told from any other one up to a separator or a closing mark, then so can the
list: equal texts have equal entries and go on equally.

## Main definitions

* `StartsIn`: a text is empty or starts with one of the given marks.
* `Separable`: two entries are told apart by what may come after them.

## Main statements

* `separable_of_append`, `separable_of_notMem`: when entries are told apart.
* `intercalate_cancel`: equal texts of lists have equal entries.
-/

namespace ClassEdit

variable {α : Type*}

/-- A text that is empty or starts with one of the marks. -/
def StartsIn (marks text : List α) : Prop :=
  ∀ a ∈ text.head?, a ∈ marks

theorem StartsIn.nil (marks : List α) : StartsIn marks [] := by
  simp [StartsIn]

theorem startsIn_cons {marks : List α} {a : α} {text : List α} :
    StartsIn marks (a :: text) ↔ a ∈ marks := by
  simp [StartsIn]

/-- Entries that are equal whenever the texts are that they start, if these go on with marks. -/
def Separable (marks x y : List α) : Prop :=
  ∀ ⦃rest rest'⦄, StartsIn marks rest → StartsIn marks rest' → x ++ rest = y ++ rest' → x = y

/-- Of two entries neither goes on with a mark where the other ends. -/
theorem separable_of_append {marks x y : List α}
    (hx : ∀ more, y = x ++ more → StartsIn marks more → more = [])
    (hy : ∀ more, x = y ++ more → StartsIn marks more → more = []) : Separable marks x y := by
  have hfront : ∀ {more rest : List α}, StartsIn marks (more ++ rest) → StartsIn marks more := by
    rintro (_ | ⟨a, more⟩) rest h
    · exact .nil marks
    · exact startsIn_cons.2 (startsIn_cons.1 h)
  intro rest rest' hrest hrest' htexts
  obtain ⟨more, rfl, rfl⟩ | ⟨more, rfl, rfl⟩ := List.append_eq_append_iff.1 htexts
  · rw [hx more rfl (hfront hrest), List.append_nil]
  · rw [hy more rfl (hfront hrest'), List.append_nil]

theorem separable_of_notMem {mark : α} {x y : List α} (hx : mark ∉ x) (hy : mark ∉ y) :
    Separable [mark] x y := by
  have hnil : ∀ {front more : List α}, mark ∉ front ++ more → StartsIn [mark] more →
      more = [] := by
    rintro front (_ | ⟨a, more⟩) hmem hstart
    · rfl
    · obtain rfl := List.mem_singleton.1 (startsIn_cons.1 hstart)
      exact absurd (by simp) hmem
  exact separable_of_append (fun more h => hnil (h ▸ hy)) fun more h => hnil (h ▸ hx)

/-- The entries after the first one have their separators in front. -/
theorem intercalate_cons (separator x : List α) (xs : List (List α)) :
    separator.intercalate (x :: xs) = x ++ xs.flatMap (separator ++ ·) := by
  induction xs generalizing x with
  | nil => simp
  | cons y ys ih => rw [List.intercalate_cons_cons, ih]; simp

section

variable {marks : List α} {comma close : α} {space : List α} {xs ys : List (List α)}
  {rest rest' : List α}

/-- Where a list goes on, a mark follows. -/
theorem startsIn_flatMap_append (hcomma : comma ∈ marks) (hclose : close ∈ marks)
    (xs : List (List α)) (rest : List α) :
    StartsIn marks (xs.flatMap (comma :: space ++ ·) ++ close :: rest) := by
  cases xs <;> simpa [StartsIn]

theorem flatMap_cancel (hcomma : comma ∈ marks) (hclose : close ∈ marks) (hne : comma ≠ close)
    (hseparable : ∀ x ∈ xs, ∀ y ∈ ys, Separable marks x y)
    (h : xs.flatMap (comma :: space ++ ·) ++ close :: rest =
      ys.flatMap (comma :: space ++ ·) ++ close :: rest') :
    xs = ys ∧ rest = rest' := by
  induction xs generalizing ys with
  | nil =>
    cases ys with
    | nil => simpa using h
    | cons y ys => exact absurd (by simpa using congrArg List.head? h) hne.symm
  | cons x xs ih =>
    cases ys with
    | nil => exact absurd (by simpa using congrArg List.head? h) hne
    | cons y ys =>
      have htexts : x ++ (xs.flatMap (comma :: space ++ ·) ++ close :: rest) =
          y ++ (ys.flatMap (comma :: space ++ ·) ++ close :: rest') := by
        simpa using h
      obtain rfl : x = y := hseparable x (by simp) y (by simp)
        (startsIn_flatMap_append hcomma hclose xs rest)
        (startsIn_flatMap_append hcomma hclose ys rest') htexts
      obtain ⟨rfl, rfl⟩ := ih
        (fun u hu v hv => hseparable u (by simp [hu]) v (by simp [hv]))
        (List.append_cancel_left htexts)
      exact ⟨rfl, rfl⟩

/-- Lists with equal texts up to a closing mark have equal entries, and the texts go on equally. -/
theorem intercalate_cancel (hcomma : comma ∈ marks) (hclose : close ∈ marks) (hne : comma ≠ close)
    (hxs : ∀ x ∈ xs, x ≠ [] ∧ x.head? ≠ some close) (hys : ∀ y ∈ ys, y ≠ [] ∧ y.head? ≠ some close)
    (hseparable : ∀ x ∈ xs, ∀ y ∈ ys, Separable marks x y)
    (h : (comma :: space).intercalate xs ++ close :: rest =
      (comma :: space).intercalate ys ++ close :: rest') :
    xs = ys ∧ rest = rest' := by
  have hstart : ∀ {x : List α} {more : List α}, x ≠ [] ∧ x.head? ≠ some close →
      (x ++ more).head? ≠ some close := by
    rintro (_ | ⟨a, x⟩) more ⟨hnil, hhead⟩
    · exact absurd rfl hnil
    · exact hhead
  cases xs with
  | nil =>
    cases ys with
    | nil => simpa using h
    | cons y ys =>
      rw [intercalate_cons, List.append_assoc] at h
      exact absurd (congrArg List.head? h).symm (hstart (hys y (by simp)))
  | cons x xs =>
    cases ys with
    | nil =>
      rw [intercalate_cons, List.append_assoc] at h
      exact absurd (congrArg List.head? h) (hstart (hxs x (by simp)))
    | cons y ys =>
      -- with a separator in front of both, all entries have one
      have htexts : (x :: xs).flatMap (comma :: space ++ ·) ++ close :: rest =
          (y :: ys).flatMap (comma :: space ++ ·) ++ close :: rest' := by
        simpa [intercalate_cons] using h
      exact flatMap_cancel hcomma hclose hne hseparable htexts

end

end ClassEdit
