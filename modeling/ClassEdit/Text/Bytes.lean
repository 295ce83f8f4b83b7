/-!
# Byte offsets in a text

A text is the list of its characters, and a position in it is the number of UTF-8 bytes before it.
An offset that falls inside a character, or past the end, is no position: splitting there fails.

## Main definitions

* `byteLength`: the number of bytes of a text.
* `splitAt?`: the two parts of a text around an offset.
* `slice?`: the part of a text between two offsets.
* `IsBoundary`: the offset is a position of the text.
-/

namespace ClassEdit.Text

/-- The number of bytes of a text. -/
def byteLength : List Char → Nat
  | [] => 0
  | c :: cs => c.utf8Size + byteLength cs

@[simp]
theorem byteLength_nil : byteLength [] = 0 := rfl

@[simp]
theorem byteLength_cons (c : Char) (cs : List Char) :
    byteLength (c :: cs) = c.utf8Size + byteLength cs := rfl

@[simp]
theorem byteLength_append (xs ys : List Char) :
    byteLength (xs ++ ys) = byteLength xs + byteLength ys := by
  induction xs with
  | nil => simp
  | cons c cs ih => simp [ih, Nat.add_assoc]

/-- Splits a text at a byte offset. There is no split inside a character or past the end. -/
def splitAt? : List Char → Nat → Option (List Char × List Char)
  | cs, 0 => some ([], cs)
  | [], _ + 1 => none
  | c :: cs, n + 1 =>
    if c.utf8Size ≤ n + 1 then
      (splitAt? cs (n + 1 - c.utf8Size)).map fun parts => (c :: parts.1, parts.2)
    else none

@[simp]
theorem splitAt?_zero (cs : List Char) : splitAt? cs 0 = some ([], cs) := by
  cases cs <;> rfl

/-- Splitting after a first part gives back the two parts. -/
@[simp]
theorem splitAt?_append (xs ys : List Char) :
    splitAt? (xs ++ ys) (byteLength xs) = some (xs, ys) := by
  induction xs with
  | nil => simp
  | cons c cs ih =>
    obtain ⟨k, hk⟩ : ∃ k, byteLength (c :: cs) = k + 1 :=
      ⟨byteLength (c :: cs) - 1, by have := c.utf8Size_pos; simp; omega⟩
    have hsub : k + 1 - c.utf8Size = byteLength cs := by simp at hk; omega
    have hle : c.utf8Size ≤ k + 1 := by simp at hk; omega
    rw [hk, List.cons_append, splitAt?, if_pos hle, hsub, ih]
    rfl

/-- The parts of a split make up the text, and the first has the length of the offset. -/
theorem splitAt?_eq_some {cs : List Char} {n : Nat} {parts : List Char × List Char}
    (h : splitAt? cs n = some parts) : cs = parts.1 ++ parts.2 ∧ byteLength parts.1 = n := by
  fun_induction splitAt? cs n generalizing parts with
  | case1 cs => cases h; simp
  | case2 => simp at h
  | case3 c cs n hle ih =>
    obtain ⟨inner, hinner, rfl⟩ := Option.map_eq_some_iff.1 h
    obtain ⟨rfl, hlen⟩ := ih hinner
    simp [hlen]
    omega
  | case4 => simp at h

/-- The offset is a position of the text: the end of the text or the first byte of a character. -/
def IsBoundary (cs : List Char) (offset : Nat) : Prop :=
  (splitAt? cs offset).isSome

instance (cs : List Char) (offset : Nat) : Decidable (IsBoundary cs offset) :=
  inferInstanceAs (Decidable ((splitAt? cs offset).isSome = true))

/-- What follows the offset. -/
def dropBytes? (cs : List Char) (offset : Nat) : Option (List Char) :=
  (splitAt? cs offset).map Prod.snd

/-- The text from byte `start` up to byte `stop`. -/
def slice? (cs : List Char) (start stop : Nat) : Option (List Char) :=
  if start ≤ stop then do
    let rest ← dropBytes? cs start
    let parts ← splitAt? rest (stop - start)
    return parts.1
  else none

end ClassEdit.Text
