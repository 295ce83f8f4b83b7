import ClassEdit.Text.Ranges

/-!
# Blanks

The characters with the Unicode property White_Space separate words and are trimmed from the ends
of a text.

## Main definitions

* `isBlank`: the character is white space.
* `trim`: a text without the blanks at its ends.
* `words`: the maximal runs of characters other than blanks.
-/

namespace ClassEdit.Text

/-- The white space above ASCII. -/
def blankRanges : List (Nat × Nat) :=
  [(0x85, 0x85), (0xA0, 0xA0), (0x1680, 0x1680), (0x2000, 0x200A), (0x2028, 0x2029),
   (0x202F, 0x202F), (0x205F, 0x205F), (0x3000, 0x3000)]

/-- Whether the character is white space. -/
def isBlank (c : Char) : Bool :=
  if c.toNat < 128 then c.toNat == 32 || (9 ≤ c.toNat && c.toNat ≤ 13)
  else inRanges blankRanges c.toNat

/-- The text without the blanks at its start. -/
def trimStart (cs : List Char) : List Char :=
  cs.dropWhile isBlank

/-- The text without the blanks at its end. -/
def trimEnd (cs : List Char) : List Char :=
  (cs.reverse.dropWhile isBlank).reverse

/-- The text without the blanks at its ends. -/
def trim (cs : List Char) : List Char :=
  trimEnd (trimStart cs)

/-- The string without the blanks at its ends. -/
def trimmed (s : String) : String :=
  String.ofList (trim s.toList)

/-- The parts of a text between the characters that `sep` marks; `n` marks give `n + 1` parts. -/
def parts (sep : Char → Bool) : List Char → List (List Char)
  | [] => [[]]
  | c :: cs =>
    if sep c then [] :: parts sep cs
    else match parts sep cs with
      | [] => [[c]]
      | part :: rest => (c :: part) :: rest

/-- A text has no marks, or it is a part without marks, a mark and another text. -/
theorem parts_induction (sep : Char → Bool) {motive : List Char → Prop}
    (last : ∀ part, (∀ c ∈ part, sep c = false) → motive part)
    (next : ∀ part c rest, (∀ d ∈ part, sep d = false) → sep c = true → motive rest →
      motive (part ++ c :: rest))
    (cs : List Char) : motive cs := by
  -- The start of the part has been read and has no marks.
  have hstart : ∀ cs part, (∀ c ∈ part, sep c = false) → motive (part ++ cs) := by
    intro cs
    induction cs with
    | nil => exact fun part hpart => (List.append_nil part).symm ▸ last part hpart
    | cons c cs ih =>
      intro part hpart
      cases hc : sep c with
      | true => exact next part c cs hpart hc (ih [] (by simp))
      | false =>
        have hlonger : ∀ d ∈ part ++ [c], sep d = false := by grind
        simpa using ih (part ++ [c]) hlonger
  exact hstart cs [] (by simp)

/-- The words of a text: its maximal runs without blanks. -/
def words (cs : List Char) : List (List Char) :=
  (parts isBlank cs).filter fun word => !word.isEmpty

end ClassEdit.Text
