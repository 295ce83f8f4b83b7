/-!
# Sets of characters as code point ranges

The character classes of this library are finite unions of closed code point ranges.

## Main definitions

* `inRanges`: membership of a code point in a list of ranges.
-/

namespace ClassEdit.Text

/-- Whether the code point `n` lies in one of the closed ranges. -/
def inRanges (ranges : List (Nat × Nat)) (n : Nat) : Bool :=
  ranges.any fun range => range.1 ≤ n && n ≤ range.2

theorem inRanges_iff {ranges : List (Nat × Nat)} {n : Nat} :
    inRanges ranges n = true ↔ ∃ range ∈ ranges, range.1 ≤ n ∧ n ≤ range.2 := by
  simp [inRanges]

end ClassEdit.Text
