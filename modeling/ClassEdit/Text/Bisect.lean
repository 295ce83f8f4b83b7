/-!
# Binary search

A table whose first entries satisfy a condition and whose later ones do not is divided by
bisection.

## Main definitions

* `bisect`: the first index of an interval at which a condition fails.
* `partitionPoint`: the number of leading entries of an array that satisfy a condition.
-/

namespace ClassEdit

/-- The first index of `[low, high)` at which the condition fails, or `high`, for a condition that
never holds again once it has failed. -/
def bisect (holds : Nat → Bool) (low high : Nat) : Nat :=
  if low < high then
    let mid := (low + high) / 2
    if holds mid then bisect holds (mid + 1) high else bisect holds low mid
  else low
termination_by high - low

/-- The number of entries that satisfy the condition, for an array in which they come first. -/
def partitionPoint {α : Type} (holds : α → Bool) (table : Array α) : Nat :=
  bisect (fun i => table[i]?.any holds) 0 table.size

end ClassEdit
