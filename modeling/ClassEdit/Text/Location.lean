/-!
# Locations and ranges

A location is a byte offset of the text, or no place at all for what stands nowhere in it. A range
is a pair of locations and covers the bytes from the first up to the second.

## Main definitions

* `Location`: a byte offset or nowhere.
* `Range`: a half-open interval of bytes.
* `Range.merge`: the smallest range that covers two ranges.
-/

namespace ClassEdit

/-- A byte offset of the text, or `none` for what stands nowhere in it. -/
abbrev Location := Option Nat

/-- The bytes from `start` up to `stop`. A range with an end that stands nowhere is not valid and
covers nothing. -/
structure Range where
  start : Location
  stop : Location
deriving DecidableEq, Repr

namespace Range

/-- The range of what stands nowhere in the text. -/
def nowhere : Range := ⟨none, none⟩

/-- The bytes from `start` up to `stop`. -/
def ofOffsets (start stop : Nat) : Range := ⟨some start, some stop⟩

/-- The first offset of a valid range and the offset past its last byte. -/
def bounds? (r : Range) : Option (Nat × Nat) :=
  match r.start, r.stop with
  | some start, some stop => some (start, stop)
  | _, _ => none

/-- Whether both ends are offsets. -/
def isValid (r : Range) : Bool :=
  r.bounds?.isSome

/-- The number of bytes covered. -/
def length (r : Range) : Nat :=
  match r.bounds? with
  | some (start, stop) => stop - start
  | none => 0

/-- Whether no byte is covered. -/
def isEmpty (r : Range) : Bool :=
  r.length == 0

/-- The smallest range that covers both. A range that is not valid adds nothing. -/
def merge (r s : Range) : Range :=
  match r.bounds?, s.bounds? with
  | none, _ => s
  | _, none => r
  | some (start, stop), some (start', stop') => ofOffsets (min start start') (max stop stop')

/-- Whether the location is an offset of the range. -/
def contains (r : Range) (location : Location) : Bool :=
  match r.bounds?, location with
  | some (start, stop), some offset => start ≤ offset && offset < stop
  | _, _ => false

end Range

end ClassEdit
