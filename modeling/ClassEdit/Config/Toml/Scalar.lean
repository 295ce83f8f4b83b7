import ClassEdit.Config.Toml.Value
import ClassEdit.Text.Blank
import ClassEdit.Text.Search

/-!
# TOML words: booleans, numbers and times

A value that is neither quoted nor bracketed is one word. A date may be followed by a space and a
time.

## Main definitions

* `isInteger`, `isFloat`, `isTime`, `isDate`, `isDateTime`: the forms of a word.
* `scalar?`: the value of a word.
-/

namespace ClassEdit.Toml

/-! ## Numbers -/

/-- The text after a sign, if there is one. -/
def dropSign : List Char → List Char
  | '+' :: cs | '-' :: cs => cs
  | cs => cs

/-- Whether the text consists of digits, with single underscores between some of them. -/
def isDigits (isDigit : Char → Bool) (cs : List Char) : Bool :=
  (Text.parts (· = '_') cs).all fun group => !group.isEmpty && group.all isDigit

/-- The number that digits stand for. Underscores do not count. -/
def digitsValue (base : Nat) (cs : List Char) : Nat :=
  (cs.filter (· ≠ '_')).foldl (fun n c => n * base +
    (if c.isDigit then c.toNat - 48 else c.toLower.toNat - 87)) 0

/-- Whether the text is a decimal number without superfluous zeros. -/
def isDecimal (cs : List Char) : Bool :=
  isDigits Char.isDigit (dropSign cs) &&
    ((dropSign cs).length = 1 || (dropSign cs).head? ≠ some '0')

/-- Whether the character is a hexadecimal digit. -/
def isHexDigit (c : Char) : Bool :=
  c.isDigit || ('a' ≤ c && c ≤ 'f') || ('A' ≤ c && c ≤ 'F')

/-- Whether the word is an integer that fits in 64 bits. -/
def isInteger : List Char → Bool
  | '0' :: 'x' :: cs => isDigits isHexDigit cs && digitsValue 16 cs < Nat.pow 2 63
  | '0' :: 'o' :: cs => isDigits (fun c => '0' ≤ c && c ≤ '7') cs && digitsValue 8 cs < Nat.pow 2 63
  | '0' :: 'b' :: cs => isDigits (fun c => c = '0' || c = '1') cs && digitsValue 2 cs < Nat.pow 2 63
  | cs =>
    isDecimal cs &&
      (digitsValue 10 (dropSign cs) < Nat.pow 2 63 ||
        (cs.head? = some '-' && digitsValue 10 (dropSign cs) = Nat.pow 2 63))

/-- The parts of a text before and after the first character that `sep` marks. -/
def splitFirst (sep : Char → Bool) (cs : List Char) : List Char × Option (List Char) :=
  match cs.dropWhile (fun c => !sep c) with
  | [] => (cs, none)
  | _ :: after => (cs.takeWhile (fun c => !sep c), some after)

/-- Whether `digits · 10 ^ (exponent - places)` is too large for a double, that is at least
`2 ^ 1024 - 2 ^ 970`. -/
def isHuge (digits : List Char) (exponent : Int) (places : Nat) : Bool :=
  let significant := (digits.filter (· ≠ '_')).dropWhile (· = '0')
  let top := significant.length + exponent - places
  if significant.isEmpty || top < 309 then false
  else if top > 310 then true
  else
    let value := digitsValue 10 significant
    let shift := exponent - places
    decide (value * Nat.pow 10 shift.toNat ≥
      (Nat.pow 2 1024 - Nat.pow 2 970) * Nat.pow 10 (-shift).toNat)

/-- Whether the word is a float: a decimal number with a fraction, an exponent or both. A positive
one has to be finite as a double. -/
def isFloat (cs : List Char) : Bool :=
  let (mantissa, exponent) := splitFirst (fun c => c = 'e' || c = 'E') cs
  let (whole, fraction) := splitFirst (· = '.') mantissa
  let exponentDigits := (exponent.map dropSign).getD ['0']
  let exponentValue : Int :=
    let n := digitsValue 10 exponentDigits
    if exponent.any (·.head? = some '-') then -n else n
  let fractionDigits := fraction.getD []
  (exponent.isSome || fraction.isSome) && isDecimal whole &&
    fraction.all (isDigits Char.isDigit) && isDigits Char.isDigit exponentDigits &&
    (cs.head? = some '-' ||
      !isHuge (dropSign whole ++ fractionDigits) exponentValue
        (fractionDigits.filter (· ≠ '_')).length)

/-- Whether the word is infinite or not a number. -/
def isSpecialFloat (cs : List Char) : Bool :=
  dropSign cs = "inf".toList || dropSign cs = "nan".toList

/-! ## Dates and times -/

/-- The number that two digits at the start of a text stand for, if it is at most `limit`. -/
def twoDigits? (limit : Nat) : List Char → Option (Nat × List Char)
  | a :: b :: rest =>
    if a.isDigit && b.isDigit && digitsValue 10 [a, b] ≤ limit then
      some (digitsValue 10 [a, b], rest)
    else none
  | _ => none

/-- What follows a given character at the start of a text. -/
def after? (c : Char) (cs : List Char) : Option (List Char) :=
  Text.stripStart? [c] cs

/-- The number of days of a month. -/
def daysOfMonth (year month : Nat) : Nat :=
  if month = 2 then
    if year % 4 = 0 && (year % 100 ≠ 0 || year % 400 = 0) then 29 else 28
  else if month = 4 || month = 6 || month = 9 || month = 11 then 30
  else 31

/-- What follows a date at the start of a text. -/
def afterDate? (cs : List Char) : Option (List Char) := do
  let (century, rest) ← twoDigits? 99 cs
  let (year, rest) ← twoDigits? 99 rest
  let (month, rest) ← twoDigits? 12 (← after? '-' rest)
  let (day, rest) ← twoDigits? 31 (← after? '-' rest)
  if 1 ≤ month && 1 ≤ day && day ≤ daysOfMonth (century * 100 + year) month then some rest
  else none

/-- What follows a time at the start of a text. -/
def afterTime? (cs : List Char) : Option (List Char) := do
  let (_, rest) ← twoDigits? 23 cs
  let (_, rest) ← twoDigits? 59 (← after? ':' rest)
  let (_, rest) ← twoDigits? 60 (← after? ':' rest)
  match rest with
  | '.' :: fraction =>
    if fraction.head?.any Char.isDigit then some (fraction.dropWhile Char.isDigit) else none
  | _ => some rest

/-- Whether the text is the offset of a time zone. -/
def isZone : List Char → Bool
  | ['Z'] | ['z'] => true
  | '+' :: cs | '-' :: cs =>
    (do
      let (_, rest) ← twoDigits? 23 cs
      let (_, rest) ← twoDigits? 59 (← after? ':' rest)
      if rest.isEmpty then some () else none).isSome
  | _ => false

/-- Whether the word is a time of a day. -/
def isTime (cs : List Char) : Bool :=
  afterTime? cs = some []

/-- Whether the word is a time of a day, with or without a time zone. -/
def isZonedTime (cs : List Char) : Bool :=
  (afterTime? cs).any fun rest => rest.isEmpty || isZone rest

/-- Whether the word is a date. -/
def isDate (cs : List Char) : Bool :=
  afterDate? cs = some []

/-- Whether the word is a date with a time. -/
def isDateTime (cs : List Char) : Bool :=
  match afterDate? cs with
  | some ('T' :: time) | some ('t' :: time) => isZonedTime time
  | _ => false

/-! ## Words -/

/-- Whether the character may stand in a word. -/
def isScalarChar (c : Char) : Bool :=
  c.isAlphanum || c = '+' || c = '-' || c = '_' || c = '.' || c = ':'

/-- The value of the word at the start of a text, and what follows it. -/
def scalar? (cs : List Char) : Option (Value × List Char) :=
  let word := cs.takeWhile isScalarChar
  let rest := cs.dropWhile isScalarChar
  if word = "true".toList then some (.bool true, rest)
  else if word = "false".toList then some (.bool false, rest)
  else if isDate word then
    match rest with
    | ' ' :: later =>
      let time := later.takeWhile isScalarChar
      if time.isEmpty then some (.dateTime, rest)
      else if isZonedTime time then some (.dateTime, later.dropWhile isScalarChar)
      else none
    | _ => some (.dateTime, rest)
  else if isDateTime word || isTime word then some (.dateTime, rest)
  else if isInteger word || isFloat word || isSpecialFloat word then some (.number, rest)
  else none

end ClassEdit.Toml
