import ClassEdit.Config.Toml.Scalar

/-!
# TOML strings

A string stands in quotation marks, in which a backslash escapes characters, or in apostrophes, in
which it does not; in one of them on one line, or in three of them on any number of lines.

## Main definitions

* `string?`: the string at the start of a text.
* `lineString?`: a string on one line.
-/

namespace ClassEdit.Toml

/-- Whether the character may stand as it is in a comment or a string. -/
def isPlainChar (c : Char) : Bool :=
  c = '\t' || (32 ≤ c.toNat && c.toNat ≠ 127)

/-- The character with the code point that hexadecimal digits give. -/
def codePoint? (digits : List Char) : Option Char :=
  let n := digitsValue 16 digits
  if digits.all isHexDigit && (n < 0xD800 || (0xDFFF < n && n < 0x110000)) then some (Char.ofNat n)
  else none

/-- The character that a one-letter escape stands for. -/
def escaped? : Char → Option Char
  | 'b' => some '\x08'
  | 't' => some '\t'
  | 'n' => some '\n'
  | 'f' => some '\x0c'
  | 'r' => some '\r'
  | '"' => some '"'
  | '\\' => some '\\'
  | _ => none

/-- A string and what follows it. -/
abbrev QuotedResult := Option (List Char × List Char)

/-- A string with one more character in front. -/
def prepend (c : Char) (result : QuotedResult) : QuotedResult :=
  result.map fun parts => (c :: parts.1, parts.2)

/-- A string with an escaped character in front. -/
def prependEscaped (c : Option Char) (result : QuotedResult) : QuotedResult := do
  prepend (← c) result

/-- The rest of a string in quotation marks. -/
def basicRest : List Char → QuotedResult
  | [] => none
  | '"' :: rest => some ([], rest)
  | '\\' :: 'u' :: a :: b :: c :: d :: rest =>
    prependEscaped (codePoint? [a, b, c, d]) (basicRest rest)
  | '\\' :: 'U' :: a :: b :: c :: d :: e :: f :: g :: h :: rest =>
    prependEscaped (codePoint? [a, b, c, d, e, f, g, h]) (basicRest rest)
  | '\\' :: c :: rest => prependEscaped (escaped? c) (basicRest rest)
  | c :: rest => if isPlainChar c && c ≠ '\\' then prepend c (basicRest rest) else none

/-- The rest of a string in apostrophes. -/
def literalRest : List Char → QuotedResult
  | [] => none
  | '\'' :: rest => some ([], rest)
  | c :: rest => if isPlainChar c then prepend c (literalRest rest) else none

/-- Whether only spaces and tabs stand before the next line break. -/
def isBlankLine (cs : List Char) : Bool :=
  match cs.dropWhile fun c => c = ' ' || c = '\t' with
  | '\n' :: _ | '\r' :: '\n' :: _ => true
  | _ => false

/-- The rest of a string in three quotation marks. After a backslash at the end of a line all
blanks up to the next character are left out, which `skipping` tells. Up to two quotation marks may
stand before the closing ones. -/
def longBasicRest (skipping : Bool) : List Char → QuotedResult
  | [] => none
  | '"' :: '"' :: '"' :: '"' :: '"' :: rest => some (['"', '"'], rest)
  | '"' :: '"' :: '"' :: '"' :: rest => some (['"'], rest)
  | '"' :: '"' :: '"' :: rest => some ([], rest)
  | '\r' :: '\n' :: rest =>
    if skipping then longBasicRest true rest else prepend '\n' (longBasicRest false rest)
  | '\n' :: rest =>
    if skipping then longBasicRest true rest else prepend '\n' (longBasicRest false rest)
  | '\\' :: 'u' :: a :: b :: c :: d :: rest =>
    prependEscaped (codePoint? [a, b, c, d]) (longBasicRest false rest)
  | '\\' :: 'U' :: a :: b :: c :: d :: e :: f :: g :: h :: rest =>
    prependEscaped (codePoint? [a, b, c, d, e, f, g, h]) (longBasicRest false rest)
  | '\\' :: c :: rest =>
    if isBlankLine (c :: rest) then longBasicRest true (c :: rest)
    else prependEscaped (escaped? c) (longBasicRest false rest)
  | c :: rest =>
    if skipping && (c = ' ' || c = '\t') then longBasicRest true rest
    else if isPlainChar c && c ≠ '\\' then prepend c (longBasicRest false rest)
    else none

/-- The rest of a string in three apostrophes. -/
def longLiteralRest : List Char → QuotedResult
  | [] => none
  | '\'' :: '\'' :: '\'' :: '\'' :: '\'' :: rest => some (['\'', '\''], rest)
  | '\'' :: '\'' :: '\'' :: '\'' :: rest => some (['\''], rest)
  | '\'' :: '\'' :: '\'' :: rest => some ([], rest)
  | '\r' :: '\n' :: rest | '\n' :: rest => prepend '\n' (longLiteralRest rest)
  | c :: rest => if isPlainChar c then prepend c (longLiteralRest rest) else none

/-- The text without a line break at its start. -/
def dropLineBreak : List Char → List Char
  | '\r' :: '\n' :: rest | '\n' :: rest => rest
  | cs => cs

/-- The string on one line at the start of a text, and what follows it. -/
def lineString? : List Char → QuotedResult
  | '"' :: rest => basicRest rest
  | '\'' :: rest => literalRest rest
  | _ => none

/-- The string at the start of a text, and what follows it. -/
def string? : List Char → QuotedResult
  | '"' :: '"' :: '"' :: rest => longBasicRest false (dropLineBreak rest)
  | '\'' :: '\'' :: '\'' :: rest => longLiteralRest (dropLineBreak rest)
  | cs => lineString? cs

end ClassEdit.Toml
