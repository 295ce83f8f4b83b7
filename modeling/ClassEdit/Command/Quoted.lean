import ClassEdit.Text.Printable

/-!
# Quoted text

A text is shown in quotation marks so that it can be read on a terminal: what has no glyph of its
own is shown by its code point in hexadecimal.

## Main definitions

* `quoted`: a text in quotation marks.
-/

namespace ClassEdit

/-- A character inside of quotation marks. -/
def quotedChar (c : Char) : List Char :=
  match c with
  | '\x00' => ['\\', '0']
  | '\t' => ['\\', 't']
  | '\r' => ['\\', 'r']
  | '\n' => ['\\', 'n']
  | '"' => ['\\', '"']
  | '\\' => ['\\', '\\']
  | c =>
    if Text.isShownPlain c then [c]
    else ['\\', 'u', '\x7b'] ++ Nat.toDigits 16 c.toNat ++ ['\x7d']

/-- A text in quotation marks. -/
def quoted (s : String) : String :=
  "\"" ++ String.ofList (s.toList.flatMap quotedChar) ++ "\""

end ClassEdit
