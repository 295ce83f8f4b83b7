/-!
# JSON output

Results are printed as JSON on several lines: an entry on each, two spaces deeper than its
brackets.

## Main definitions

* `JsonValue`: the values that are printed.
* `JsonValue.render`: a value as text.
-/

namespace ClassEdit

/-- The values that are printed. -/
inductive JsonValue where
  | null
  | bool (value : Bool)
  | number (value : Nat)
  | string (value : String)
  | array (elements : List JsonValue)
  | object (entries : List (String × JsonValue))

namespace JsonValue

/-- A hexadecimal digit. -/
def hexDigit (n : Nat) : Char :=
  if n < 10 then Char.ofNat (48 + n) else Char.ofNat (87 + n)

/-- A character inside of quotation marks. -/
def escapeChar (c : Char) : List Char :=
  match c with
  | '"' => ['\\', '"']
  | '\\' => ['\\', '\\']
  | '\n' => ['\\', 'n']
  | '\r' => ['\\', 'r']
  | '\t' => ['\\', 't']
  | '\x08' => ['\\', 'b']
  | '\x0c' => ['\\', 'f']
  | c =>
    if c.toNat < 32 then
      ['\\', 'u', '0', '0', hexDigit (c.toNat / 16), hexDigit (c.toNat % 16)]
    else [c]

/-- A text in quotation marks. -/
def quote (s : String) : String :=
  "\"" ++ String.ofList (s.toList.flatMap escapeChar) ++ "\""

/-- The indentation of a level. -/
def indent (level : Nat) : String :=
  String.ofList (List.replicate (2 * level) ' ')

/-- Entries in brackets, each on its line. -/
def block (level : Nat) (opening closing : String) (entries : List String) : String :=
  if entries.isEmpty then opening ++ closing
  else
    opening ++ "\n" ++ ",\n".intercalate (entries.map (indent (level + 1) ++ ·)) ++ "\n" ++
      indent level ++ closing

mutual

/-- A value whose brackets stand at a level of indentation. -/
def renderAt (level : Nat) : JsonValue → String
  | null => "null"
  | bool value => if value then "true" else "false"
  | number value => toString value
  | string value => quote value
  | array elements => block level "[" "]" (renderElements (level + 1) elements)
  | object entries => block level "\x7b" "\x7d" (renderEntries (level + 1) entries)

/-- The elements of an array. -/
def renderElements (level : Nat) : List JsonValue → List String
  | [] => []
  | value :: rest => renderAt level value :: renderElements level rest

/-- The entries of an object. -/
def renderEntries (level : Nat) : List (String × JsonValue) → List String
  | [] => []
  | (key, value) :: rest =>
    (quote key ++ ": " ++ renderAt level value) :: renderEntries level rest

end

/-- A value as text. -/
def render (value : JsonValue) : String :=
  value.renderAt 0

end JsonValue

end ClassEdit
