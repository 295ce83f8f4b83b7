import ClassEdit.Config.Toml.Quoted

/-!
# TOML documents

A document is a sequence of lines: blank lines and comments, keys with values, and the headers of
tables. Keys belong to the table whose header came last. Nothing is nested as deep as
`nestingLimit`.

## Main definitions

* `value?`: the value at the start of a text.
* `Reading.line?`: reads one entry of a document.
* `parse?`: the root table of a document.
-/

namespace ClassEdit.Toml

/-- How deep brackets and dotted keys may not go. -/
def nestingLimit : Nat := 80

/-! ## Blanks -/

/-- The text without the spaces and tabs at its start. -/
def dropSpaces (cs : List Char) : List Char :=
  cs.dropWhile fun c => c = ' ' || c = '\t'

/-- The text without a comment at its start. -/
def dropComment : List Char → List Char
  | '#' :: rest => rest.dropWhile isPlainChar
  | cs => cs

/-- What follows the line break at the start of a text. -/
def afterLineBreak? : List Char → Option (List Char)
  | '\n' :: rest | '\r' :: '\n' :: rest => some rest
  | _ => none

/-- What follows the end of a line, which may have a comment. -/
def afterLineEnd? (cs : List Char) : Option (List Char) :=
  match dropComment (dropSpaces cs) with
  | [] => some []
  | rest => afterLineBreak? rest

/-- The text without the blanks, line breaks and comments at its start, up to `budget` of them. -/
def dropFiller : (budget : Nat) → List Char → List Char
  | 0, cs => cs
  | budget + 1, cs =>
    let cs := dropSpaces cs
    match afterLineBreak? (dropComment cs) with
    | some rest => dropFiller budget rest
    | none => cs

/-! ## Keys -/

/-- The key at the start of a text, and what follows it. -/
def simpleKey? (cs : List Char) : Option (String × List Char) :=
  match cs with
  | '"' :: _ | '\'' :: _ => (lineString? cs).map fun parts => (String.ofList parts.1, parts.2)
  | _ =>
    let isBare (c : Char) : Bool := c.isAlphanum || c = '-' || c = '_'
    let word := cs.takeWhile isBare
    if word.isEmpty then none else some (String.ofList word, cs.dropWhile isBare)

/-- The keys of a dotted key of at most `budget` keys, the last one last. -/
def dottedKey? : (budget : Nat) → List Char → Option (List String × List Char)
  | 0, _ => none
  | budget + 1, cs => do
    let (key, rest) ← simpleKey? (dropSpaces cs)
    match dropSpaces rest with
    | '.' :: rest =>
      let (keys, rest) ← dottedKey? budget rest
      return (key :: keys, rest)
    | rest => return ([key], rest)

/-- The keys of a dotted key. -/
def key? (cs : List Char) : Option (List String × List Char) :=
  dottedKey? (nestingLimit - 1) cs

/-! ## Values -/

/-- Adds a dotted key with a value to a table. -/
def addPair? (table : Table) (keys : List String) (value : Value) : Option Table := do
  let last ← keys.getLast?
  table.insertAt? keys.dropLast last value

mutual

/-- The value at the start of a text, and what follows it, for at most `budget` values. `depth` is
the number of brackets around it. -/
def valueWithin? (budget depth : Nat) (cs : List Char) : Option (Value × List Char) :=
  match budget, cs with
  | 0, _ => none
  | _ + 1, '"' :: _ | _ + 1, '\'' :: _ =>
    (string? cs).map fun parts => (.string (String.ofList parts.1), parts.2)
  | budget + 1, '[' :: rest =>
    if depth + 1 < nestingLimit then
      (elementsWithin? budget (depth + 1) rest).map fun parts => (.array parts.1, parts.2)
    else none
  | budget + 1, '\x7b' :: rest =>
    if depth + 1 < nestingLimit then
      match dropSpaces rest with
      | '\x7d' :: rest => some (.table [], rest)
      | rest => (pairsWithin? budget (depth + 1) [] rest).map fun parts => (parts.1.value, parts.2)
    else none
  | _ + 1, _ => scalar? cs

/-- The rest of an array. -/
def elementsWithin? (budget depth : Nat) (cs : List Char) : Option (List Value × List Char) :=
  match budget, dropFiller cs.length cs with
  | 0, _ => none
  | _ + 1, ']' :: rest => some ([], rest)
  | budget + 1, cs => do
    let (element, rest) ← valueWithin? budget depth cs
    match dropFiller rest.length rest with
    | ',' :: rest =>
      let (elements, rest) ← elementsWithin? budget depth rest
      return (element :: elements, rest)
    | ']' :: rest => return ([element], rest)
    | _ => none

/-- The rest of a table in braces, `table` having been read. -/
def pairsWithin? (budget depth : Nat) (table : Table) (cs : List Char) :
    Option (Table × List Char) :=
  match budget with
  | 0 => none
  | budget + 1 => do
    let (keys, rest) ← key? cs
    let rest ← after? '=' rest
    let (value, rest) ← valueWithin? budget depth (dropSpaces rest)
    let table ← addPair? table keys value
    match dropSpaces rest with
    | ',' :: rest => pairsWithin? budget depth table rest
    | '\x7d' :: rest => return (table, rest)
    | _ => none

end

/-- The value at the start of a text, and what follows it. -/
def value? (cs : List Char) : Option (Value × List Char) :=
  valueWithin? (2 * cs.length + 2) 0 cs

/-! ## Lines -/

/-- What has been read of a document: the root table, and the keys of the last header. -/
structure Reading where
  root : Table
  header : List String

namespace Reading

/-- Reads a header, whose brackets have been opened. -/
def header? (reading : Reading) (isArray : Bool) (cs : List Char) :
    Option (Reading × List Char) := do
  let (keys, rest) ← key? cs
  let rest ← after? ']' rest
  let rest ← if isArray then after? ']' rest else some rest
  let rest ← afterLineEnd? rest
  let last ← keys.getLast?
  let root ← reading.root.changeAt? keys.dropLast fun table =>
    if isArray then table.openArrayAt? last else table.openAt? last
  return (⟨root, keys⟩, rest)

/-- Reads a key with its value. -/
def pair? (reading : Reading) (cs : List Char) : Option (Reading × List Char) := do
  let (keys, rest) ← key? cs
  let rest ← after? '=' rest
  let (value, rest) ← value? (dropSpaces rest)
  let rest ← afterLineEnd? rest
  let root ← reading.root.changeAt? reading.header fun table => addPair? table keys value
  return ({ reading with root }, rest)

/-- Reads an entry of a document up to the end of its line. -/
def line? (reading : Reading) (cs : List Char) : Option (Reading × List Char) :=
  match cs with
  | '#' :: _ | '\n' :: _ | '\r' :: _ => do
    return (reading, ← afterLineEnd? cs)
  | '[' :: '[' :: rest => reading.header? true rest
  | '[' :: rest => reading.header? false rest
  | _ => reading.pair? cs

/-- Reads at most `budget` entries of a document. -/
def lines? : (budget : Nat) → Reading → List Char → Option Table
  | 0, _, _ => none
  | budget + 1, reading, cs =>
    match dropSpaces cs with
    | [] => some reading.root
    | cs => do
      let (reading, rest) ← reading.line? cs
      lines? budget reading rest

end Reading

/-- The root table of a document, if the document is valid. A byte order mark at its start does not
count. -/
def parse? (text : List Char) : Option (List (String × Value)) :=
  let text := match text with
    | '\ufeff' :: rest => rest
    | _ => text
  (Reading.lines? (text.length + 1) ⟨[], []⟩ text).map Table.valuesOfEntries

end ClassEdit.Toml
