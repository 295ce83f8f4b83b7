/-!
# TOML values and tables

A TOML document is a tree of tables. While it is read, a table remembers how it came about, since
what may still be added to it depends on that: a header defines a table once, and dotted keys add
only to tables that dotted keys of the same table opened.

## Main definitions

* `Value`: the values of a document.
* `Table`: a table under construction.
* `Table.insertAt?`: adds a key with a value.
* `Table.openAt?`, `Table.openArrayAt?`: what a header may open.
-/

namespace ClassEdit.Toml

/-- The values of a document. Numbers and times are checked and not kept. -/
inductive Value where
  | bool (value : Bool)
  | string (value : String)
  | number
  | dateTime
  | array (elements : List Value)
  | table (entries : List (String × Value))

instance : Inhabited Value := ⟨.number⟩

/-- How a table came about. -/
inductive Origin where
  /-- A header or braces define it. -/
  | explicit
  /-- It is named in the header of a table inside of it. -/
  | implicit
  /-- A dotted key opened it. -/
  | dotted
deriving DecidableEq, Repr

/-- The entries of a table under construction. -/
inductive Item where
  | value (value : Value)
  | table (origin : Origin) (entries : List (String × Item))
  /-- The tables that headers in double brackets define, the last one first. -/
  | tables (elements : List (List (String × Item)))

instance : Inhabited Item := ⟨.value default⟩

/-- A table under construction. -/
abbrev Table := List (String × Item)

namespace Table

/-- The entry of a key. -/
def find? (table : Table) (key : String) : Option Item :=
  table.lookup key

/-- The table with another entry for a key. -/
def put (table : Table) (key : String) (item : Item) : Table :=
  match table with
  | [] => [(key, item)]
  | (other, old) :: rest =>
    if other = key then (key, item) :: rest else (other, old) :: put rest key item

/-- Adds a key with a value, which stands in the table that the keys of `path` lead to. That table
is one that dotted keys opened; on the way to it there may be tables that headers only name, and of
an array of tables the last one. -/
def insertAt? (table : Table) (path : List String) (key : String) (value : Value) : Option Table :=
  match path with
  | [] =>
    match table.find? key with
    | none => some (table.put key (.value value))
    | some _ => none
  | step :: path =>
    match table.find? step with
    | none => do
      let inner ← insertAt? [] path key value
      return table.put step (.table .dotted inner)
    | some (.table .dotted inner) => do
      let inner ← insertAt? inner path key value
      return table.put step (.table .dotted inner)
    | some (.table .implicit inner) =>
      if path.isEmpty then none
      else do
        let inner ← insertAt? inner path key value
        return table.put step (.table .implicit inner)
    | some (.tables (last :: others)) =>
      if path.isEmpty then none
      else do
        let last ← insertAt? last path key value
        return table.put step (.tables (last :: others))
    | some _ => none

/-- Changes the table that the keys of `path` lead to, from the root. Tables that are not there yet
are opened, and of an array of tables the last one is meant. -/
def changeAt? (table : Table) (path : List String) (change : Table → Option Table) :
    Option Table :=
  match path with
  | [] => change table
  | step :: path =>
    match table.find? step with
    | none => do
      let inner ← changeAt? [] path change
      return table.put step (.table .implicit inner)
    | some (.table origin inner) => do
      let inner ← changeAt? inner path change
      return table.put step (.table origin inner)
    | some (.tables (last :: others)) => do
      let last ← changeAt? last path change
      return table.put step (.tables (last :: others))
    | some _ => none

/-- Opens the table that a header names. A table is defined once; before that it may have been named
in the headers of tables inside of it. -/
def openAt? (table : Table) (key : String) : Option Table :=
  match table.find? key with
  | none => some (table.put key (.table .explicit []))
  | some (.table .implicit inner) => some (table.put key (.table .explicit inner))
  | some _ => none

/-- Opens the next table of the array that a header in double brackets names. -/
def openArrayAt? (table : Table) (key : String) : Option Table :=
  match table.find? key with
  | none => some (table.put key (.tables [[]]))
  | some (.tables elements) => some (table.put key (.tables ([] :: elements)))
  | some _ => none

mutual

/-- The value of a finished entry. -/
def valueOfItem : Item → Value
  | .value value => value
  | .table _ entries => .table (valuesOfEntries entries)
  | .tables elements => .array (valuesOfTables elements).reverse

/-- The values of finished entries. -/
def valuesOfEntries : List (String × Item) → List (String × Value)
  | [] => []
  | (key, item) :: rest => (key, valueOfItem item) :: valuesOfEntries rest

/-- The values of finished tables. -/
def valuesOfTables : List (List (String × Item)) → List Value
  | [] => []
  | entries :: rest => .table (valuesOfEntries entries) :: valuesOfTables rest

end

/-- The value of a finished table. -/
def value (table : Table) : Value :=
  .table (valuesOfEntries table)

end Table

end ClassEdit.Toml
