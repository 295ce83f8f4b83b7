import ClassEdit.Edit.ClassHead
import ClassEdit.Text.WordChar

/-!
# Where new public members go

New public members go after the first run of public member functions of a class; if it has none,
after a public access label of its own; and if it has no such label, to the start of its body,
where a class needs a new label and a struct does not.

## Main definitions

* `PublicPlace`: an offset, and whether a label is needed there.
* `Record.lastPublicMethod?`: the end of the first run of public member functions.
* `publicLabels`: the public access labels that a text seems to have.
* `findPublicPlace`: the place for new public members.
-/

namespace ClassEdit

/-- A place for new public members. -/
structure PublicPlace where
  offset : Nat
  /-- Whether the members need a public access label of their own. -/
  needsLabel : Bool
deriving DecidableEq, Repr

/-! ## After public members -/

/-- The member function is public and declared in the text. -/
def Method.isExplicitPublic (m : Method) : Bool :=
  m.access = .pub && !m.isImplicit

/-- The last of the first run of public member functions that the text declares. -/
def Record.lastPublicMethod? (r : Record) : Option Method :=
  ((r.methods.dropWhile fun m => !m.isExplicitPublic).takeWhile Method.isExplicitPublic).getLast?

/-- The greatest number of semicolons that are skipped after a member. -/
def maxSkippedSemicolons : Nat := 1000

/-- The offset of the first token after the one at `offset` that is no semicolon, or of the last
token found if at most `budget` tokens may be looked for; `offset` if none is found. Each token is
looked for from the one before it. -/
def skipSemicolons (source : Source) : (budget offset : Nat) → Nat
  | 0, offset => offset
  | budget + 1, offset =>
    match source.nextToken? (some offset) with
    | none => offset
    | some token =>
      if token.kind = .semi then skipSemicolons source budget token.start else token.start

/-- The start of the line after `start`, or `stop` if that is on the same line. -/
def lineAfter (content : List Char) (start stop : Nat) : Except EditError Nat :=
  match Text.slice? content start stop with
  | none => .error .invalidToken
  | some between =>
    match Text.newlineOffset? between with
    | some newline => .ok (start + newline + 1)
    | none => .ok stop

/-- The start of the line after the declaration whose last token is at `offset`, or the next token
after its semicolons if that is on the same line. -/
def offsetAfterMember (content : List Char) (source : Source) (offset : Nat) :
    Except EditError Nat :=
  match source.nextToken? (some offset) with
  | none => .ok offset
  | some first =>
    lineAfter content first.start
      (if first.kind = .semi then skipSemicolons source maxSkippedSemicolons first.start
      else first.start)

/-! ## After a public label -/

/-- A place where a text reads like a public access label. -/
structure LabelMatch where
  start : Nat
  stop : Nat
  /-- The text after the label. -/
  after : List Char

/-- The label at the start of a text whose first character is at `offset`. -/
def labelAt? (offset : Nat) (cs : List Char) : Option LabelMatch := do
  let rest ← Text.stripStart? "public".toList cs
  match rest.dropWhile Text.isBlank with
  | ':' :: after =>
    some ⟨offset, offset + (Text.byteLength cs - Text.byteLength after), after⟩
  | _ => none

/-- The public access labels that a text seems to have, `before` being the character before it and
`offset` the offset of its first character. The keyword has to be a word of its own. -/
def publicLabelsFrom (before : Option Char) (offset : Nat) : List Char → List LabelMatch
  | [] => []
  | c :: cs =>
    let rest := publicLabelsFrom (some c) (offset + c.utf8Size) cs
    if before.any Text.isWordChar then rest
    else match labelAt? offset (c :: cs) with
      | some label => label :: rest
      | none => rest

/-- The public access labels that a text seems to have. -/
def publicLabels (cs : List Char) : List LabelMatch :=
  publicLabelsFrom none 0 cs

/-- Whether a label at `offset` belongs to the body that starts at `body`: it is a token, and not
inside of further braces. -/
def isInBody (source : Source) (body offset : Nat) : Bool :=
  let tokens := source.tokensIn (Range.ofOffsets body offset)
  (source.tokenAt? (some offset)).any (·.start = offset) &&
    (tokens.filter (·.kind = .lBrace)).length = (tokens.filter (·.kind = .rBrace)).length

/-- Whether a label is one of the body of a class, whose head ends in `brace`. -/
def isLabelOf (record : Record) (source : Source) (brace : Token) (label : LabelMatch) : Bool :=
  let line := source.lineNumber (some label.start)
  let firstLine := source.lineNumber (some record.start)
  let lastLine := source.lineNumber (source.tokenEnd (some record.close))
  firstLine ≤ line && line ≤ lastLine && brace.stop ≤ label.start && label.start < record.close &&
    label.after.head? ≠ some ':' && isInBody source brace.stop label.start

/-- The start of the line after a label, or its end if the class is closed on the same line. -/
def offsetAfterLabel (record : Record) (label : LabelMatch) : Nat :=
  match Text.newlineOffset? label.after with
  | some newline =>
    if label.stop + newline < record.close then label.stop + newline + 1 else label.stop
  | none => label.stop

/-! ## After the opening brace -/

/-- The start of the line after a brace that ends its line, or else the end of the brace. -/
def offsetAfterBrace (content : List Char) (brace : Token) : Except EditError Nat :=
  match Text.dropBytes? content brace.stop with
  | none => .error .invalidToken
  | some rest =>
    match Text.newlineOffset? rest with
    | some newline =>
      if (Text.trim (rest.takeWhile (· ≠ '\n'))).isEmpty then .ok (brace.stop + newline + 1)
      else .ok brace.stop
    | none => .ok brace.stop

/-! ## The place -/

/-- The place for new public members of a class. `content` is the text they go into. -/
def findPublicPlace (content : List Char) (record : Record) (source : Source) :
    Except EditError PublicPlace :=
  match record.lastPublicMethod? with
  | some method => do
    return ⟨← offsetAfterMember content source method.last, false⟩
  | none => do
    let head ← record.head source
    match (publicLabels content).find? (isLabelOf record source head.brace) with
    | some label => return ⟨offsetAfterLabel record label, false⟩
    | none => return ⟨← offsetAfterBrace content head.brace, record.key ≠ .struct⟩

end ClassEdit
