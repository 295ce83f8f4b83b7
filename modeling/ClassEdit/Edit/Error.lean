/-!
# Why an edit cannot be made

## Main definitions

* `EditError`: the causes.
* `EditError.message`, `EditError.code`, `EditError.help?`: how a cause is reported.
-/

namespace ClassEdit

/-- Why an edit cannot be made. -/
inductive EditError where
  /-- The tokens end after this offset. -/
  | emptyToken (offset : Nat)
  /-- A token stands outside of the text. -/
  | invalidToken
  /-- The text of this length has no position at the offset. -/
  | invalidOffset (offset length : Nat)
  /-- The class is its own interface. -/
  | selfImplementation (name : String)
deriving DecidableEq, Repr

namespace EditError

/-- The sentence that reports the cause. -/
def message : EditError → String
  | emptyToken offset => s!"Can't unpack token; token empty (after offset {offset})"
  | invalidToken => "Can't unpack token; token holds invalid location"
  | invalidOffset offset length =>
    s!"Insertion offset {offset} is outside of the {length} byte buffer"
  | selfImplementation name => "`" ++ name ++ "` can't implement itself"

/-- The stable identifier of the cause. -/
def code : EditError → String
  | emptyToken _ => "implementor::assist::empty_token"
  | invalidToken => "implementor::assist::invalid_token"
  | invalidOffset _ _ => "implementor::assist::invalid_offset"
  | selfImplementation _ => "implementor::assist::self_implementation"

/-- What the user can do about it. -/
def help? : EditError → Option String
  | emptyToken _ => some "the class may be incomplete; check that its body is closed"
  | _ => none

end EditError

end ClassEdit
