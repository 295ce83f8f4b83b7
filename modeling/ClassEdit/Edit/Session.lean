import ClassEdit.Edit.Implement

/-!
# Sessions of edits

A session implements interfaces one after the other, each step on the text that the step before
left. The classes of a step are given by name. A step that fails leaves the text as it is.

## Main definitions

* `Failure`: why a step fails.
* `TranslationUnit.implementNamed`: the edit for two classes given by name.
* `runSession`: the reports of the steps of a session.
-/

namespace ClassEdit

/-- Why something asked for by name cannot be done. -/
inductive Failure where
  | lookup (error : LookupError)
  | edit (error : EditError)
deriving DecidableEq, Repr

namespace TranslationUnit

/-- The class of a name. -/
def record (u : TranslationUnit) (name : String) : Except Failure Record :=
  (u.findRecord name).mapError .lookup

/-- The edit that makes the class of a name implement the interface of a name. -/
def implementNamed (u : TranslationUnit) (derived interface : String) (options : RenderOptions) :
    Except Failure Implementation := do
  let derived ← u.record derived
  let interface ← u.record interface
  (u.implement derived interface options).mapError .edit

end TranslationUnit

/-- A step of a session. -/
structure Step where
  /-- The syntax tree of the text at this step. -/
  tree : Tree
  hasErrors : Bool
  derived : String
  interface : String
  options : RenderOptions

/-- What a step did. -/
structure StepReport where
  /-- Whether the text before the step had syntax errors. -/
  hasErrors : Bool
  baseAdded : Bool
  declarations : Nat
  /-- The text after the step. -/
  text : List Char

/-- Makes one step on a text. -/
def Step.run (step : Step) (text : List Char) : Except Failure StepReport := do
  let u := TranslationUnit.ofTree { text } step.tree step.hasErrors
  let implementation ← u.implementNamed step.derived step.interface step.options
  let text ← (implementation.apply text).mapError .edit
  return ⟨step.hasErrors, implementation.baseSpecifier.isSome, implementation.declarations.length,
    text⟩

/-- Makes the steps of a session, starting with a text. -/
def runSession (text : List Char) : List Step → List (Except Failure StepReport)
  | [] => []
  | step :: steps =>
    match step.run text with
    | .ok report => .ok report :: runSession report.text steps
    | .error failure => .error failure :: runSession text steps

end ClassEdit
