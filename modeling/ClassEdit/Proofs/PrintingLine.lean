import ClassEdit.Command.Arguments

/-!
# Command lines that print

An edit in place prints nothing of the text that it leaves in the file. The text is printed by the
same command line with the text format for `--in-place`. Here both lines are read side by side: the
options and operands that are given agree after each argument, except for the one exchanged, so the
two lines ask for the same edit.

## Main definitions

* `printingLine`: the command line that prints.
* `Given.printing`, `Progress.printing`: what the reading of it comes to.
* `Invocation.printing`: what it asks for.

## Main statements

* `readArguments_printsAs`: the reading of a part of a command line.
* `Request.parse?_printingLine`: the request of a command line.
-/

namespace ClassEdit

/-- The command line with the text format for `--in-place`, and without any other choice of a
format. Arguments that are operands only stay as they are. -/
def printingLine : List String → List String
  | [] => []
  | arg :: rest =>
    match Argument.ofString arg with
    | .endOfOptions => arg :: rest
    | .long option value =>
      if option = "in-place" then "--format=text" :: printingLine rest
      else if option = "format" then
        match value, rest with
        | some _, rest => printingLine rest
        | none, [] => []
        | none, _ :: rest => printingLine rest
      else arg :: printingLine rest
    | _ => arg :: printingLine rest

/-! ## What is given -/

/-- An option in the command line that prints. -/
def printingOption (entry : String × String) : Option (String × String) :=
  if entry.1 = "in-place" then some ("format", "text")
  else if entry.1 = "format" then none
  else some entry

namespace Given

/-- What is given in the command line that prints. -/
def printing (given : Given) : Given :=
  { given with options := given.options.filterMap printingOption }

variable {given next : Given} {option value : String}

theorem value?_printing_eq : given.printing.value? option =
    if option = "format" then if given.has "in-place" then some "text" else none
    else if option = "in-place" then none
    else given.value? option := by
  obtain ⟨options, operands⟩ := given
  simp only [printing, has, value?]
  induction options with
  | nil => simp
  | cons entry options ih =>
    rw [List.filterMap_cons, printingOption]
    grind

theorem value?_printing (hplace : option ≠ "in-place") (hformat : option ≠ "format") :
    given.printing.value? option = given.value? option := by
  rw [value?_printing_eq, if_neg hformat, if_neg hplace]

theorem has_printing (hplace : option ≠ "in-place") (hformat : option ≠ "format") :
    given.printing.has option = given.has option := by
  rw [has, has, value?_printing hplace hformat]

theorem add?_eq_some : given.add? option value = some next ↔
    given.has option = false ∧
      { given with options := (option, value) :: given.options } = next := by
  simp [add?]

theorem add?_printing (hplace : option ≠ "in-place") (hformat : option ≠ "format") :
    given.printing.add? option value = (given.add? option value).map printing := by
  rw [add?, has_printing hplace hformat, add?]
  split
  · rfl
  · simp [printing, printingOption, hplace, hformat]

theorem add?_inPlace_printing (h : given.add? "in-place" value = some next) :
    given.printing.add? "format" "text" = some next.printing := by
  obtain ⟨hhas, rfl⟩ := add?_eq_some.1 h
  refine add?_eq_some.2 ⟨?_, by simp [printing, printingOption]⟩
  rw [has, value?_printing_eq, if_pos rfl, hhas]
  rfl

theorem printing_of_add?_format (h : given.add? "format" value = some next) :
    next.printing = given.printing := by
  obtain ⟨-, rfl⟩ := add?_eq_some.1 h
  simp [printing, printingOption]

end Given

/-! ## Reading -/

namespace Progress

/-- What the reading of the command line that prints comes to. -/
def printing : Progress → Progress
  | finished given => finished given.printing
  | command given name rest => command given.printing name (printingLine rest)
  | progress => progress

/-- Unless a line is rejected, another is read as the line that prints. -/
def PrintsAs (progress printed : Progress) : Prop :=
  progress ≠ rejected → printed = progress.printing

theorem printsAs_rejected {printed : Progress} : rejected.PrintsAs printed :=
  fun h => absurd rfl h

end Progress

section Steps

variable {options : OptionSet} {kind : OptionKind} {option value operand : String} {given : Given}
  {next printed : Given → Progress}

theorem addSwitch_printsAs (hplace : option ≠ "in-place") (hformat : option ≠ "format")
    (hnext : ∀ given, (next given).PrintsAs (printed given.printing)) :
    (addSwitch kind option given next).PrintsAs (addSwitch kind option given.printing printed) := by
  cases kind with
  | help | version => exact fun _ => rfl
  | counter => exact hnext given
  | switch =>
    simp only [addSwitch, Given.add?_printing hplace hformat]
    cases given.add? option "" with
    | none => exact Progress.printsAs_rejected
    | some given => exact hnext given
  | text | path | format => exact Progress.printsAs_rejected

theorem addValue_printsAs (hplace : option ≠ "in-place") (hformat : option ≠ "format")
    (hnext : ∀ given, (next given).PrintsAs (printed given.printing)) :
    (addValue kind option value given next).PrintsAs
      (addValue kind option value given.printing printed) := by
  simp only [addValue, Given.add?_printing hplace hformat]
  split
  · cases given.add? option value with
    | none => exact Progress.printsAs_rejected
    | some given => exact hnext given
  · exact Progress.printsAs_rejected

/-- A choice of a format is left out. -/
theorem addValue_format_printsAs (printed : Given → Progress)
    (hnext : ∀ given, (next given).PrintsAs (printed given.printing)) :
    (addValue kind "format" value given next).PrintsAs (printed given.printing) := by
  simp only [addValue]
  split
  · cases hadd : given.add? "format" value with
    | none => exact Progress.printsAs_rejected
    | some given => exact Given.printing_of_add?_format hadd ▸ hnext given
  · exact Progress.printsAs_rejected

/-- The text format is chosen for an edit in place. -/
theorem addSwitch_inPlace_printsAs
    (hnext : ∀ given, (next given).PrintsAs (printed given.printing)) :
    (addSwitch .switch "in-place" given next).PrintsAs
      (addValue .format "format" "text" given.printing printed) := by
  have haccepts : OptionKind.format.accepts "text" = true := by decide
  simp only [addSwitch, addValue, haccepts, if_true]
  cases hadd : given.add? "in-place" "" with
  | none => exact Progress.printsAs_rejected
  | some given =>
    rw [Given.add?_inPlace_printing hadd]
    exact hnext given

theorem addOperand_printsAs (hnext : ∀ given, (next given).PrintsAs (printed given.printing)) :
    (addOperand options operand given next).PrintsAs
      (addOperand options operand given.printing printed) := by
  rw [addOperand, addOperand, show given.printing.operands = given.operands from rfl]
  split
  · exact Progress.printsAs_rejected
  · exact hnext { given with operands := [operand] }

end Steps

/-- The options of a part of a command line, with a choice of the format and, if at all, a switch
for edits in place. Neither of them has a letter. -/
structure OptionSet.OffersFormat (options : OptionSet) : Prop where
  format : options.long.lookup "format" = some .format
  inPlace : options.long.lookup "in-place" = none ∨ options.long.lookup "in-place" = some .switch
  short : ∀ entry ∈ options.short, entry.2 ≠ "in-place" ∧ entry.2 ≠ "format"

namespace OptionSet.OffersFormat

variable {options : OptionSet} {kind : OptionKind}

theorem eq_format (h : options.OffersFormat) (hkind : options.long.lookup "format" = some kind) :
    kind = .format :=
  Option.some.inj (hkind.symm.trans h.format)

theorem eq_switch (h : options.OffersFormat) (hkind : options.long.lookup "in-place" = some kind) :
    kind = .switch := by
  obtain hnone | hswitch := h.inPlace
  · cases hnone.symm.trans hkind
  · exact Option.some.inj (hkind.symm.trans hswitch)

theorem ne_of_letter (h : options.OffersFormat) {letter : Char} {option : String}
    (hletter : options.short.lookup letter = some option) :
    option ≠ "in-place" ∧ option ≠ "format" := by
  obtain ⟨before, after, hshort, -⟩ := List.lookup_eq_some_iff.1 hletter
  exact h.short (letter, option) (by simp [hshort])

end OptionSet.OffersFormat

theorem offersFormat_leadingOptions : leadingOptions.OffersFormat where
  format := rfl
  inPlace := .inl rfl
  short := by decide

theorem offersFormat_implement {own : List (String × OptionKind)}
    (h : ownOptions? "implement" = some own) : (commandOptions own).OffersFormat := by
  obtain rfl := Option.some.inj h
  exact ⟨rfl, .inr rfl, by decide⟩

section Lines

variable {options : OptionSet}

theorem readOperands_printsAs (given : Given) (args : List String) :
    (readOperands options given args).PrintsAs (readOperands options given.printing args) := by
  induction args generalizing given with
  | nil => exact fun _ => rfl
  | cons arg rest ih => exact addOperand_printsAs ih

theorem addLetters_printsAs {next printed : Given → Progress} (hoptions : options.OffersFormat)
    (letters : List Char) (given : Given)
    (hnext : ∀ given, (next given).PrintsAs (printed given.printing)) :
    (addLetters options letters given next).PrintsAs
      (addLetters options letters given.printing printed) := by
  induction letters generalizing given with
  | nil => exact hnext given
  | cons letter letters ih =>
    rw [addLetters, addLetters]
    split
    · exact Progress.printsAs_rejected
    · rename_i option hletter
      obtain ⟨hplace, hformat⟩ := hoptions.ne_of_letter hletter
      split
      · exact Progress.printsAs_rejected
      · exact addSwitch_printsAs hplace hformat ih

theorem eq_operand_of_isValueLike {arg : String} (h : isValueLike arg) :
    Argument.ofString arg = .operand := by
  rw [isValueLike] at h
  split at h
  · assumption
  · cases h

theorem readArguments_formatText (hoptions : options.OffersFormat) (given : Given)
    (rest : List String) : readArguments options given ("--format=text" :: rest) =
      addValue .format "format" "text" given fun given => readArguments options given rest := by
  have harg : Argument.ofString "--format=text" = .long "format" (some "text") := rfl
  simp only [readArguments, harg, hoptions.format]

/-- The run: after each argument, the line that prints has been read as far. -/
theorem readArguments_printsAs (hoptions : options.OffersFormat) (given : Given)
    (args : List String) : (readArguments options given args).PrintsAs
      (readArguments options given.printing (printingLine args)) := by
  induction given, args using readArguments.induct options with
  | case1 given => exact fun _ => rfl
  | case2 given arg rest harg =>
    simp only [printingLine, readArguments, harg]
    exact readOperands_printsAs given rest
  | case3 given arg rest harg hcommand =>
    simp only [printingLine, readArguments, harg, hcommand]
    exact fun _ => rfl
  | case4 given arg rest harg hcommand ih =>
    simp only [printingLine, readArguments, harg, hcommand, Bool.false_eq_true, if_false]
    exact addOperand_printsAs ih
  | case5 given arg rest letters harg ih =>
    simp only [printingLine, readArguments, harg]
    exact addLetters_printsAs hoptions letters given ih
  | case6 given arg rest option value harg hkind =>
    simp only [readArguments, harg, hkind]
    exact Progress.printsAs_rejected
  | case7 given arg rest option kind value hkind harg ih =>
    simp only [readArguments, harg, hkind]
    by_cases hplace : option = "in-place"
    · obtain rfl := hoptions.eq_switch (hplace ▸ hkind)
      exact Progress.printsAs_rejected
    by_cases hformat : option = "format"
    · subst hformat
      simp only [printingLine, harg, hplace, if_false, if_true]
      exact addValue_format_printsAs (readArguments options · (printingLine rest)) ih
    · simp only [printingLine, harg, hplace, hformat, if_false, readArguments, hkind]
      exact addValue_printsAs hplace hformat ih
  | case8 given arg option kind hkind htakes harg =>
    simp only [readArguments, harg, hkind, htakes]
    exact Progress.printsAs_rejected
  | case9 given arg option kind hkind htakes value rest hvalue harg ih =>
    simp only [readArguments, harg, hkind, htakes, hvalue, if_true]
    by_cases hplace : option = "in-place"
    · obtain rfl := hoptions.eq_switch (hplace ▸ hkind)
      cases htakes
    by_cases hformat : option = "format"
    · subst hformat
      simp only [printingLine, harg, hplace, if_false, if_true]
      exact addValue_format_printsAs (readArguments options · (printingLine rest)) ih
    · -- The value is no option, so it is kept as well.
      have hoperand := eq_operand_of_isValueLike hvalue
      simp only [printingLine, harg, hplace, hformat, if_false, hoperand, readArguments, hkind,
        htakes, hvalue, if_true]
      exact addValue_printsAs hplace hformat ih
  | case10 given arg option kind hkind htakes value rest hvalue harg =>
    simp only [readArguments, harg, hkind, htakes, hvalue]
    exact Progress.printsAs_rejected
  | case11 given arg rest option kind hkind htakes harg ih =>
    simp only [readArguments, harg, hkind, htakes, Bool.false_eq_true, if_false]
    by_cases hplace : option = "in-place"
    · obtain rfl := hoptions.eq_switch (hplace ▸ hkind)
      simp only [printingLine, harg, hplace, if_true, readArguments_formatText hoptions]
      exact addSwitch_inPlace_printsAs ih
    by_cases hformat : option = "format"
    · obtain rfl := hoptions.eq_format (hformat ▸ hkind)
      exact absurd rfl htakes
    · simp only [printingLine, harg, hplace, hformat, if_false, readArguments, hkind, htakes,
        Bool.false_eq_true]
      exact addSwitch_printsAs hplace hformat ih

end Lines

/-! ## Requests -/

/-- The command that prints instead of an edit in place. -/
def Command.printing : Command → Command
  | implement derived interface _ => implement derived interface false
  | command => command

/-- The invocation that prints instead of an edit in place. -/
def Invocation.printing (invocation : Invocation) : Invocation :=
  { invocation with command := invocation.command.printing, format := some .text }

theorem Command.ofGiven?_eq_implement_iff {name derived interface : String} {given : Given}
    {inPlace : Bool} : ofGiven? name given = some (implement derived interface inPlace) ↔
      name = "implement" ∧ given.value? "class" = some derived ∧
        given.value? "interface" = some interface ∧ given.has "in-place" = inPlace := by
  constructor
  · intro h
    obtain ⟨record, hrecord, h⟩ := Option.bind_eq_some_iff.1 h
    split at h
    · obtain ⟨interface, hinterface, h⟩ := Option.bind_eq_some_iff.1 h
      cases h
      exact ⟨rfl, hrecord, hinterface, rfl⟩
    · cases h
    · cases h
    · obtain ⟨base, -, h⟩ := Option.bind_eq_some_iff.1 h
      cases h
    · cases h
  · rintro ⟨rfl, hderived, hinterface, rfl⟩
    simp [ofGiven?, hderived, hinterface]

theorem Invocation.ofGiven?_printing {name derived interface : String} {before after : Given}
    {invocation : Invocation} (h : ofGiven? name before after = some invocation)
    (hcommand : invocation.command = .implement derived interface true) :
    name = "implement" ∧
      ofGiven? name before.printing after.printing = some invocation.printing := by
  obtain ⟨command, hafter, h⟩ := Option.bind_eq_some_iff.1 h
  obtain ⟨file, hfile, h⟩ := Option.bind_eq_some_iff.1 h
  cases h
  subst hcommand
  obtain ⟨rfl, hclass, hinterface, hplace⟩ := Command.ofGiven?_eq_implement_iff.1 hafter
  have hprinting : Command.ofGiven? "implement" after.printing =
      some (.implement derived interface false) := by
    rw [Command.ofGiven?_eq_implement_iff, Given.value?_printing (by decide) (by decide),
      Given.value?_printing (by decide) (by decide), Given.has, Given.value?_printing_eq]
    exact ⟨rfl, hclass, hinterface, rfl⟩
  have hformat : after.printing.value? "format" = some "text" := by
    rw [Given.value?_printing_eq, if_pos rfl, if_pos hplace]
  have hconfig (given : Given) : given.printing.value? "config" = given.value? "config" :=
    Given.value?_printing (by decide) (by decide)
  have hattributes (given : Given) :
      given.printing.has "ignore-attributes" = given.has "ignore-attributes" :=
    Given.has_printing (by decide) (by decide)
  have hoperands : after.printing.operands = after.operands := rfl
  refine ⟨rfl, ?_⟩
  simp only [ofGiven?, hprinting, hoperands, hfile, hformat, hconfig, hattributes]
  rfl

namespace Request

variable {invocation : Invocation}

theorem ofCommand?_eq_run_iff {before : Given} {name : String} {rest : List String} :
    ofCommand? before name rest = some (run invocation) ↔
      ∃ own after, ownOptions? name = some own ∧
        readArguments (commandOptions own) {} rest = .finished after ∧
        Invocation.ofGiven? name before after = some invocation := by
  constructor
  · intro h
    obtain ⟨own, hown, h⟩ := Option.bind_eq_some_iff.1 h
    split at h
    · rename_i after hafter
      obtain ⟨_, hinvocation, h⟩ := Option.bind_eq_some_iff.1 h
      cases h
      exact ⟨own, after, hown, hafter, hinvocation⟩
    · cases h
    · cases h
  · rintro ⟨own, after, hown, hafter, hinvocation⟩
    simp [ofCommand?, hown, hafter, hinvocation]

theorem parse?_eq_run_iff {args : List String} : parse? args = some (run invocation) ↔
    ∃ before name rest, readArguments leadingOptions {} args = .command before name rest ∧
      name ≠ "help" ∧ ofCommand? before name rest = some (run invocation) := by
  constructor
  · intro h
    rw [parse?] at h
    split at h
    · cases h
    · cases h
    · rename_i before name rest hbefore
      by_cases hname : name = "help"
      · rw [if_pos hname] at h
        split at h <;> cases h
      · rw [if_neg hname] at h
        exact ⟨before, name, rest, hbefore, hname, h⟩
    · cases h
  · rintro ⟨before, name, rest, hbefore, hname, hcommand⟩
    simp only [parse?, hbefore, if_neg hname, hcommand]

/-- For a command line with an edit in place, the one that prints asks for the same edit. -/
theorem parse?_printingLine {args : List String} {derived interface : String}
    (h : parse? args = some (run invocation))
    (hcommand : invocation.command = .implement derived interface true) :
    parse? (printingLine args) = some (run invocation.printing) := by
  obtain ⟨before, name, rest, hbefore, hname, hrest⟩ := parse?_eq_run_iff.1 h
  obtain ⟨own, after, hown, hafter, hinvocation⟩ := ofCommand?_eq_run_iff.1 hrest
  obtain ⟨rfl, hprinting⟩ := Invocation.ofGiven?_printing hinvocation hcommand
  have hleading := readArguments_printsAs offersFormat_leadingOptions {} args
  rw [hbefore] at hleading
  have hfollowing := readArguments_printsAs (offersFormat_implement hown) {} rest
  rw [hafter] at hfollowing
  exact parse?_eq_run_iff.2 ⟨before.printing, _, printingLine rest, hleading nofun, hname,
    ofCommand?_eq_run_iff.2 ⟨own, after.printing, hown, hfollowing nofun, hprinting⟩⟩

end Request

end ClassEdit
