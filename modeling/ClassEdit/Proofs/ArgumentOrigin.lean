import ClassEdit.Proofs.PrintingLine

/-!
# Where a request comes from

Nothing that changes a file is there by default: the command, its file, and the switch for edits in
place are arguments of the command line, each spelled out in full. A part of the line is read from
the left, so what has been given at any time is in the arguments up to there.

## Main definitions

* `Given.IsIn`, `Progress.IsIn`: what is given comes from some arguments.

## Main statements

* `Argument.eq_of_ofString`: the spelling of an option without a value.
* `readArguments_isIn`: the reading of a part of a command line.
* `Request.mem_of_parse?`: the arguments behind an edit in place.
-/

namespace ClassEdit

theorem Argument.eq_of_ofString {arg option : String} (h : ofString arg = .long option none) :
    arg = "--" ++ option := by
  unfold ofString at h
  split at h
  · cases h
  · rename_i cs harg _
    split at h
    · cases h
      rw [← String.toList_inj]
      simp_all
    · cases h
  · cases h
  · cases h

/-- What is given is in the arguments: the operands, and the switch for edits in place. -/
structure Given.IsIn (given : Given) (args : List String) : Prop where
  operands : ∀ operand ∈ given.operands, operand ∈ args
  inPlace : given.has "in-place" = true → "--in-place" ∈ args

/-- What reading comes to is in the arguments. -/
def Progress.IsIn (args : List String) : Progress → Prop
  | finished given => given.IsIn args
  | command _ name rest => name :: rest <:+ args
  | _ => True

section Steps

variable {options : OptionSet} {kind : OptionKind} {option value operand : String}
  {given : Given} {args : List String} {next : Given → Progress}

theorem Given.IsIn.of_add? {added : Given} (h : given.IsIn args)
    (hoption : option = "in-place" → "--in-place" ∈ args)
    (hadd : given.add? option value = some added) : added.IsIn args := by
  obtain ⟨-, rfl⟩ := Given.add?_eq_some.1 hadd
  refine ⟨h.operands, fun hhas => ?_⟩
  by_cases hplace : option = "in-place"
  · exact hoption hplace
  · have hne : ("in-place" == option) = false := beq_eq_false_iff_ne.2 (Ne.symm hplace)
    apply h.inPlace
    simpa [Given.has, Given.value?, List.lookup_cons, hne] using hhas

theorem addSwitch_isIn (h : given.IsIn args) (hoption : option = "in-place" → "--in-place" ∈ args)
    (hnext : ∀ given, given.IsIn args → (next given).IsIn args) :
    (addSwitch kind option given next).IsIn args := by
  cases kind with
  | counter => exact hnext given h
  | switch =>
    rw [addSwitch]
    split
    · rename_i added hadd
      exact hnext added (h.of_add? hoption hadd)
    · trivial
  | help | version | text | path | format => trivial

theorem addValue_isIn (h : given.IsIn args) (hoption : option ≠ "in-place")
    (hnext : ∀ given, given.IsIn args → (next given).IsIn args) :
    (addValue kind option value given next).IsIn args := by
  rw [addValue]
  split
  · split
    · rename_i added hadd
      exact hnext added (h.of_add? (absurd · hoption) hadd)
    · trivial
  · trivial

theorem addOperand_isIn (h : given.IsIn args) (hoperand : operand ∈ args)
    (hnext : ∀ given, given.IsIn args → (next given).IsIn args) :
    (addOperand options operand given next).IsIn args := by
  rw [addOperand]
  split
  · trivial
  · exact hnext _ ⟨by simpa using hoperand, h.inPlace⟩

theorem addLetters_isIn (hoptions : options.OffersFormat) (letters : List Char)
    (h : given.IsIn args) (hnext : ∀ given, given.IsIn args → (next given).IsIn args) :
    (addLetters options letters given next).IsIn args := by
  induction letters generalizing given with
  | nil => exact hnext given h
  | cons letter letters ih =>
    rw [addLetters]
    split
    · trivial
    · rename_i option hletter
      split
      · trivial
      · exact addSwitch_isIn h (absurd · (hoptions.ne_of_letter hletter).1) fun _ => ih

theorem mem_and_suffix_of_cons {arg : String} {rest : List String} (h : arg :: rest <:+ args) :
    arg ∈ args ∧ rest <:+ args :=
  ⟨h.mem List.mem_cons_self, (List.suffix_cons arg rest).trans h⟩

theorem readOperands_isIn {rest : List String} (h : given.IsIn args) (hrest : rest <:+ args) :
    (readOperands options given rest).IsIn args := by
  induction rest generalizing given with
  | nil => exact h
  | cons arg rest ih =>
    obtain ⟨hmem, hrest⟩ := mem_and_suffix_of_cons hrest
    exact addOperand_isIn h hmem fun given hgiven => ih hgiven hrest

/-- The run: what is given after each argument is in the arguments. -/
theorem readArguments_isIn (hoptions : options.OffersFormat) {rest : List String}
    (h : given.IsIn args) (hrest : rest <:+ args) :
    (readArguments options given rest).IsIn args := by
  induction given, rest using readArguments.induct options with
  | case1 given => exact h
  | case2 given arg rest harg =>
    simp only [readArguments, harg]
    obtain ⟨-, hrest⟩ := mem_and_suffix_of_cons hrest
    exact readOperands_isIn h hrest
  | case3 given arg rest harg hcommand =>
    simp only [readArguments, harg, hcommand]
    exact hrest
  | case4 given arg rest harg hcommand ih =>
    simp only [readArguments, harg, hcommand, Bool.false_eq_true, if_false]
    obtain ⟨hmem, hrest⟩ := mem_and_suffix_of_cons hrest
    exact addOperand_isIn h hmem fun given hgiven => ih given hgiven hrest
  | case5 given arg rest letters harg ih =>
    simp only [readArguments, harg]
    obtain ⟨-, hrest⟩ := mem_and_suffix_of_cons hrest
    exact addLetters_isIn hoptions letters h fun given hgiven => ih given hgiven hrest
  | case6 given arg rest option value harg hkind =>
    simp only [readArguments, harg, hkind]
    trivial
  | case7 given arg rest option kind value hkind harg ih =>
    simp only [readArguments, harg, hkind]
    by_cases hplace : option = "in-place"
    · obtain rfl := hoptions.eq_switch (hplace ▸ hkind)
      trivial
    · obtain ⟨-, hrest⟩ := mem_and_suffix_of_cons hrest
      exact addValue_isIn h hplace fun given hgiven => ih given hgiven hrest
  | case8 given arg option kind hkind htakes harg =>
    simp only [readArguments, harg, hkind, htakes]
    trivial
  | case9 given arg option kind hkind htakes value rest hvalue harg ih =>
    simp only [readArguments, harg, hkind, htakes, hvalue, if_true]
    by_cases hplace : option = "in-place"
    · obtain rfl := hoptions.eq_switch (hplace ▸ hkind)
      cases htakes
    · obtain ⟨-, hvalueRest⟩ := mem_and_suffix_of_cons hrest
      obtain ⟨-, hrest⟩ := mem_and_suffix_of_cons hvalueRest
      exact addValue_isIn h hplace fun given hgiven => ih given hgiven hrest
  | case10 given arg option kind hkind htakes value rest hvalue harg =>
    simp only [readArguments, harg, hkind, htakes, hvalue]
    trivial
  | case11 given arg rest option kind hkind htakes harg ih =>
    simp only [readArguments, harg, hkind, htakes, Bool.false_eq_true, if_false]
    obtain ⟨hmem, hrest⟩ := mem_and_suffix_of_cons hrest
    refine addSwitch_isIn h ?_ fun given hgiven => ih given hgiven hrest
    rintro rfl
    have hspelled : arg = "--in-place" := Argument.eq_of_ofString harg
    exact hspelled ▸ hmem

end Steps

theorem Invocation.inPlace_of_ofGiven? {name derived interface : String} {before after : Given}
    {invocation : Invocation} (h : ofGiven? name before after = some invocation)
    (hcommand : invocation.command = .implement derived interface true) :
    name = "implement" ∧ after.has "in-place" = true ∧ invocation.file ∈ after.operands := by
  obtain ⟨command, hafter, h⟩ := Option.bind_eq_some_iff.1 h
  obtain ⟨file, hfile, h⟩ := Option.bind_eq_some_iff.1 h
  cases h
  subst hcommand
  obtain ⟨rfl, -, -, hplace⟩ := Command.ofGiven?_eq_implement_iff.1 hafter
  exact ⟨rfl, hplace, List.mem_of_head? hfile⟩

/-- The arguments behind an edit in place. -/
theorem Request.mem_of_parse? {args : List String} {invocation : Invocation}
    {derived interface : String} (h : parse? args = some (run invocation))
    (hcommand : invocation.command = .implement derived interface true) :
    "implement" ∈ args ∧ "--in-place" ∈ args ∧ invocation.file ∈ args := by
  obtain ⟨before, name, rest, hbefore, -, hrest⟩ := parse?_eq_run_iff.1 h
  obtain ⟨own, after, hown, hafter, hinvocation⟩ := ofCommand?_eq_run_iff.1 hrest
  obtain ⟨rfl, hplace, hfile⟩ := Invocation.inPlace_of_ofGiven? hinvocation hcommand
  have hline : (readArguments leadingOptions {} args).IsIn args :=
    readArguments_isIn offersFormat_leadingOptions ⟨nofun, nofun⟩ List.suffix_rfl
  rw [hbefore] at hline
  have hgiven : (readArguments (commandOptions own) {} rest).IsIn rest :=
    readArguments_isIn (offersFormat_implement hown) ⟨nofun, nofun⟩ List.suffix_rfl
  rw [hafter] at hgiven
  obtain ⟨hname, hsuffix⟩ := mem_and_suffix_of_cons hline
  exact ⟨hname, hsuffix.mem (hgiven.inPlace hplace), hsuffix.mem (hgiven.operands _ hfile)⟩

end ClassEdit
