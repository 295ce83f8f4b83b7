import ClassEdit.Command.Run
import ClassEdit.Proofs.ArgumentOrigin
import ClassEdit.Proofs.BaseName

/-!
# Edits in place

Commands read files and print. The one exception is an implementation in place, which leaves the
edited text in its file. What it leaves is what the command line that prints would have printed:
both run the same edit on the same unit, and only then the one writes and the other prints.

An edit in place writes before it prints. If the result cannot be put into the format asked for, or
if the output does not take it, the run fails with the file changed. So that a run that fails leaves
all files as they are rests on what the environment can do. All other failures come before the file
is written, and then nothing has changed in any environment.

## Main definitions

* `Action.Keeps`: the action leaves the directory as it is.
* `Environment.editedFile?`: the file that a command line may change.
* `Environment.Documented`: what is expected of an environment.

## Main statements

* `Environment.lookup_write`: the files after one has been written.
* `Command.run_keeps`, `Command.run_inPlace`: what commands do to the directory.
* `Invocation.run_inPlace`: an edit in place and the printing of it, in one directory.
* `Environment.documented_standard`: the environment of the program is as expected.
* `Environment.run_files`: the files after a command line.
-/

namespace ClassEdit

/-! ## Files -/

namespace Directory

variable (dir : Directory) (name : String) (content : List Char)

theorem names_write : (dir.write name content).names = dir.names := by
  rw [names, write, List.map_map]
  refine List.map_congr_left fun entry _ => ?_
  simp only [Function.comp_apply]
  split <;> rfl

/-- Writing a file keeps the others. -/
theorem lookup_write (other : String) : (dir.write name content).lookup other =
    if other = name then (dir.lookup other).map fun _ => { content } else dir.lookup other := by
  induction dir with
  | nil => simp [write]
  | cons entry dir ih =>
    obtain ⟨first, file⟩ := entry
    rw [write, List.map_cons, ← write]
    dsimp only
    by_cases hfirst : first = name
    · rw [if_pos hfirst, lookup_cons_eq_ite, lookup_cons_eq_ite, ih, hfirst]
      split <;> rfl
    · rw [if_neg hfirst, lookup_cons_eq_ite, lookup_cons_eq_ite, ih]
      split <;> simp_all

end Directory

namespace Environment

variable {env : Environment} {dir : Directory} {path : String}

theorem names_write (content : List Char) : (env.write dir path content).names = dir.names := by
  unfold write
  split
  · exact Directory.names_write dir _ content
  · rfl

theorem lookup_write_of_ne (content : List Char) {name : String}
    (h : env.locate? dir.names path ≠ some name) :
    (env.write dir path content).lookup name = dir.lookup name := by
  unfold write
  split
  next located hlocated =>
    rw [Directory.lookup_write, if_neg]
    rintro rfl
    exact h hlocated
  next => rfl

/-- A file that was there has the content written. -/
theorem find?_write {file : File} (content : List Char) (h : env.find? dir path = some file) :
    env.find? (env.write dir path content) path = some { content } := by
  obtain ⟨name, hname, hfile⟩ := Option.bind_eq_some_iff.1 h
  rw [find?, names_write, hname]
  change (env.write dir path content).lookup name = _
  rw [write, hname, Directory.lookup_write, if_pos rfl, hfile]
  rfl

theorem exists_of_loadUnit {u : TranslationUnit} (h : env.loadUnit dir path = .ok u) :
    ∃ file, env.find? dir path = some file := by
  rw [loadUnit] at h
  split at h
  · exact ⟨_, by assumption⟩
  · cases h

end Environment

/-! ## Actions -/

namespace Action

variable {α β : Type} {action : Action α} {next : α → Action β} {a : α} {error : CommandError}
  {dir after : Directory}

theorem apply_bind_of_ok (h : action.apply dir = (.ok a, after)) :
    (action >>= next).apply dir = (next a).apply after := by
  simp only [apply] at h ⊢
  rw [ExceptT.run_bind, StateT.run_bind, h]
  rfl

theorem apply_bind_of_error (h : action.apply dir = (.error error, after)) :
    (action >>= next).apply dir = (.error error, after) := by
  simp only [apply] at h ⊢
  rw [ExceptT.run_bind, StateT.run_bind, h]
  rfl

theorem apply_of_ok_bind (a : α) (next : α → Action β) (dir : Directory) :
    (of (.ok a) >>= next).apply dir = (next a).apply dir := rfl

theorem apply_get_bind (next : Directory → Action β) (dir : Directory) :
    ((get : Action Directory) >>= next).apply dir = (next dir).apply dir := rfl

/-- The action leaves the directory as it is, whether it fails or not. -/
def Keeps (action : Action α) : Prop :=
  ∀ dir, (action.apply dir).2 = dir

theorem keeps_get : (get : Action Directory).Keeps :=
  fun _ => rfl

theorem keeps_of {result : Except CommandError α} : (of result).Keeps :=
  fun _ => rfl

theorem Keeps.bind (h : action.Keeps) (hnext : ∀ a, (next a).Keeps) : (action >>= next).Keeps := by
  intro dir
  have hdir := h dir
  cases happly : action.apply dir with
  | mk result after =>
    obtain rfl : after = dir := by rwa [happly] at hdir
    cases result with
    | error error => rw [apply_bind_of_error happly]
    | ok a => rw [apply_bind_of_ok happly, hnext a after]

/-- Putting a result into a format does nothing to the files, and fails for its own reasons only. -/
theorem apply_format (env : Environment) (wanted : OutputFormat) (json : JsonValue) (text : String)
    (dir : Directory) :
    (∃ output, (format env wanted json text).apply dir = (.ok output, dir)) ∨
    ∃ reason, env.serialize json = .error reason ∧
      (format env wanted json text).apply dir = (.error (.output reason), dir) := by
  cases wanted with
  | text => exact .inl ⟨text, rfl⟩
  | json =>
    simp only [format]
    cases env.serialize json with
    | ok written => exact .inl ⟨_, rfl⟩
    | error reason => exact .inr ⟨reason, rfl, rfl⟩

theorem keeps_format {env : Environment} {wanted : OutputFormat} {json : JsonValue}
    {text : String} : (format env wanted json text).Keeps := by
  intro dir
  obtain ⟨output, happly⟩ | ⟨reason, -, happly⟩ := apply_format env wanted json text dir
  · rw [happly]
  · rw [happly]

end Action

/-- The failure has to do with the output alone. -/
def CommandError.IsOfOutput (error : CommandError) : Prop :=
  ∃ reason, error = output reason

theorem Environment.not_isOfOutput_of_loadUnit {env : Environment} {dir : Directory}
    {path : String} {error : CommandError} (h : env.loadUnit dir path = .error error) :
    ¬ error.IsOfOutput := by
  rw [loadUnit] at h
  split at h
  · cases h
  · cases h
    exact nofun

/-! ## Commands -/

namespace Command

variable {command : Command}

/-- A command without an edit in place does nothing to the files. -/
theorem run_keeps (h : ∀ derived interface, command ≠ .implement derived interface true)
    {env : Environment} {file : String} {u : TranslationUnit} {config : Config} :
    (command.run env file u config).Keeps := by
  cases command with
  | implement derived interface inPlace =>
    cases inPlace with
    | true => exact absurd rfl (h derived interface)
    | false =>
      refine Action.keeps_of.bind fun implementation => ?_
      exact Action.keeps_of.bind fun edited => Action.keeps_format
  | overrides interface =>
    exact Action.keeps_of.bind fun record => Action.keeps_format
  | place name =>
    refine Action.keeps_of.bind fun record => ?_
    exact Action.keeps_of.bind fun found => Action.keeps_format
  | base derived base =>
    refine Action.keeps_of.bind fun derivedRecord => ?_
    refine Action.keeps_of.bind fun baseRecord => ?_
    exact Action.keeps_of.bind fun insertion => Action.keeps_format

/-- An edit in place runs the same edit as one that is printed, and fails alike. If there is an
edited text, it is written before anything else is done. -/
theorem run_inPlace (env : Environment) (file : String) (u : TranslationUnit) (config : Config)
    (derived interface : String) (dir : Directory) :
    (∃ error : CommandError, ¬ error.IsOfOutput ∧
      ((implement derived interface true).run env file u config).apply dir = (.error error, dir) ∧
      ((implement derived interface false).run env file u { config with format := .text }).apply dir
        = (.error error, dir)) ∨
    ∃ edited json,
      ((implement derived interface true).run env file u config).apply dir =
        (Action.format env config.format json "").apply (env.write dir file edited) ∧
      ((implement derived interface false).run env file u { config with format := .text }).apply dir
        = (.ok (String.ofList edited), dir) := by
  simp only [run]
  cases u.implementNamed derived interface config.render with
  | error failure => exact .inl ⟨.failure failure, nofun, rfl, rfl⟩
  | ok implementation =>
    simp only [Except.mapError, Action.apply_of_ok_bind]
    cases implementation.apply u.source.text with
    | error error => exact .inl ⟨.failure (.edit error), nofun, rfl, rfl⟩
    | ok edited => exact .inr ⟨edited, implementation.toJson, rfl, rfl⟩

end Command

namespace Invocation

variable {invocation : Invocation}

theorem run_keeps
    (h : ∀ derived interface, invocation.command ≠ .implement derived interface true)
    (env : Environment) : (invocation.run env).Keeps := by
  refine Action.keeps_get.bind fun dir => Action.keeps_of.bind fun config => ?_
  exact Action.keeps_of.bind fun u => Command.run_keeps h

/-- An edit in place writes what the invocation that prints would print, or both fail alike. -/
theorem run_inPlace {derived interface : String} (env : Environment) (dir : Directory)
    (h : invocation.command = .implement derived interface true) :
    (∃ error : CommandError, ¬ error.IsOfOutput ∧
      (invocation.run env).apply dir = (.error error, dir) ∧
      (invocation.printing.run env).apply dir = (.error error, dir)) ∨
    ∃ edited file format json, env.find? dir invocation.file = some file ∧
      (invocation.run env).apply dir =
        (Action.format env format json "").apply (env.write dir invocation.file edited) ∧
      (invocation.printing.run env).apply dir = (.ok (String.ofList edited), dir) := by
  have hcommand : invocation.printing.command = .implement derived interface false := by
    rw [printing, h, Command.printing]
  have hconfig : invocation.printing.config = invocation.config := rfl
  have hfile : invocation.printing.file = invocation.file := rfl
  simp only [run, h, hcommand, hconfig, hfile, Action.apply_get_bind]
  cases env.loadConfig dir invocation.config with
  | error error => exact .inl ⟨.config error _, nofun, rfl, rfl⟩
  | ok config =>
    simp only [Except.mapError, Action.apply_of_ok_bind]
    cases hunit : env.loadUnit dir invocation.file with
    | error error => exact .inl ⟨error, Environment.not_isOfOutput_of_loadUnit hunit, rfl, rfl⟩
    | ok u =>
      obtain ⟨file, hfind⟩ := Environment.exists_of_loadUnit hunit
      have hsettings : invocation.printing.settings config =
          { invocation.settings config with format := .text } := rfl
      simp only [Action.apply_of_ok_bind, hsettings]
      obtain hfails | ⟨edited, json, hplace, hprint⟩ :=
        Command.run_inPlace env invocation.file u (invocation.settings config) derived interface dir
      · exact .inl hfails
      · exact .inr ⟨edited, file, _, json, hfind, hplace, hprint⟩

/-- A failure that has nothing to do with the output comes before anything is written. -/
theorem directory_of_error {env : Environment} {error : CommandError} {dir after : Directory}
    (h : (invocation.run env).apply dir = (.error error, after)) (herror : ¬ error.IsOfOutput) :
    after = dir := by
  by_cases hplace : ∃ derived interface, invocation.command = .implement derived interface true
  · obtain ⟨derived, interface, hplace⟩ := hplace
    obtain ⟨_, -, hrun, -⟩ | ⟨edited, _, format, json, -, hrun, -⟩ := run_inPlace env dir hplace
    · rw [hrun] at h
      exact (Prod.mk.inj h).2.symm
    · obtain ⟨output, hformat⟩ | ⟨reason, -, hformat⟩ :=
        Action.apply_format env format json "" (env.write dir invocation.file edited)
      · rw [hrun, hformat] at h
        cases h
      · rw [hrun, hformat] at h
        obtain ⟨rfl, -⟩ := Prod.mk.inj h |>.imp_left Except.error.inj
        exact absurd ⟨reason, rfl⟩ herror
  · have hkeeps := run_keeps (fun derived interface heq => hplace ⟨derived, interface, heq⟩) env dir
    rwa [h] at hkeeps

end Invocation

/-! ## Command lines -/

/-- The file that a request may change: that of an implementation in place. -/
def Request.editedFile? : Request → Option String
  | run { command := .implement _ _ true, file, .. } => some file
  | _ => none

namespace Environment

/-- The file that a command line may change. -/
def editedFile? (env : Environment) (args : List String) : Option String :=
  (env.request? args).bind Request.editedFile?

/-- What is expected of an environment. -/
structure Documented (env : Environment) : Prop where
  /-- The results of commands can be written as JSON. -/
  serializes : ∀ value, ∃ text, env.serialize value = .ok text
  /-- The output takes what is printed. -/
  prints : ∀ text, env.accepts text = true
  /-- The command, the switch and the file of an edit in place are arguments. -/
  spelled : ∀ args invocation derived interface, env.request? args = some (.run invocation) →
    invocation.command = .implement derived interface true →
    "implement" ∈ args ∧ "--in-place" ∈ args ∧ invocation.file ∈ args
  /-- The text format may be asked for in the place of an edit in place. -/
  printing : ∀ args invocation derived interface, env.request? args = some (.run invocation) →
    invocation.command = .implement derived interface true →
    env.request? (printingLine args) = some (.run invocation.printing)

theorem documented_standard : standard.Documented where
  serializes value := ⟨value.render, rfl⟩
  prints _ := rfl
  spelled _ _ _ _ := Request.mem_of_parse?
  printing _ _ _ _ := Request.parse?_printingLine

variable {env : Environment} {args : List String} {dir : Directory} {invocation : Invocation}

theorem editedFile?_eq_some {file : String} (h : env.editedFile? args = some file) :
    ∃ invocation derived interface, env.request? args = some (.run invocation) ∧
      invocation.command = .implement derived interface true ∧ invocation.file = file := by
  obtain ⟨request, hrequest, h⟩ := Option.bind_eq_some_iff.1 h
  unfold Request.editedFile? at h
  split at h
  · cases h
    exact ⟨_, _, _, hrequest, rfl, rfl⟩
  · cases h

theorem run_of_request (h : env.request? args = some (.run invocation)) (dir : Directory) :
    env.run args dir = env.print ((invocation.run env).apply dir) := by
  simp only [run, h]

theorem directory_print (result : Except CommandError String) (dir : Directory) :
    (env.print (result, dir)).directory = dir := by
  cases result with
  | error error => rfl
  | ok output =>
    simp only [print]
    split <;> rfl

/-- A line without an edit in place leaves all files as they are. -/
theorem directory_run_of_editedFile? (h : env.editedFile? args = none) (dir : Directory) :
    (env.run args dir).directory = dir := by
  match hrequest : env.request? args with
  | none => simp only [run, hrequest]
  | some .help => simp only [run, hrequest]
  | some .version => simp only [run, hrequest]
  | some (.run invocation) =>
    rw [run_of_request hrequest]
    have hplace : ∀ derived interface, invocation.command ≠ .implement derived interface true := by
      obtain ⟨command, file, config, format, ignoresAttributes⟩ := invocation
      rintro derived interface rfl
      simp [editedFile?, hrequest, Request.editedFile?] at h
    have hkeeps := invocation.run_keeps hplace env dir
    rw [← Prod.eta ((invocation.run env).apply dir), directory_print, hkeeps]

/-- In an environment as expected, an edit in place and the line that prints end alike. If they
succeed, the file has what is printed. -/
theorem Documented.run_inPlace (henv : env.Documented) {derived interface : String}
    (hrequest : env.request? args = some (.run invocation))
    (hcommand : invocation.command = .implement derived interface true) (dir : Directory) :
    (∃ diagnostic, env.run args dir = ⟨1, "", diagnostic, dir⟩ ∧
      env.run (printingLine args) dir = ⟨1, "", diagnostic, dir⟩) ∨
    ∃ output edited file, env.find? dir invocation.file = some file ∧
      env.run args dir = ⟨0, output, "", env.write dir invocation.file edited⟩ ∧
      env.run (printingLine args) dir = ⟨0, String.ofList edited, "", dir⟩ := by
  rw [run_of_request hrequest,
    run_of_request (henv.printing args invocation derived interface hrequest hcommand)]
  obtain ⟨error, -, hplace, hprint⟩ | ⟨edited, file, format, json, hfind, hplace, hprint⟩ :=
    Invocation.run_inPlace env dir hcommand
  · rw [hplace, hprint]
    exact .inl ⟨_, rfl, rfl⟩
  · obtain ⟨output, hformat⟩ | ⟨reason, hreason, -⟩ :=
      Action.apply_format env format json "" (env.write dir invocation.file edited)
    · rw [hplace, hprint, hformat]
      exact .inr ⟨output, edited, file, hfind, if_pos (henv.prints _), if_pos (henv.prints _)⟩
    · obtain ⟨text, htext⟩ := henv.serializes json
      cases htext.symm.trans hreason

/-- In every environment, files change only by an edit in place, and a run that fails for the
configuration, a lookup, a place or the edit itself leaves all files as they are. If the environment
is as expected, so does every run that does not succeed. The command, the switch and the file of an
edit in place are then arguments of the command line. No file is added or taken away by it, all but
the named one are as they were, and the content of that one is what the command line that prints
would have printed. That line leaves all files as they are, and if the edit fails, it fails with the
same message. -/
theorem run_files (env : Environment) (args : List String) (dir : Directory) :
    let outcome := env.run args dir
    let printed := env.run (printingLine args) dir
    (env.editedFile? args = none → outcome.directory = dir) ∧
    (∀ invocation error after, env.request? args = some (.run invocation) →
      (invocation.run env).apply dir = (.error error, after) → ¬ error.IsOfOutput →
      outcome.status = 1 ∧ outcome.directory = dir) ∧
    (env.Documented →
      (outcome.status ≠ 0 → outcome.directory = dir) ∧
      ∀ file, env.editedFile? args = some file →
        "implement" ∈ args ∧ "--in-place" ∈ args ∧ file ∈ args ∧
        printed.status = outcome.status ∧ printed.diagnostic = outcome.diagnostic ∧
        printed.directory = dir ∧
        (outcome.status = 0 →
          outcome.directory.names = dir.names ∧
          (∀ name, env.locate? dir.names file ≠ some name →
            outcome.directory.lookup name = dir.lookup name) ∧
          (env.find? outcome.directory file).map (·.content) = some printed.output.toList)) := by
  intro outcome printed
  refine ⟨fun hnone => directory_run_of_editedFile? hnone dir, ?_, fun henv => ⟨?_, ?_⟩⟩
  · intro invocation error after hrequest hrun herror
    have houtcome : outcome = env.print (.error error, after) := by
      rw [← hrun]
      exact run_of_request hrequest dir
    rw [houtcome]
    exact ⟨rfl, Invocation.directory_of_error hrun herror⟩
  · intro hstatus
    cases hedited : env.editedFile? args with
    | none => exact directory_run_of_editedFile? hedited dir
    | some file =>
      obtain ⟨invocation, derived, interface, hrequest, hcommand, -⟩ := editedFile?_eq_some hedited
      obtain ⟨diagnostic, hrun, -⟩ | ⟨output, edited, _, -, hrun, -⟩ :=
        henv.run_inPlace hrequest hcommand dir
      · exact congrArg Outcome.directory hrun
      · exact absurd (congrArg Outcome.status hrun) hstatus
  · intro file hedited
    obtain ⟨invocation, derived, interface, hrequest, hcommand, rfl⟩ := editedFile?_eq_some hedited
    obtain ⟨hname, hswitch, hfile⟩ :=
      henv.spelled args invocation derived interface hrequest hcommand
    refine ⟨hname, hswitch, hfile, ?_⟩
    obtain ⟨diagnostic, hrun, hprint⟩ | ⟨output, edited, found, hfound, hrun, hprint⟩ :=
      henv.run_inPlace hrequest hcommand dir
    · have houtcome : outcome = _ := hrun
      have hprinted : printed = _ := hprint
      rw [houtcome, hprinted]
      exact ⟨rfl, rfl, rfl, nofun⟩
    · have houtcome : outcome = _ := hrun
      have hprinted : printed = _ := hprint
      rw [houtcome, hprinted]
      refine ⟨rfl, rfl, rfl, fun _ => ⟨names_write edited, ?_, ?_⟩⟩
      · exact fun name hname => lookup_write_of_ne edited hname
      · simp [find?_write edited hfound]

end Environment

open TranslationUnit (bareStructTree) in
/-- A file with two classes, and another file in a directory below. -/
def twoClasses : Directory :=
  [("a.cpp", {
      content := "struct I \x7b\x7d;\nstruct D \x7b\x7d;\n".toList
      tree := some (.node ⟨.other, none, 0, 26, true, false⟩
        [bareStructTree 0, .terminal 11 12, bareStructTree 13, .terminal 24 25], false) }),
    ("sub/b.txt", { content := "b".toList })]

/-- A command line with an edit in place, for the file by another path. -/
def inPlaceLine : List String :=
  ["--format", "json", "implement", "sub/../a.cpp", "--class=D", "--in-place", "--interface", "I"]

theorem Environment.run_files_twoClasses :
    standard.Documented ∧
    standard.editedFile? inPlaceLine = some "sub/../a.cpp" ∧
    printingLine inPlaceLine =
      ["implement", "sub/../a.cpp", "--class=D", "--format=text", "--interface", "I"] ∧
    (runCommandLine inPlaceLine twoClasses).status = 0 ∧
    (runCommandLine (printingLine inPlaceLine) twoClasses).directory = twoClasses ∧
    (standard.find? (runCommandLine inPlaceLine twoClasses).directory "sub/../a.cpp").map
      (·.content) = some "struct I \x7b\x7d;\nstruct D : public I \x7b\x7d;\n".toList ∧
    (runCommandLine inPlaceLine twoClasses).directory.lookup "sub/b.txt" =
      twoClasses.lookup "sub/b.txt" := by
  have hfile : standard.editedFile? inPlaceLine = some "sub/../a.cpp" := by decide +kernel
  have hstatus : (runCommandLine inPlaceLine twoClasses).status = 0 := by decide +kernel
  have houtput : (runCommandLine (printingLine inPlaceLine) twoClasses).output =
      "struct I \x7b\x7d;\nstruct D : public I \x7b\x7d;\n" := by decide +kernel
  obtain ⟨-, -, hfiles⟩ := run_files standard inPlaceLine twoClasses
  obtain ⟨-, -, -, -, -, hprinted, hrun⟩ := (hfiles documented_standard).2 "sub/../a.cpp" hfile
  obtain ⟨-, hothers, hcontent⟩ := hrun hstatus
  refine ⟨documented_standard, hfile, by decide +kernel, hstatus, hprinted, ?_,
    hothers "sub/b.txt" (by decide +kernel)⟩
  rw [← houtput]
  exact hcontent

/-- An environment that cannot write JSON. -/
def Environment.withoutJson : Environment :=
  { standard with serialize := fun _ => .error "no JSON" }

/-- The file is written first: if the result cannot be put into the format asked for, the run fails
with the file changed. -/
example :
    let result := Environment.withoutJson.run inPlaceLine twoClasses
    result.status = 1 ∧ (result.directory.lookup "a.cpp").map (·.content) =
      some "struct I \x7b\x7d;\nstruct D : public I \x7b\x7d;\n".toList := by
  decide +kernel

end ClassEdit
