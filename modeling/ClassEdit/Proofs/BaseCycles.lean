import ClassEdit.Edit.Session
import ClassEdit.Proofs.BaseName

/-!
# Cycles of bases

A class may not be a base of itself. An edit that gives a class a new base puts an edge into the
graph of bases, and the edge closes a cycle if and only if the new base derives from the class, or
is the class. An edit is refused for a class and itself, but not for a class and one that derives
from it, so a session keeps the graph free of cycles exactly as long as no step adds a base that
derives from the class.

A base is added by its name, and the name may stand for another class than the one meant. So when
the text is read again there are two ways to get a cycle: the name stands for the interface, which
derives from the class, or it stands for another class, which derives from the class or is it.

## Main definitions

* `BaseGraph.IsAcyclic`: no class is a base of itself.
* `BaseGraph.withBase`: the graph with one more base of a class.
* `Step.newBase?`, `Step.graphAfter`: what a step of a session does to the graph.
* `sessionStates`, `KeepsGraphs`: the steps of a session with the texts they start from, and that
  the trees of these texts have the graphs that the steps left.
* `Step.Rereads`: a text is read again with the base clauses that a step left.
* `Step.TurnsToInterface`, `Step.TurnsToAnother`: the two ways to get a cycle.

## Main statements

* `BaseGraph.transGen_withBase_iff`: the paths of a graph with one more base.
* `Step.isAcyclic_graphAfter_iff`, `isAcyclic_sessionStates_iff`: when a step, and a session, keep
  the graph free of cycles.
* `Step.Rereads.isAcyclic_iff`, `isAcyclic_units_iff`: when the texts that a session reads are free
  of cycles.
-/

namespace ClassEdit

open Relation (ReflTransGen TransGen)

namespace BaseGraph

/-- No class is a direct or indirect base of itself. -/
def IsAcyclic (g : BaseGraph) : Prop :=
  ∀ id, ¬ TransGen g.HasBase id id

/-- The graph in which `base` is one more base of `derived`. -/
def withBase (g : BaseGraph) (derived base : RecordId) : BaseGraph :=
  g.modify derived (· ++ [base])

variable {g : BaseGraph} {derived base : RecordId}

theorem hasBase_withBase_iff (hd : derived < g.length) {a b : RecordId} :
    (g.withBase derived base).HasBase a b ↔ g.HasBase a b ∨ a = derived ∧ b = base := by
  have hderived : g[derived]? = some g[derived] := List.getElem?_eq_getElem hd
  by_cases h : derived = a
  · subst h
    simp [HasBase, basesOf, withBase, hderived]
  · simp [HasBase, basesOf, withBase, h, Ne.symm h]

/-- A path of the new graph is one of the old graph, or goes over the new edge. In the second case
it is cut at the first and at the last use of the edge. -/
theorem transGen_withBase_iff (hd : derived < g.length) {a b : RecordId} :
    TransGen (g.withBase derived base).HasBase a b ↔ TransGen g.HasBase a b ∨
      ReflTransGen g.HasBase a derived ∧ ReflTransGen g.HasBase base b := by
  constructor
  · intro h
    induction h with
    | single hedge =>
      obtain hold | ⟨rfl, rfl⟩ := (hasBase_withBase_iff hd).1 hedge
      · exact .inl (.single hold)
      · exact .inr ⟨.refl, .refl⟩
    | tail _ hedge ih =>
      obtain hold | ⟨rfl, rfl⟩ := (hasBase_withBase_iff hd).1 hedge
      · obtain hpath | ⟨hto, hfrom⟩ := ih
        · exact .inl (hpath.tail hold)
        · exact .inr ⟨hto, hfrom.tail hold⟩
      · obtain hpath | ⟨hto, -⟩ := ih
        · exact .inr ⟨hpath.to_reflTransGen, .refl⟩
        · exact .inr ⟨hto, .refl⟩
  · have hkeep : ∀ x y, g.HasBase x y → (g.withBase derived base).HasBase x y :=
      fun x y h => (hasBase_withBase_iff hd).2 (.inl h)
    have hnew : (g.withBase derived base).HasBase derived base :=
      (hasBase_withBase_iff hd).2 (.inr ⟨rfl, rfl⟩)
    rintro (hpath | ⟨hto, hfrom⟩)
    · exact TransGen.mono hkeep _ _ hpath
    · exact TransGen.trans_right (ReflTransGen.mono hkeep _ _ hto)
        (TransGen.head' hnew (ReflTransGen.mono hkeep _ _ hfrom))

/-- A new base closes a cycle if and only if there is a path back to the class. -/
theorem isAcyclic_withBase_iff (hd : derived < g.length) (hg : g.IsAcyclic) :
    (g.withBase derived base).IsAcyclic ↔ ¬ ReflTransGen g.HasBase base derived := by
  constructor
  · intro hacyclic hback
    exact hacyclic derived ((transGen_withBase_iff hd).2 (.inr ⟨.refl, hback⟩))
  · intro hback id hcycle
    obtain hold | ⟨hto, hfrom⟩ := (transGen_withBase_iff hd).1 hcycle
    · exact hg id hold
    · exact hback (hfrom.trans hto)

/-- Cycles are found by a visit from each class. -/
theorem isAcyclic_iff (hg : g.IsClosed) :
    g.IsAcyclic ↔ ∀ id < g.length, id ∉ g.reachedFrom (g.basesOf id) := by
  simp only [IsAcyclic, reachedFrom_eq_visitOrder, mem_visitOrder_iff hg]
  refine ⟨fun h id _ => h id, fun h id hcycle => h id ?_ hcycle⟩
  obtain ⟨last, -, hlast⟩ := TransGen.tail'_iff.1 hcycle
  exact hg.lt_length last id hlast

end BaseGraph

/-! ## One edit -/

namespace TranslationUnit

variable {document : Document} {tree : Tree} {hasErrors : Bool}

/-- A way over bases leads from a class to itself and to the classes it derives from. -/
theorem reflTransGen_iff_isDerivedFrom {derived base : Record}
    (hbase : (ofTree document tree hasErrors).records[base.id]? = some base) :
    ReflTransGen (ofTree document tree hasErrors).baseGraph.HasBase base.id derived.id ↔
      base.id = derived.id ∨
        (ofTree document tree hasErrors).isDerivedFrom base derived = true := by
  rw [isDerivedFrom_iff isClosed_baseGraph hbase, Relation.reflTransGen_iff_eq_or_transGen,
    eq_comm]

/-- The base that an edit adds closes a cycle if and only if it derives from the class. -/
theorem isAcyclic_withBase_iff_of_implement {derived interface : Record} {options : RenderOptions}
    {edit : Implementation}
    (hacyclic : (ofTree document tree hasErrors).baseGraph.IsAcyclic)
    (hderived : (ofTree document tree hasErrors).records[derived.id]? = some derived)
    (hinterface : (ofTree document tree hasErrors).records[interface.id]? = some interface)
    (hedit : (ofTree document tree hasErrors).implement derived interface options = .ok edit) :
    ((ofTree document tree hasErrors).baseGraph.withBase derived.id interface.id).IsAcyclic ↔
      (ofTree document tree hasErrors).isDerivedFrom interface derived = false := by
  obtain ⟨hne, -⟩ := implement_eq_ok hedit
  rw [BaseGraph.isAcyclic_withBase_iff (lt_length_baseGraph hderived) hacyclic,
    reflTransGen_iff_isDerivedFrom hinterface, or_iff_right (Ne.symm hne), Bool.not_eq_true]

theorem mem_records_of_findRecord {u : TranslationUnit} {name : String} {record : Record}
    (h : u.findRecord name = .ok record) : record ∈ u.records := by
  rw [findRecord] at h
  split at h
  next found hfound =>
    obtain rfl := Except.ok.inj h
    exact List.mem_of_find?_eq_some hfound
  next =>
    dsimp only at h
    split at h
    · cases h
    next found rest _ hcandidates _ =>
      obtain rfl := Except.ok.inj h
      exact List.mem_of_mem_filter (hcandidates ▸ List.mem_cons_self)
    · cases h

/-- A class found by name is the class with its number. -/
theorem getElem?_of_record {name : String} {record : Record}
    (h : (ofTree document tree hasErrors).record name = .ok record) :
    (ofTree document tree hasErrors).records[record.id]? = some record :=
  getElem?_of_mem (mem_records_of_findRecord (mapError_eq_ok.1 h))

end TranslationUnit

/-! ## Sessions -/

namespace Step

/-- The unit that a step works on. -/
def unit (step : Step) (text : List Char) : TranslationUnit :=
  .ofTree { text } step.tree step.hasErrors

/-- The text that a step leaves. -/
def textAfter (step : Step) (text : List Char) : List Char :=
  match step.run text with
  | .ok report => report.text
  | .error _ => text

/-- The class that gets a base from a step, and the base. -/
def newBase? (step : Step) (text : List Char) : Option (Record × Record) := do
  let report ← (step.run text).toOption
  let derived ← ((step.unit text).record step.derived).toOption
  let interface ← ((step.unit text).record step.interface).toOption
  if report.baseAdded then some (derived, interface) else none

/-- The graph of bases with the base that a step adds. -/
def graphAfter (step : Step) (text : List Char) : BaseGraph :=
  match step.newBase? text with
  | some (derived, interface) => (step.unit text).baseGraph.withBase derived.id interface.id
  | none => (step.unit text).baseGraph

/-- The step gives a class a base that derives from the class. -/
def TurnsAround (step : Step) (text : List Char) : Prop :=
  ∃ derived interface, step.newBase? text = some (derived, interface) ∧
    (step.unit text).isDerivedFrom interface derived = true

variable {step : Step} {text : List Char}

/-- A step that succeeds has made the edit for the two classes of its names. -/
theorem exists_edit_of_run {report : StepReport} (h : step.run text = .ok report) :
    ∃ derived interface edit, (step.unit text).record step.derived = .ok derived ∧
      (step.unit text).record step.interface = .ok interface ∧
      (step.unit text).implement derived interface step.options = .ok edit ∧
      report.baseAdded = edit.baseSpecifier.isSome := by
  obtain ⟨edit, hnamed, h⟩ := exists_of_bind_eq_ok h
  obtain ⟨derived, hderived, hnamed⟩ := exists_of_bind_eq_ok hnamed
  obtain ⟨interface, hinterface, hedit⟩ := exists_of_bind_eq_ok hnamed
  obtain ⟨after, -, h⟩ := exists_of_bind_eq_ok h
  obtain rfl := Except.ok.inj h
  exact ⟨derived, interface, edit, hderived, hinterface, mapError_eq_ok.1 hedit, rfl⟩

/-- A base comes from an edit for two classes of the unit. -/
theorem exists_edit_of_newBase? {derived interface : Record}
    (h : step.newBase? text = some (derived, interface)) :
    (step.unit text).records[derived.id]? = some derived ∧
      (step.unit text).records[interface.id]? = some interface ∧
      ∃ edit, (step.unit text).implement derived interface step.options = .ok edit := by
  cases hrun : step.run text with
  | error failure => simp [newBase?, hrun, Except.toOption] at h
  | ok report =>
    obtain ⟨_, _, edit, hderived, hinterface, hedit, -⟩ := exists_edit_of_run hrun
    simp only [newBase?, hrun, hderived, hinterface, Except.toOption, Option.bind_eq_bind,
      Option.bind_some, Option.ite_none_right_eq_some, Option.some.injEq, Prod.mk.injEq] at h
    obtain ⟨-, rfl, rfl⟩ := h
    exact ⟨TranslationUnit.getElem?_of_record hderived,
      TranslationUnit.getElem?_of_record hinterface, edit, hedit⟩

theorem isAcyclic_graphAfter_iff (hacyclic : (step.unit text).baseGraph.IsAcyclic) :
    (step.graphAfter text).IsAcyclic ↔ ¬ step.TurnsAround text := by
  cases hnew : step.newBase? text with
  | none => simp [graphAfter, TurnsAround, hnew, hacyclic]
  | some classes =>
    obtain ⟨derived, interface⟩ := classes
    obtain ⟨hderived, hinterface, edit, hedit⟩ := exists_edit_of_newBase? hnew
    have hiff : ((step.unit text).baseGraph.withBase derived.id interface.id).IsAcyclic ↔
        (step.unit text).isDerivedFrom interface derived = false :=
      TranslationUnit.isAcyclic_withBase_iff_of_implement hacyclic hderived hinterface hedit
    simpa [graphAfter, TurnsAround, hnew] using hiff

end Step

/-- The steps of a session with the texts they start from. -/
def sessionStates : List Char → List Step → List (Step × List Char)
  | _, [] => []
  | text, step :: steps => (step, text) :: sessionStates (step.textAfter text) steps

theorem runSession_eq_map (text : List Char) (steps : List Step) :
    runSession text steps = (sessionStates text steps).map fun state => state.1.run state.2 := by
  induction steps generalizing text with
  | nil => rfl
  | cons step steps ih =>
    cases hrun : step.run text <;> simp [runSession, sessionStates, Step.textAfter, hrun, ih]

/-- The texts of a session that starts with the graph of bases `g` have the graphs that the steps
left. -/
def KeepsGraphs : BaseGraph → List Char → List Step → Prop
  | _, _, [] => True
  | g, text, step :: steps =>
    (step.unit text).baseGraph = g ∧
      KeepsGraphs (step.graphAfter text) (step.textAfter text) steps

/-- A session keeps the graph of bases free of cycles as long as no step turns around. -/
theorem isAcyclic_sessionStates_iff {g : BaseGraph} {text : List Char} {steps : List Step}
    (hg : g.IsAcyclic) (hkeeps : KeepsGraphs g text steps) :
    (∀ state ∈ sessionStates text steps, (state.1.graphAfter state.2).IsAcyclic) ↔
      ∀ state ∈ sessionStates text steps, ¬ state.1.TurnsAround state.2 := by
  induction steps generalizing g text with
  | nil => simp [sessionStates]
  | cons step steps ih =>
    obtain ⟨rfl, hrest⟩ := hkeeps
    simp only [sessionStates, List.forall_mem_cons]
    rw [← Step.isAcyclic_graphAfter_iff hg]
    exact and_congr_right fun hafter => ih hafter hrest

/-! ## Texts that are read again -/

namespace Step

/-- The bases as they are written once a step has added one. -/
def writtenAfter (step : Step) (text : List Char) : List (Scope × List String) :=
  let written := writtenBases { text } step.tree
  match step.newBase? text with
  | some (derived, interface) =>
    written.modify derived.id fun clause => (clause.1, clause.2 ++ [interface.spelledName])
  | none => written

/-- The class that the name of a new base of a class stands for. -/
def denoted? (step : Step) (text : List Char) (derived interface : Record) : Option RecordId := do
  let clause ← (writtenBases { text } step.tree)[derived.id]?
  (baseNames { text } step.tree).resolveRecord interface.spelledName clause.1

/-- The text after a step is read with the same names, and with the same bases but for the one that
the step adds. -/
structure Rereads (state next : Step × List Char) : Prop where
  names : baseNames { text := next.2 } next.1.tree = baseNames { text := state.2 } state.1.tree
  bases : writtenBases { text := next.2 } next.1.tree = state.1.writtenAfter state.2

/-- The step adds a base to a class with a name that stands for `base`. -/
structure Adds (step : Step) (text : List Char) (derived interface base : Record) : Prop where
  newBase : step.newBase? text = some (derived, interface)
  denotes : step.denoted? text derived interface = some base.id
  mem : base ∈ (step.unit text).records

/-- The name that the step adds to a class stands for the interface, which derives from the
class. -/
def TurnsToInterface (step : Step) (text : List Char) : Prop :=
  ∃ derived interface, step.Adds text derived interface interface ∧
    (step.unit text).isDerivedFrom interface derived = true

/-- The name that the step adds to a class stands for another class than the interface, which is the
class or derives from it. -/
def TurnsToAnother (step : Step) (text : List Char) : Prop :=
  ∃ derived interface other, step.Adds text derived interface other ∧ other.id ≠ interface.id ∧
    (other.id = derived.id ∨ (step.unit text).isDerivedFrom other derived = true)

end Step

/-- One more name in a base clause is one more base if the name stands for a class. -/
theorem Names.map_resolveBases_modify {names : Names} {clauses : List (Scope × List String)}
    {id : RecordId} {clause : Scope × List String} (h : clauses[id]? = some clause)
    (name : String) :
    (clauses.modify id fun clause => (clause.1, clause.2 ++ [name])).map names.resolveBases =
      (clauses.map names.resolveBases).modify id
        (· ++ (names.resolveRecord name clause.1).toList) := by
  refine List.ext_getElem? fun i => ?_
  rw [List.getElem?_map, List.getElem?_modify, List.getElem?_modify, List.getElem?_map]
  by_cases hi : id = i
  · subst hi
    cases hname : names.resolveRecord name clause.1 <;>
      simp [h, resolveBases, List.filterMap_append, hname]
  · simp [hi]

namespace Step

variable {step : Step} {text : List Char} {state next : Step × List Char}

theorem newBase?_ne {derived interface : Record}
    (h : step.newBase? text = some (derived, interface)) : interface.id ≠ derived.id := by
  obtain ⟨-, -, edit, hedit⟩ := exists_edit_of_newBase? h
  exact Ne.symm (TranslationUnit.implement_eq_ok hedit).1

/-- A step turns around if what its name stands for derives from the class or is the class. -/
theorem turns_iff : step.TurnsToInterface text ∨ step.TurnsToAnother text ↔
    ∃ derived interface base, step.Adds text derived interface base ∧
      (base.id = derived.id ∨ (step.unit text).isDerivedFrom base derived = true) := by
  constructor
  · rintro (⟨derived, interface, hadds, hback⟩ | ⟨derived, interface, other, hadds, -, hback⟩)
    · exact ⟨derived, interface, interface, hadds, .inr hback⟩
    · exact ⟨derived, interface, other, hadds, hback⟩
  · rintro ⟨derived, interface, base, hadds, hback⟩
    obtain ⟨-, hinterface, -⟩ := exists_edit_of_newBase? hadds.newBase
    by_cases hsame : base.id = interface.id
    · have hbase := TranslationUnit.getElem?_of_mem hadds.mem
      rw [hsame] at hbase
      obtain rfl := Option.some.inj (hinterface.symm.trans hbase)
      exact .inl ⟨derived, interface, hadds, hback.resolve_left (newBase?_ne hadds.newBase)⟩
    · exact .inr ⟨derived, interface, base, hadds, hsame, hback⟩

/-- A step adds one base to one class. -/
theorem Adds.unique {derived interface base derived' interface' base' : Record}
    (h : step.Adds text derived interface base) (h' : step.Adds text derived' interface' base') :
    derived = derived' ∧ base = base' := by
  obtain ⟨rfl, rfl⟩ := Prod.mk.inj (Option.some.inj (h.newBase.symm.trans h'.newBase))
  have hid : base.id = base'.id := Option.some.inj (h.denotes.symm.trans h'.denotes)
  have hbase := TranslationUnit.getElem?_of_mem h.mem
  rw [hid, TranslationUnit.getElem?_of_mem h'.mem] at hbase
  exact ⟨rfl, (Option.some.inj hbase).symm⟩

theorem exists_adds {derived interface : Record} {id : RecordId}
    (hnew : step.newBase? text = some (derived, interface))
    (hdenoted : step.denoted? text derived interface = some id) :
    ∃ base, step.Adds text derived interface base := by
  obtain ⟨clause, -, hresolve⟩ := Option.bind_eq_some_iff.1 hdenoted
  obtain ⟨base, hbase, rfl⟩ :=
    @TranslationUnit.exists_of_resolveRecord _ _ step.hasErrors _ _ _ hresolve
  exact ⟨base, hnew, hdenoted, List.mem_of_getElem? hbase⟩

namespace Rereads

/-- The text after the step has what the new name stands for as one more base of the class. -/
theorem baseGraph_eq_of_newBase? (h : Rereads state next) {derived interface : Record}
    (hnew : state.1.newBase? state.2 = some (derived, interface)) :
    (next.1.unit next.2).baseGraph = (state.1.unit state.2).baseGraph.modify derived.id
      (· ++ (state.1.denoted? state.2 derived interface).toList) := by
  obtain ⟨hderived, -⟩ := exists_edit_of_newBase? hnew
  have hlt := TranslationUnit.lt_length_baseGraph hderived
  rw [unit, TranslationUnit.baseGraph_ofTree, List.length_map] at hlt
  obtain ⟨clause, hclause⟩ : ∃ clause,
      (writtenBases { text := state.2 } state.1.tree)[derived.id]? = some clause :=
    ⟨_, List.getElem?_eq_getElem hlt⟩
  have hdenoted : state.1.denoted? state.2 derived interface =
      (baseNames { text := state.2 } state.1.tree).resolveRecord interface.spelledName
        clause.1 := by
    rw [denoted?, hclause, Option.bind_eq_bind, Option.bind_some]
  rw [unit, TranslationUnit.baseGraph_ofTree, h.names, h.bases, writtenAfter, hnew, unit,
    TranslationUnit.baseGraph_ofTree, hdenoted]
  exact Names.map_resolveBases_modify hclause interface.spelledName

theorem baseGraph_eq_withBase (h : Rereads state next) {derived interface base : Record}
    (hadds : state.1.Adds state.2 derived interface base) :
    (next.1.unit next.2).baseGraph =
      (state.1.unit state.2).baseGraph.withBase derived.id base.id := by
  rw [h.baseGraph_eq_of_newBase? hadds.newBase, hadds.denotes]
  rfl

theorem baseGraph_eq_self (h : Rereads state next)
    (hnone : ∀ derived interface base, ¬ state.1.Adds state.2 derived interface base) :
    (next.1.unit next.2).baseGraph = (state.1.unit state.2).baseGraph := by
  cases hnew : state.1.newBase? state.2 with
  | none =>
    rw [unit, TranslationUnit.baseGraph_ofTree, h.names, h.bases, writtenAfter, hnew, unit,
      TranslationUnit.baseGraph_ofTree]
  | some classes =>
    obtain ⟨derived, interface⟩ := classes
    cases hdenoted : state.1.denoted? state.2 derived interface with
    | none =>
      rw [h.baseGraph_eq_of_newBase? hnew, hdenoted]
      simp only [Option.toList_none, List.append_nil]
      exact List.modify_id ..
    | some id =>
      obtain ⟨base, hadds⟩ := exists_adds hnew hdenoted
      exact absurd hadds (hnone derived interface base)

/-- A text that is read again after a step is free of cycles unless the new name stands for a class
that derives from the class, or for the class. -/
theorem isAcyclic_iff (h : Rereads state next)
    (hacyclic : (state.1.unit state.2).baseGraph.IsAcyclic) :
    (next.1.unit next.2).baseGraph.IsAcyclic ↔
      ¬ (state.1.TurnsToInterface state.2 ∨ state.1.TurnsToAnother state.2) := by
  rw [turns_iff]
  by_cases hadded : ∃ derived interface base, state.1.Adds state.2 derived interface base
  · obtain ⟨derived, interface, base, hadds⟩ := hadded
    obtain ⟨hderived, -⟩ := exists_edit_of_newBase? hadds.newBase
    have hback : ReflTransGen (state.1.unit state.2).baseGraph.HasBase base.id derived.id ↔ _ :=
      TranslationUnit.reflTransGen_iff_isDerivedFrom
        (TranslationUnit.getElem?_of_mem hadds.mem)
    rw [h.baseGraph_eq_withBase hadds, BaseGraph.isAcyclic_withBase_iff
      (TranslationUnit.lt_length_baseGraph hderived) hacyclic, hback]
    refine not_congr ⟨fun hback => ⟨derived, interface, base, hadds, hback⟩, ?_⟩
    rintro ⟨derived', interface', base', hadds', hback⟩
    obtain ⟨rfl, rfl⟩ := hadds.unique hadds'
    exact hback
  · rw [h.baseGraph_eq_self fun derived interface base hadds =>
      hadded ⟨derived, interface, base, hadds⟩]
    exact iff_of_true hacyclic fun ⟨derived, interface, base, hadds, _⟩ =>
      hadded ⟨derived, interface, base, hadds⟩

end Rereads

end Step

/-- The texts that are read one after the other are free of cycles as long as no step, but maybe
the last one, adds a name that turns around. -/
theorem isAcyclic_units_iff {states : List (Step × List Char)}
    (hfirst : ∀ state ∈ states.head?, (state.1.unit state.2).baseGraph.IsAcyclic)
    (hchain : states.IsChain Step.Rereads) :
    (∀ state ∈ states, (state.1.unit state.2).baseGraph.IsAcyclic) ↔
      ∀ state ∈ states.dropLast,
        ¬ (state.1.TurnsToInterface state.2 ∨ state.1.TurnsToAnother state.2) := by
  induction states with
  | nil => simp
  | cons state states ih =>
    have hacyclic := hfirst state rfl
    cases states with
    | nil => simpa using hacyclic
    | cons next states =>
      obtain ⟨hreads, hrest⟩ := List.isChain_cons_cons.1 hchain
      rw [List.forall_mem_cons, and_iff_right hacyclic, List.dropLast_cons_cons,
        List.forall_mem_cons (a := state), ← hreads.isAcyclic_iff hacyclic]
      constructor
      · intro h
        have hnext := h next List.mem_cons_self
        exact ⟨hnext, (ih (by simpa using hnext) hrest).1 h⟩
      · rintro ⟨hnext, h⟩
        exact (ih (by simpa using hnext) hrest).2 h

namespace TranslationUnit

/-- The base that an edit adds to a class of a unit without cycles leaves it without cycles if and
only if the interface does not derive from the class. So the graphs that the steps of a session
leave are free of cycles if and only if no step adds a base that derives from the class. The texts
that a session reads, one after the other, are free of cycles if and only if no step before the last
one adds a name that stands for an interface that derives from the class, or for another class that
derives from the class or is the class. -/
theorem isAcyclic_after_implement_iff (document : Document) (tree : Tree) (hasErrors : Bool)
    (g : BaseGraph) (text : List Char) (steps : List Step) :
    let u := ofTree document tree hasErrors
    (u.baseGraph.IsAcyclic → ∀ derived ∈ u.records, ∀ interface ∈ u.records, ∀ options edit,
      u.implement derived interface options = .ok edit →
      ((u.baseGraph.withBase derived.id interface.id).IsAcyclic ↔
        u.isDerivedFrom interface derived = false)) ∧
    (g.IsAcyclic → KeepsGraphs g text steps →
      runSession text steps = (sessionStates text steps).map (fun state => state.1.run state.2) ∧
      ((∀ state ∈ sessionStates text steps, (state.1.graphAfter state.2).IsAcyclic) ↔
        ∀ state ∈ sessionStates text steps, ¬ state.1.TurnsAround state.2)) ∧
    ((∀ state ∈ (sessionStates text steps).head?, (state.1.unit state.2).baseGraph.IsAcyclic) →
      (sessionStates text steps).IsChain Step.Rereads →
      ((∀ state ∈ sessionStates text steps, (state.1.unit state.2).baseGraph.IsAcyclic) ↔
        ∀ state ∈ (sessionStates text steps).dropLast,
          ¬ (state.1.TurnsToInterface state.2 ∨ state.1.TurnsToAnother state.2))) := by
  intro u
  refine ⟨?_, ?_, isAcyclic_units_iff⟩
  · intro hacyclic derived hderived interface hinterface options edit hedit
    exact isAcyclic_withBase_iff_of_implement hacyclic (getElem?_of_mem hderived)
      (getElem?_of_mem hinterface) hedit
  · intro hg hkeeps
    exact ⟨runSession_eq_map text steps, isAcyclic_sessionStates_iff hg hkeeps⟩

/-- A class and one that derives from it. -/
def baseAndDerived : Document where
  text := "struct D \x7b\x7d;\nstruct I : D \x7b\x7d;\n".toList

/-- The tree of `baseAndDerived`. -/
def baseAndDerivedTree : Tree :=
  .node ⟨.other, none, 0, 30, true, false⟩
    [.node ⟨.structSpecifier, none, 0, 11, true, false⟩
      [.terminal 0 6, .node ⟨.typeIdentifier, some .name, 7, 8, true, false⟩ [],
        .node ⟨.other, some .body, 9, 11, true, false⟩ [.terminal 9 10, .terminal 10 11]],
      .terminal 11 12,
      .node ⟨.structSpecifier, none, 13, 28, true, false⟩
        [.terminal 13 19, .node ⟨.typeIdentifier, some .name, 20, 21, true, false⟩ [],
          .node ⟨.baseClassClause, none, 22, 25, true, false⟩
            [.node ⟨.colon, none, 22, 23, false, false⟩ [],
              .node ⟨.typeIdentifier, none, 24, 25, true, false⟩ []],
          .node ⟨.other, some .body, 26, 28, true, false⟩ [.terminal 26 27, .terminal 27 28]],
      .terminal 28 29]

/-- The tree of `baseAndDerived` once the class implements the one that derives from it. -/
def turnedTree : Tree :=
  .node ⟨.other, none, 0, 41, true, false⟩
    [.node ⟨.structSpecifier, none, 0, 22, true, false⟩
      [.terminal 0 6, .node ⟨.typeIdentifier, some .name, 7, 8, true, false⟩ [],
        .node ⟨.baseClassClause, none, 9, 19, true, false⟩
          [.node ⟨.colon, none, 9, 10, false, false⟩ [],
            .node ⟨.accessSpecifier, none, 11, 17, true, false⟩ [.terminal 11 17],
            .node ⟨.typeIdentifier, none, 18, 19, true, false⟩ []],
        .node ⟨.other, some .body, 20, 22, true, false⟩ [.terminal 20 21, .terminal 21 22]],
      .terminal 22 23,
      .node ⟨.structSpecifier, none, 24, 39, true, false⟩
        [.terminal 24 30, .node ⟨.typeIdentifier, some .name, 31, 32, true, false⟩ [],
          .node ⟨.baseClassClause, none, 33, 36, true, false⟩
            [.node ⟨.colon, none, 33, 34, false, false⟩ [],
              .node ⟨.typeIdentifier, none, 35, 36, true, false⟩ []],
          .node ⟨.other, some .body, 37, 39, true, false⟩ [.terminal 37 38, .terminal 38 39]],
      .terminal 39 40]

/-- The step that makes the class implement the one that derives from it. -/
def turningStep (tree : Tree) : Step :=
  ⟨tree, false, "D", "I", {}⟩

/-- The step made twice. -/
def turningSession : List Step :=
  [turningStep baseAndDerivedTree, turningStep turnedTree]

/-- A class in a namespace with the name of one outside. -/
def sameName : Document where
  text := "struct I \x7b\x7d;\nnamespace n \x7b\nstruct I \x7b\x7d;\n\x7d\n".toList

/-- The tree of `sameName`. -/
def sameNameTree : Tree :=
  .node ⟨.other, none, 0, 42, true, false⟩
    [bareStructTree 0, .terminal 11 12,
      .node ⟨.namespaceDefinition, none, 13, 41, true, false⟩
        [.terminal 13 22, .node ⟨.other, some .name, 23, 24, true, false⟩ [],
          .node ⟨.declarationList, some .body, 25, 41, true, false⟩
            [.terminal 25 26, bareStructTree 27, .terminal 38 39, .terminal 40 41]]]

/-- The tree of `sameName` once the class in the namespace implements the one outside. -/
def ownBaseTree : Tree :=
  .node ⟨.other, none, 0, 53, true, false⟩
    [bareStructTree 0, .terminal 11 12,
      .node ⟨.namespaceDefinition, none, 13, 52, true, false⟩
        [.terminal 13 22, .node ⟨.other, some .name, 23, 24, true, false⟩ [],
          .node ⟨.declarationList, some .body, 25, 52, true, false⟩
            [.terminal 25 26,
              .node ⟨.structSpecifier, none, 27, 49, true, false⟩
                [.terminal 27 33, .node ⟨.typeIdentifier, some .name, 34, 35, true, false⟩ [],
                  .node ⟨.baseClassClause, none, 36, 46, true, false⟩
                    [.node ⟨.colon, none, 36, 37, false, false⟩ [],
                      .node ⟨.accessSpecifier, none, 38, 44, true, false⟩ [.terminal 38 44],
                      .node ⟨.typeIdentifier, none, 45, 46, true, false⟩ []],
                  .node ⟨.other, some .body, 47, 49, true, false⟩
                    [.terminal 47 48, .terminal 48 49]],
              .terminal 49 50, .terminal 51 52]]]

/-- The step that makes the class in the namespace implement the one outside. -/
def sameNameStep (tree : Tree) : Step :=
  ⟨tree, false, "n::I", "I", {}⟩

/-- The step made twice. -/
def sameNameSession : List Step :=
  [sameNameStep sameNameTree, sameNameStep ownBaseTree]

theorem turnsToInterface_turningStep :
    (turningStep baseAndDerivedTree).TurnsToInterface baseAndDerived.text := by
  have hrun : ((turningStep baseAndDerivedTree).newBase? baseAndDerived.text).map
      (fun classes => ((turningStep baseAndDerivedTree).denoted? baseAndDerived.text classes.1
        classes.2, classes.2.id, (ofTree baseAndDerived baseAndDerivedTree false).isDerivedFrom
          classes.2 classes.1)) = some (some 1, 1, true) := by decide +kernel
  obtain ⟨⟨derived, interface⟩, hnew, hrun⟩ := Option.map_eq_some_iff.1 hrun
  obtain ⟨hdenoted, hrun⟩ := Prod.mk.inj hrun
  obtain ⟨hid, hback⟩ := Prod.mk.inj hrun
  obtain ⟨-, hinterface, -⟩ := Step.exists_edit_of_newBase? hnew
  exact ⟨derived, interface,
    ⟨hnew, hdenoted.trans (congrArg some hid.symm), List.mem_of_getElem? hinterface⟩, hback⟩

/-- The name of the class outside stands for the class in the namespace. -/
theorem turnsToAnother_sameNameStep :
    (sameNameStep sameNameTree).TurnsToAnother sameName.text := by
  have hrun : ((sameNameStep sameNameTree).newBase? sameName.text).map
      (fun classes => ((sameNameStep sameNameTree).denoted? sameName.text classes.1 classes.2,
        classes.1.id, classes.2.id)) = some (some 1, 1, 0) := by decide +kernel
  obtain ⟨⟨derived, interface⟩, hnew, hrun⟩ := Option.map_eq_some_iff.1 hrun
  obtain ⟨hdenoted, hrun⟩ := Prod.mk.inj hrun
  obtain ⟨hderived, hinterface⟩ := Prod.mk.inj hrun
  obtain ⟨other, hadds⟩ := Step.exists_adds hnew hdenoted
  have hother : other.id = 1 := Option.some.inj (hadds.denotes.symm.trans hdenoted)
  refine ⟨derived, interface, other, hadds, ?_, .inl (hother.trans hderived.symm)⟩
  rw [hother, hinterface]
  decide

/-- The class gets the base, and the second step finds that both derive from each other. In the
other session no class derives from another one, and the second step finds that the class is its own
base. -/
theorem isAcyclic_after_implement_baseAndDerived :
    let u := ofTree baseAndDerived baseAndDerivedTree false
    u.baseGraph.IsAcyclic ∧
    (∃ derived interface, u.records[0]? = some derived ∧ u.records[1]? = some interface ∧
      u.implement derived interface {} = .ok ⟨[], some ⟨8, " : public I"⟩, none, false⟩ ∧
      ¬ (u.baseGraph.withBase derived.id interface.id).IsAcyclic) ∧
    KeepsGraphs u.baseGraph baseAndDerived.text turningSession ∧
    (¬ ∀ state ∈ sessionStates baseAndDerived.text turningSession,
      (state.1.graphAfter state.2).IsAcyclic) ∧
    (sessionStates baseAndDerived.text turningSession).IsChain Step.Rereads ∧
    (¬ ∀ state ∈ sessionStates baseAndDerived.text turningSession,
      (state.1.unit state.2).baseGraph.IsAcyclic) ∧
    (sessionStates sameName.text sameNameSession).IsChain Step.Rereads ∧
    (∀ derived ∈ (ofTree sameName sameNameTree false).records,
      ∀ interface ∈ (ofTree sameName sameNameTree false).records,
        (ofTree sameName sameNameTree false).isDerivedFrom interface derived = false) ∧
    ¬ ∀ state ∈ sessionStates sameName.text sameNameSession,
      (state.1.unit state.2).baseGraph.IsAcyclic := by
  intro u
  have hacyclic : u.baseGraph.IsAcyclic :=
    (BaseGraph.isAcyclic_iff isClosed_baseGraph).2 (by decide +kernel)
  have hacyclicName : (ofTree sameName sameNameTree false).baseGraph.IsAcyclic :=
    (BaseGraph.isAcyclic_iff isClosed_baseGraph).2 (by decide +kernel)
  have hkeeps : KeepsGraphs u.baseGraph baseAndDerived.text turningSession :=
    ⟨rfl, by decide +kernel, trivial⟩
  have hrereads : (sessionStates baseAndDerived.text turningSession).IsChain Step.Rereads :=
    .cons_cons ⟨baseNames_eq (by decide +kernel) (by decide +kernel) rfl, by decide +kernel⟩
      (.singleton _)
  have hrereadsName : (sessionStates sameName.text sameNameSession).IsChain Step.Rereads :=
    .cons_cons ⟨baseNames_eq (by decide +kernel) (by decide +kernel) rfl, by decide +kernel⟩
      (.singleton _)
  have hrun : (u.records[0]?.bind fun derived => u.records[1]?.map fun interface =>
      (u.implement derived interface {}, u.isDerivedFrom interface derived)) =
      some (.ok ⟨[], some ⟨8, " : public I"⟩, none, false⟩, true) := by decide +kernel
  obtain ⟨derived, hderived, hrun⟩ := Option.bind_eq_some_iff.1 hrun
  obtain ⟨interface, hinterface, hrun⟩ := Option.map_eq_some_iff.1 hrun
  obtain ⟨hedit, hback⟩ := Prod.mk.inj hrun
  obtain ⟨hedge, hsession, htexts⟩ := isAcyclic_after_implement_iff baseAndDerived
    baseAndDerivedTree false u.baseGraph baseAndDerived.text turningSession
  obtain ⟨-, -, hnames⟩ := isAcyclic_after_implement_iff sameName sameNameTree false []
    sameName.text sameNameSession
  refine ⟨hacyclic, ⟨derived, interface, hderived, hinterface, hedit, ?_⟩, hkeeps, ?_,
    hrereads, ?_, hrereadsName, by decide +kernel, ?_⟩
  · rw [hedge hacyclic derived (List.mem_of_getElem? hderived) interface
      (List.mem_of_getElem? hinterface) {} _ hedit]
    simp [u, hback]
  · obtain ⟨derived, interface, hadds, hturn⟩ := turnsToInterface_turningStep
    rw [(hsession hacyclic hkeeps).2]
    exact fun h => h _ List.mem_cons_self ⟨derived, interface, hadds.newBase, hturn⟩
  · have hstep : (turningStep baseAndDerivedTree, baseAndDerived.text) ∈
        (sessionStates baseAndDerived.text turningSession).dropLast := List.mem_cons_self
    rw [htexts (fun state hstate => Option.some.inj hstate ▸ hacyclic) hrereads]
    exact fun h => h _ hstep (.inl turnsToInterface_turningStep)
  · have hstep : (sameNameStep sameNameTree, sameName.text) ∈
        (sessionStates sameName.text sameNameSession).dropLast := List.mem_cons_self
    rw [hnames (fun state hstate => Option.some.inj hstate ▸ hacyclicName) hrereadsName]
    exact fun h => h _ hstep (.inr turnsToAnother_sameNameStep)

end TranslationUnit

end ClassEdit
