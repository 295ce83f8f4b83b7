import ClassEdit.Unit.Lookup
import Mathlib.Logic.Relation
import Mathlib.Tactic.Tauto

/-!
# Visits of the bases of a class

A visit hears every class that can be reached over base edges exactly once, whatever the graph
looks like. The order does not depend on the visitor: a visitor that stops the visit has heard a
first part of what every other visitor hears.

## Main definitions

* `BaseGraph.HasBase`, `BaseGraph.IsClosed`: the edges of the graph, and that they stay inside.
* `BaseGraph.visitOrder`: the classes in the order of a visit that is never stopped.
* `consult`: a visitor passed along a row of classes.

## Main statements

* `BaseGraph.visitFrom_eq_consult`: a visit passes its visitor along the visit order.
* `BaseGraph.mem_visitOrder_iff`: the visit order has the classes that can be reached.
* `visit_resolvedBases`: what a visit from a class of a unit does.
-/

namespace ClassEdit

open Relation (ReflTransGen TransGen)

namespace BaseGraph

/-- The class `base` is a direct base of the class `id`. -/
def HasBase (g : BaseGraph) (id base : RecordId) : Prop :=
  base ∈ g.basesOf id

/-- All bases are classes of the graph. -/
def IsClosed (g : BaseGraph) : Prop :=
  ∀ bases ∈ g, ∀ base ∈ bases, base < g.length

instance (g : BaseGraph) : Decidable g.IsClosed :=
  inferInstanceAs (Decidable (∀ bases ∈ g, ∀ base ∈ bases, base < g.length))

theorem IsClosed.lt_length {g : BaseGraph} (hg : g.IsClosed) (id : RecordId) :
    ∀ base ∈ g.basesOf id, base < g.length := by
  intro base hbase
  rw [basesOf, List.getD_eq_getElem?_getD] at hbase
  cases h : g[id]? with
  | none => simp [h] at hbase
  | some bases => exact hg bases (List.mem_of_getElem? h) base (by simpa [h] using hbase)

theorem IsClosed.lt_of_transGen {g : BaseGraph} (hg : g.IsClosed) {start id : RecordId}
    (h : TransGen g.HasBase start id) : id < g.length := by
  obtain ⟨last, -, hbase⟩ := TransGen.tail'_iff.1 h
  exact hg.lt_length last id hbase

/-! ## The order of a visit -/

/-- The classes that a visit hears, in order, if it is never stopped: those of `queue` that have
not been seen, and then the bases of the classes heard, the last one first. -/
def visitOrder (g : BaseGraph) (queue stack seen : List RecordId) : List RecordId :=
  match queue, stack with
  | [], [] => []
  | [], id :: stack => visitOrder g (g.basesOf id) stack seen
  | id :: queue, stack =>
    if _fresh : id < g.length ∧ seen.contains id = false then
      id :: visitOrder g queue (id :: stack) (id :: seen)
    else visitOrder g queue stack seen
termination_by g.unexplored seen + g.weight stack + queue.length
decreasing_by
  · simp [weight]
    omega
  · have := unexplored_cons_lt g _fresh.1 _fresh.2
    simp [weight]
    omega
  · simp

variable {g : BaseGraph} {queue stack seen : List RecordId}

theorem notMem_seen_of_mem_visitOrder {id : RecordId} (h : id ∈ g.visitOrder queue stack seen) :
    id ∉ seen := by
  fun_induction visitOrder g queue stack seen with
  | case1 => simp at h
  | case2 seen next stack ih => exact ih h
  | case3 seen next queue stack fresh ih =>
    obtain rfl | h := List.mem_cons.1 h
    · simpa using fresh.2
    · exact fun hid => ih h (List.mem_cons_of_mem _ hid)
  | case4 seen next queue stack _ ih => exact ih h

theorem nodup_visitOrder : (g.visitOrder queue stack seen).Nodup := by
  fun_induction visitOrder g queue stack seen with
  | case1 => exact List.nodup_nil
  | case2 seen next stack ih => exact ih
  | case3 seen next queue stack fresh ih =>
    refine List.nodup_cons.2 ⟨fun h => ?_, ih⟩
    exact notMem_seen_of_mem_visitOrder h List.mem_cons_self
  | case4 seen next queue stack _ ih => exact ih

/-- What is heard can be reached from the queue, or over an edge or more from the stack. -/
theorem reached_of_mem_visitOrder {id : RecordId} (h : id ∈ g.visitOrder queue stack seen) :
    (∃ first ∈ queue, ReflTransGen g.HasBase first id) ∨
      ∃ first ∈ stack, TransGen g.HasBase first id := by
  fun_induction visitOrder g queue stack seen with
  | case1 => simp at h
  | case2 seen next stack ih =>
    right
    obtain ⟨first, hfirst, hpath⟩ | ⟨first, hfirst, hpath⟩ := ih h
    · exact ⟨next, List.mem_cons_self, TransGen.head' hfirst hpath⟩
    · exact ⟨first, List.mem_cons_of_mem _ hfirst, hpath⟩
  | case3 seen next queue stack fresh ih =>
    obtain rfl | h := List.mem_cons.1 h
    · exact .inl ⟨id, List.mem_cons_self, .refl⟩
    obtain ⟨first, hfirst, hpath⟩ | ⟨first, hfirst, hpath⟩ := ih h
    · exact .inl ⟨first, List.mem_cons_of_mem _ hfirst, hpath⟩
    obtain rfl | hfirst := List.mem_cons.1 hfirst
    · exact .inl ⟨first, List.mem_cons_self, hpath.to_reflTransGen⟩
    · exact .inr ⟨first, hfirst, hpath⟩
  | case4 seen next queue stack _ ih =>
    obtain ⟨first, hfirst, hpath⟩ | hstack := ih h
    · exact .inl ⟨first, List.mem_cons_of_mem _ hfirst, hpath⟩
    · exact .inr hstack

/-- The invariant behind completeness: what is queued, and every base of what is heard or on the
stack, has been seen before or is heard. -/
theorem covered_by_visitOrder (hg : g.IsClosed) (hqueue : ∀ id ∈ queue, id < g.length) :
    (∀ id ∈ queue, id ∈ seen ∨ id ∈ g.visitOrder queue stack seen) ∧
      ∀ id, id ∈ g.visitOrder queue stack seen ∨ id ∈ stack →
        ∀ base ∈ g.basesOf id, base ∈ seen ∨ base ∈ g.visitOrder queue stack seen := by
  fun_induction visitOrder g queue stack seen with
  | case1 => simp
  | case2 seen next stack ih =>
    obtain ⟨hbases, hrest⟩ := ih (hg.lt_length next)
    refine ⟨by simp, fun id hid => ?_⟩
    obtain hid | hid := hid
    · exact hrest id (.inl hid)
    obtain rfl | hid := List.mem_cons.1 hid
    · exact hbases
    · exact hrest id (.inr hid)
  | case3 seen next queue stack fresh ih =>
    obtain ⟨hqueued, hrest⟩ := ih fun id hid => hqueue id (List.mem_cons_of_mem _ hid)
    -- Having been seen by now, `next` itself counts as heard.
    have hmove : ∀ id, id ∈ next :: seen ∨ id ∈ g.visitOrder queue (next :: stack) (next :: seen) →
        id ∈ seen ∨ id ∈ next :: g.visitOrder queue (next :: stack) (next :: seen) := by
      intro id hid
      simp only [List.mem_cons] at hid ⊢
      tauto
    refine ⟨fun id hid => ?_, fun id hid base hbase => hmove base (hrest id ?_ base hbase)⟩
    · obtain rfl | hid := List.mem_cons.1 hid
      · exact .inr List.mem_cons_self
      · exact hmove id (hqueued id hid)
    · simp only [List.mem_cons] at hid ⊢
      tauto
  | case4 seen next queue stack hseen ih =>
    obtain ⟨hqueued, hrest⟩ := ih fun id hid => hqueue id (List.mem_cons_of_mem _ hid)
    refine ⟨fun id hid => ?_, hrest⟩
    obtain rfl | hid := List.mem_cons.1 hid
    · left
      have hlt := hqueue id List.mem_cons_self
      simpa [hlt] using hseen
    · exact hqueued id hid

/-- From the bases of a class, the visit order has the classes that can be reached over an edge or
more. -/
theorem mem_visitOrder_iff (hg : g.IsClosed) (start : RecordId) {id : RecordId} :
    id ∈ g.visitOrder (g.basesOf start) [] [] ↔ TransGen g.HasBase start id := by
  constructor
  · intro h
    obtain ⟨first, hfirst, hpath⟩ | ⟨first, hfirst, _⟩ := reached_of_mem_visitOrder h
    · exact TransGen.head' hfirst hpath
    · simp at hfirst
  · obtain ⟨hdirect, hclosed⟩ :=
      @covered_by_visitOrder g (g.basesOf start) [] [] hg (hg.lt_length start)
    intro h
    induction h with
    | single hbase => simpa using hdirect _ hbase
    | tail _ hbase ih => simpa using hclosed _ (.inl ih) _ hbase

end BaseGraph

/-! ## Visitors -/

variable {σ : Type}

/-- Passes a visitor along a row of classes, up to the first one that it rejects. -/
def consult (visitor : σ → RecordId → σ × Bool) : List RecordId → σ → σ × Bool
  | [], state => (state, true)
  | id :: ids, state =>
    match visitor state id with
    | (state, true) => consult visitor ids state
    | (state, false) => (state, false)

/-- The state after a class that the visitor accepts. -/
def accept? (visitor : σ → RecordId → σ × Bool) (state : σ) (id : RecordId) : Option σ :=
  match visitor state id with
  | (state, true) => some state
  | (_, false) => none

/-- The visitor that also notes the classes it hears. -/
def logging (visitor : σ → RecordId → σ × Bool) (log : List RecordId × σ) (id : RecordId) :
    (List RecordId × σ) × Bool :=
  ((log.1 ++ [id], (visitor log.2 id).1), (visitor log.2 id).2)

variable (visitor : σ → RecordId → σ × Bool)

/-- Either all classes are accepted one after the other, or the first ones are and the next one is
rejected. -/
theorem consult_logging (ids log : List RecordId) (state : σ) :
    (∃ last, ids.foldlM (accept? visitor) state = some last ∧
      consult visitor ids state = (last, true) ∧
      consult (logging visitor) ids (log, state) = ((log ++ ids, last), true)) ∨
    ∃ accepted id rest before last, ids = accepted ++ id :: rest ∧
      accepted.foldlM (accept? visitor) state = some before ∧
      visitor before id = (last, false) ∧
      consult visitor ids state = (last, false) ∧
      consult (logging visitor) ids (log, state) = ((log ++ accepted ++ [id], last), false) := by
  induction ids generalizing log state with
  | nil => exact .inl ⟨state, rfl, rfl, by simp [consult]⟩
  | cons id ids ih =>
    rcases hvisit : visitor state id with ⟨next, answer⟩
    cases answer with
    | false =>
      exact .inr ⟨[], id, ids, state, next, rfl, rfl, hvisit, by simp [consult, hvisit],
        by simp [consult, logging, hvisit]⟩
    | true =>
      have haccept : accept? visitor state id = some next := by simp [accept?, hvisit]
      obtain ⟨last, hall, hstate, hlog⟩ | ⟨accepted, bad, rest, before, last, rfl, hall, hbad,
        hstate, hlog⟩ := ih (log ++ [id]) next
      · refine .inl ⟨last, by simp [haccept, hall], by simpa [consult, hvisit], ?_⟩
        simpa [consult, logging, hvisit] using hlog
      · refine .inr ⟨id :: accepted, bad, rest, before, last, rfl, by simp [haccept, hall], hbad,
          by simpa [consult, hvisit], ?_⟩
        simpa [consult, logging, hvisit] using hlog

/-- Nothing is accepted past a class that the visitor rejects. -/
theorem foldlM_accept?_eq_none {accepted rest : List RecordId} {id : RecordId}
    {state before last : σ} (hall : accepted.foldlM (accept? visitor) state = some before)
    (hbad : visitor before id = (last, false)) :
    (accepted ++ id :: rest).foldlM (accept? visitor) state = none := by
  have hnone : accept? visitor before id = none := by simp [accept?, hbad]
  simp [List.foldlM_append, hall, hnone]

/-- The visitor is stopped if and only if it rejects a class after it has accepted all before. -/
theorem consult_eq_false_iff (ids : List RecordId) (state : σ) :
    (consult visitor ids state).2 = false ↔
      ∃ accepted id rest before last, ids = accepted ++ id :: rest ∧
        accepted.foldlM (accept? visitor) state = some before ∧
        visitor before id = (last, false) := by
  constructor
  · intro hfalse
    obtain ⟨_, _, hstate, _⟩ | ⟨accepted, id, rest, before, last, hsplit, hall, hbad, _⟩ :=
      consult_logging visitor ids [] state
    · simp [hstate] at hfalse
    · exact ⟨accepted, id, rest, before, last, hsplit, hall, hbad⟩
  · rintro ⟨accepted, id, rest, before, last, hsplit, hall, hbad⟩
    obtain ⟨_, hlast, _⟩ | ⟨_, _, _, _, _, _, _, _, hstate, _⟩ :=
      consult_logging visitor ids [] state
    · simp [hsplit, foldlM_accept?_eq_none visitor hall hbad] at hlast
    · simp [hstate]

/-- A visitor that always accepts hears all classes. -/
theorem consult_of_accepts (hyes : ∀ state id, (visitor state id).2 = true)
    (ids : List RecordId) (state : σ) :
    ∃ last, consult visitor ids state = (last, true) ∧
      consult (logging visitor) ids ([], state) = ((ids, last), true) := by
  obtain ⟨last, -, hstate, hlog⟩ | ⟨accepted, id, rest, before, last, -, -, hbad, -⟩ :=
    consult_logging visitor ids [] state
  · exact ⟨last, hstate, hlog⟩
  · have := hyes before id
    simp [hbad] at this

namespace BaseGraph

/-- A visit passes its visitor along the visit order. -/
theorem visitFrom_eq_consult (g : BaseGraph) (queue stack seen : List RecordId) (state : σ) :
    g.visitFrom visitor queue stack seen state =
      consult visitor (g.visitOrder queue stack seen) state := by
  fun_induction visitOrder g queue stack seen generalizing state with
  | case1 => simp [visitFrom, consult]
  | case2 seen next stack ih => rw [visitFrom, ih]
  | case3 seen next queue stack fresh ih =>
    rw [visitFrom, dif_pos fresh, consult]
    rcases visitor state next with ⟨after, answer⟩
    cases answer with
    | true => exact ih after
    | false => rfl
  | case4 seen next queue stack hseen ih => rw [visitFrom, dif_neg hseen, ih]

theorem visit_eq_consult (g : BaseGraph) (bases : List RecordId) (state : σ) :
    g.visit visitor bases state = consult visitor (g.visitOrder bases [] []) state :=
  visitFrom_eq_consult visitor g bases [] [] state

theorem consult_record (ids visited : List RecordId) :
    consult (fun visited id => (visited ++ [id], true)) ids visited = (visited ++ ids, true) := by
  induction ids generalizing visited with
  | nil => simp [consult]
  | cons id ids ih => simp [consult, ih]

theorem reachedFrom_eq_visitOrder (g : BaseGraph) (bases : List RecordId) :
    g.reachedFrom bases = g.visitOrder bases [] [] := by
  rw [reachedFrom, visit_eq_consult, consult_record, List.nil_append]

theorem nodup_reachedFrom (g : BaseGraph) (bases : List RecordId) : (g.reachedFrom bases).Nodup :=
  reachedFrom_eq_visitOrder g bases ▸ nodup_visitOrder

/-- A search for one class is stopped if and only if it is in the row. -/
theorem consult_search (ids : List RecordId) (target : RecordId) :
    (consult (fun (_ : Unit) id => ((), id != target)) ids ()).2 = false ↔ target ∈ ids := by
  induction ids with
  | nil => simp [consult]
  | cons id ids ih =>
    by_cases h : id = target
    · simp [consult, h]
    · have hne : (id != target) = true := bne_iff_ne.2 h
      simp only [consult, hne, ih, List.mem_cons, Ne.symm h, false_or]

end BaseGraph

namespace TranslationUnit

variable {u : TranslationUnit} {start : RecordId} {derived : Record}

theorem basesOf_baseGraph (h : u.records[start]? = some derived) :
    u.baseGraph.basesOf start = derived.resolvedBases := by
  simp [BaseGraph.basesOf, baseGraph, h]

theorem mem_reachedFrom_iff (hu : u.baseGraph.IsClosed)
    (hstart : u.records[start]? = some derived) {id : RecordId} :
    id ∈ u.baseGraph.reachedFrom derived.resolvedBases ↔
      TransGen u.baseGraph.HasBase start id := by
  rw [BaseGraph.reachedFrom_eq_visitOrder, ← basesOf_baseGraph hstart]
  exact BaseGraph.mem_visitOrder_iff hu start

theorem isDerivedFrom_iff (hu : u.baseGraph.IsClosed)
    (hstart : u.records[start]? = some derived) {base : Record} :
    u.isDerivedFrom derived base = true ↔ TransGen u.baseGraph.HasBase start base.id := by
  rw [isDerivedFrom, BaseGraph.visit_eq_consult, Bool.not_eq_true', BaseGraph.consult_search,
    ← BaseGraph.reachedFrom_eq_visitOrder]
  exact mem_reachedFrom_iff hu hstart

/-- In a unit whose bases are classes of the unit, the classes reached from a class are those over
one base edge or more, each once. Every visitor hears them in the same order up to the first one it
rejects, and the visit fails if and only if there is such a class. So a class derives from those
that are reached from it. -/
theorem visit_resolvedBases (hu : u.baseGraph.IsClosed)
    (hstart : u.records[start]? = some derived) :
    let reached := u.baseGraph.reachedFrom derived.resolvedBases
    reached.Nodup ∧
    (∀ id, id ∈ reached ↔ TransGen u.baseGraph.HasBase start id) ∧
    (∀ (σ : Type) (visitor : σ → RecordId → σ × Bool) (state : σ),
      (∀ state id, (visitor state id).2 = true) →
      ∃ last, u.baseGraph.visit visitor derived.resolvedBases state = (last, true) ∧
        u.baseGraph.visit (logging visitor) derived.resolvedBases ([], state) =
          ((reached, last), true)) ∧
    (∀ (σ : Type) (visitor : σ → RecordId → σ × Bool) (state : σ),
      (∃ last, reached.foldlM (accept? visitor) state = some last ∧
        u.baseGraph.visit visitor derived.resolvedBases state = (last, true) ∧
        u.baseGraph.visit (logging visitor) derived.resolvedBases ([], state) =
          ((reached, last), true)) ∨
      ∃ accepted id rest before last, reached = accepted ++ id :: rest ∧
        accepted.foldlM (accept? visitor) state = some before ∧
        visitor before id = (last, false) ∧
        u.baseGraph.visit visitor derived.resolvedBases state = (last, false) ∧
        u.baseGraph.visit (logging visitor) derived.resolvedBases ([], state) =
          ((accepted ++ [id], last), false)) ∧
    (∀ (σ : Type) (visitor : σ → RecordId → σ × Bool) (state : σ),
      (u.baseGraph.visit visitor derived.resolvedBases state).2 = false ↔
        ∃ accepted id rest before last, reached = accepted ++ id :: rest ∧
          accepted.foldlM (accept? visitor) state = some before ∧
          visitor before id = (last, false)) ∧
    ∀ base, u.isDerivedFrom derived base = true ↔
      TransGen u.baseGraph.HasBase start base.id := by
  intro reached
  have hreached : reached = u.baseGraph.visitOrder derived.resolvedBases [] [] :=
    BaseGraph.reachedFrom_eq_visitOrder u.baseGraph derived.resolvedBases
  simp only [BaseGraph.visit_eq_consult, ← hreached]
  refine ⟨BaseGraph.nodup_reachedFrom _ _, fun id => mem_reachedFrom_iff hu hstart, ?_, ?_, ?_,
    fun base => isDerivedFrom_iff hu hstart⟩
  · intro σ visitor state hyes
    exact consult_of_accepts visitor hyes reached state
  · intro σ visitor state
    exact consult_logging visitor reached [] state
  · intro σ visitor state
    exact consult_eq_false_iff visitor reached state

/-- A class without members. -/
def bareClass (id : RecordId) (bases : List RecordId) : Record where
  id := id
  name := ""
  qualifiedName := ""
  key := .cls
  start := 0
  close := 0
  bases := bases.map fun base => ⟨"", .pub, false, .nowhere, some base⟩
  methods := []
  isDynamic := false

/-- Two classes with a base in common, which derives from the class that derives from both. -/
def cyclicDiamond : TranslationUnit where
  source := ⟨{ text := [] }, #[]⟩
  records := [bareClass 0 [1, 2], bareClass 1 [3], bareClass 2 [3], bareClass 3 [0]]
  functions := []
  hasErrors := false

theorem visit_resolvedBases_cyclicDiamond :
    cyclicDiamond.baseGraph.IsClosed ∧
    cyclicDiamond.records[0]? = some (bareClass 0 [1, 2]) ∧
    (cyclicDiamond.baseGraph.reachedFrom (bareClass 0 [1, 2]).resolvedBases).Nodup ∧
    0 ∈ cyclicDiamond.baseGraph.reachedFrom (bareClass 0 [1, 2]).resolvedBases ∧
    cyclicDiamond.isDerivedFrom (bareClass 0 [1, 2]) (bareClass 0 [1, 2]) = true := by
  have hclosed : cyclicDiamond.baseGraph.IsClosed := by decide
  have hstart : cyclicDiamond.records[0]? = some (bareClass 0 [1, 2]) := rfl
  have hcycle : TransGen cyclicDiamond.baseGraph.HasBase 0 0 := by
    refine .tail (b := 3) (.tail (b := 1) (.single ?_) ?_) ?_ <;>
      simp [BaseGraph.HasBase, BaseGraph.basesOf, baseGraph, cyclicDiamond, bareClass,
        Record.resolvedBases]
  obtain ⟨hnodup, hreached, _, _, _, hderived⟩ := visit_resolvedBases hclosed hstart
  exact ⟨hclosed, hstart, hnodup, (hreached 0).2 hcycle, (hderived _).2 hcycle⟩

end TranslationUnit

end ClassEdit
