import ClassEdit.Proofs.UnitClasses
import Mathlib.Data.List.Count

/-!
# Which classes are dynamic

Whether a class is dynamic is found by a search that keeps its results. A class that is being looked
at counts as not dynamic until it is settled, and another class that asks for it in the meantime
keeps a result that may be wrong. This happens in cycles of bases only: a class that asks for one
being looked at is a base of it. So the results for all other classes are right, even if classes on
cycles are looked at first.

The search looks at a class only if nothing is known of it, and from then on something is. So it
cannot go deeper than there are classes, and it always comes to an answer.

## Main definitions

* `Answers`: a search gives an answer.
* `Fits`: how deep a search can go from a state.
* `ReachesVirtual`: a class or one of its bases has something virtual.
* `ReachesCycle`: a class or one of its bases is a base of itself.
* `IsRight`: what a result says is so, if no cycle can be reached.
* `Explored`: all results are right, except for classes that are being looked at.

## Main statements

* `isDynamicWithin_mono`, `isDynamicWithin_answers`: an answer does not depend on the depth, and a
  depth greater than the number of classes always gives one.
* `lookAt_isRight`, `isDynamicWithin_isRight`, `dynamicFlagsFrom_isRight`: the step, the search from
  one class, and the searches from all of them.
* `dynamicFlags_reach`: which classes are dynamic.
-/

namespace ClassEdit

open Relation (ReflTransGen TransGen)

/-! ## Searches that give an answer -/

/-- A search gives an answer of which `Tells` holds, and leaves a state of which `Inv` holds. -/
def Answers {σ : Type} (run : Option (Bool × σ)) (Inv : σ → Prop) (Tells : Bool → Prop) : Prop :=
  ∃ answer after, run = some (answer, after) ∧ Tells answer ∧ Inv after

section AnyWithState

variable {α σ : Type} {test test' : α → σ → Option (Bool × σ)} {as : List α} {state : σ}
  {result : Bool × σ} {Inv : σ → Prop} {Tells : α → Bool → Prop}

/-- If each test gives an answer, then so do all of them: a positive one is that of some test, and a
negative one that of every test. -/
theorem anyWithState_answers
    (htest : ∀ a ∈ as, ∀ state, Inv state → Answers (test a state) Inv (Tells a))
    (hstate : Inv state) :
    Answers (anyWithState test as state) Inv fun answer =>
      (answer = true → ∃ a ∈ as, Tells a true) ∧ (answer = false → ∀ a ∈ as, Tells a false) := by
  induction as generalizing state with
  | nil => exact ⟨false, state, rfl, by simp, hstate⟩
  | cons a as ih =>
    obtain ⟨hfirst, hrest⟩ := List.forall_mem_cons.1 htest
    obtain ⟨answer, next, hrun, htells, hnext⟩ := hfirst state hstate
    cases answer with
    | true => exact ⟨true, next, by rw [anyWithState, hrun], by simp [htells], hnext⟩
    | false =>
      obtain ⟨others, after, hothers, ⟨hyes, hno⟩, hafter⟩ := ih hrest hnext
      refine ⟨others, after, ?_, ⟨fun h => ?_, fun h => ?_⟩, hafter⟩
      · rw [anyWithState, hrun]
        exact hothers
      · obtain ⟨other, hother, htells⟩ := hyes h
        exact ⟨other, List.mem_cons_of_mem _ hother, htells⟩
      · exact List.forall_mem_cons.2 ⟨htells, hno h⟩

/-- Tests that give the answers of others give the same together. -/
theorem anyWithState_mono
    (hsame : ∀ a ∈ as, ∀ state result, test a state = some result → test' a state = some result)
    (h : anyWithState test as state = some result) : anyWithState test' as state = some result := by
  induction as generalizing state with
  | nil => exact h
  | cons a as ih =>
    obtain ⟨hfirst, hrest⟩ := List.forall_mem_cons.1 hsame
    rw [anyWithState] at h ⊢
    cases hrun : test a state with
    | none => simp [hrun] at h
    | some next =>
      obtain ⟨answer, next⟩ := next
      rw [hfirst state _ hrun]
      rw [hrun] at h
      cases answer with
      | true => exact h
      | false => exact ih hrest h

end AnyWithState

/-! ## One step of the search -/

variable {records : List Record} {search search' : DynamicSearch} {depth : Nat} {id : RecordId}
  {state : DynamicState} {record : Record} {isDynamic : Bool} {result : Bool × DynamicState}

/-- What the answer for a base is about: the base is virtual, or its class has an answer. -/
def BaseTells (Tells : RecordId → Bool → Prop) (base : BaseSpecifier) (answer : Bool) : Prop :=
  (base.isVirtual = true → answer = true) ∧
    (base.isVirtual = false → base.record = none → answer = false) ∧
    (base.isVirtual = false → ∀ id, base.record = some id → Tells id answer)

section LookInto

variable {Inv : DynamicState → Prop} {Tells : RecordId → Bool → Prop}

theorem testBase_answers {base : BaseSpecifier} (hbase : base ∈ record.bases)
    (hsearch : ∀ id ∈ record.resolvedBases, ∀ state, Inv state →
      Answers (search id state) Inv (Tells id)) (hstate : Inv state) :
    Answers (testBase search base state) Inv (BaseTells Tells base) := by
  unfold testBase
  split
  next hvirtual => exact ⟨true, state, rfl, by simp [BaseTells, hvirtual], hstate⟩
  next hvirtual =>
    split
    next id hid =>
      obtain ⟨answer, after, hrun, htells, hafter⟩ :=
        hsearch id (List.mem_filterMap.2 ⟨base, hbase, hid⟩) state hstate
      exact ⟨answer, after, hrun, by simp_all [BaseTells], hafter⟩
    next hid => exact ⟨false, state, rfl, by simp_all [BaseTells], hstate⟩

/-- Looking into a class gives an answer if looking at its bases does. -/
theorem lookInto_answers
    (hsearch : ∀ id ∈ record.resolvedBases, ∀ state, Inv state →
      Answers (search id state) Inv (Tells id)) (hstate : Inv state) :
    Answers (lookInto search record state) Inv fun answer =>
      (answer = true → record.hasVirtualMethod = true ∨
        ∃ base ∈ record.bases, BaseTells Tells base true) ∧
      (answer = false → record.hasVirtualMethod = false ∧
        ∀ base ∈ record.bases, BaseTells Tells base false) := by
  unfold lookInto
  split
  next hmethod => exact ⟨true, state, rfl, by simp [hmethod], hstate⟩
  next hmethod =>
    have htest : ∀ base ∈ record.bases, ∀ state, Inv state →
        Answers (testBase search base state) Inv (BaseTells Tells base) :=
      fun base hbase state => testBase_answers hbase hsearch
    obtain ⟨answer, after, hrun, ⟨hyes, hno⟩, hafter⟩ := anyWithState_answers htest hstate
    exact ⟨answer, after, hrun, ⟨fun h => .inr (hyes h),
      fun h => ⟨Bool.eq_false_iff.2 hmethod, hno h⟩⟩, hafter⟩

end LookInto

/-- A class is known, or is none of the classes, or is looked into. -/
theorem lookAt_cases (records : List Record) (search : DynamicSearch) (id : RecordId)
    (state : DynamicState) :
    (∃ known, state[id]? = some (some known) ∧
      lookAt records search id state = some (known, state)) ∨
    (records[id]? = none ∧ lookAt records search id state = some (false, state)) ∨
    ∃ record, state.getD id none = none ∧ records[id]? = some record ∧
      lookAt records search id state =
        (lookInto search record (state.set id (some false))).map
          fun found => (found.1, found.2.set id (some found.1)) := by
  unfold lookAt
  cases hstate : state.getD id none with
  | some known =>
    refine .inl ⟨known, ?_, rfl⟩
    simpa [List.getD_eq_getElem?_getD, Option.getD_eq_iff] using hstate
  | none =>
    cases hrecord : records[id]? with
    | none => exact .inr (.inl ⟨rfl, rfl⟩)
    | some record => exact .inr (.inr ⟨record, rfl, rfl, rfl⟩)

/-! ## The depth of the search -/

section Depth

variable (hsame : ∀ id state result, search id state = some result → search' id state = some result)

include hsame

theorem lookInto_mono (h : lookInto search record state = some result) :
    lookInto search' record state = some result := by
  unfold lookInto at h ⊢
  split
  next hmethod => rwa [if_pos hmethod] at h
  next hmethod =>
    rw [if_neg hmethod] at h
    refine anyWithState_mono (fun base _ state result htest => ?_) h
    unfold testBase at htest ⊢
    split
    next hvirtual => rwa [if_pos hvirtual] at htest
    next hvirtual =>
      rw [if_neg hvirtual] at htest
      cases hid : base.record with
      | none => rwa [hid] at htest
      | some id =>
        rw [hid] at htest
        exact hsame id state result htest

theorem lookAt_mono (h : lookAt records search id state = some result) :
    lookAt records search' id state = some result := by
  unfold lookAt at h ⊢
  cases hstate : state.getD id none with
  | some known => rwa [hstate] at h
  | none =>
    cases hrecord : records[id]? with
    | none => rwa [hstate, hrecord] at h
    | some record =>
      rw [hstate, hrecord] at h
      obtain ⟨found, hfound, rfl⟩ := Option.map_eq_some_iff.1 h
      exact Option.map_eq_some_iff.2 ⟨found, lookInto_mono hsame hfound, rfl⟩

end Depth

/-- An answer stays the same if the search may go deeper. -/
theorem isDynamicWithin_mono {bound : Nat} (hle : depth ≤ bound)
    (h : isDynamicWithin records depth id state = some result) :
    isDynamicWithin records bound id state = some result := by
  induction depth generalizing bound id state result with
  | zero => cases h
  | succ depth ih =>
    cases bound with
    | zero => cases hle
    | succ bound => exact lookAt_mono (fun _ _ _ => ih (Nat.le_of_succ_le_succ hle)) h

/-- There is an entry for each class, and of fewer than `depth` classes nothing is known. -/
def Fits (records : List Record) (depth : Nat) (state : DynamicState) : Prop :=
  state.length = records.length ∧ state.count none < depth

theorem Fits.start (h : Fits records (depth + 1) state) (hstate : state.getD id none = none)
    (hrecord : records[id]? = some record) : Fits records depth (state.set id (some false)) := by
  obtain ⟨hlength, hcount⟩ := h
  obtain ⟨hid, -⟩ := List.getElem?_eq_some_iff.1 hrecord
  rw [← hlength] at hid
  have hnone : state[id] = none := by simpa [hid] using hstate
  have hpos : 0 < state.count none := List.count_pos_iff.2 (hnone ▸ List.getElem_mem hid)
  refine ⟨by rw [List.length_set, hlength], ?_⟩
  have hcounts : (state.set id (some false)).count none = state.count none - 1 := by
    simp [List.count_set hid, hnone]
  omega

theorem Fits.settle (h : Fits records depth state) (id : RecordId) (isDynamic : Bool) :
    Fits records (depth + 1) (state.set id (some isDynamic)) := by
  obtain ⟨hlength, hcount⟩ := h
  refine ⟨by rw [List.length_set, hlength], ?_⟩
  have hcounts : (state.set id (some isDynamic)).count none ≤ state.count none := by
    by_cases hid : id < state.length
    · simp [List.count_set hid]
    · exact (List.set_eq_of_length_le (Nat.le_of_not_lt hid)).symm ▸ Nat.le_refl _
  omega

/-- The search gives an answer whenever it may look at all classes of which nothing is known. -/
theorem isDynamicWithin_answers (h : Fits records depth state) (id : RecordId) :
    Answers (isDynamicWithin records depth id state) (Fits records depth) fun _ => True := by
  induction depth generalizing id state with
  | zero => exact absurd h.2 (Nat.not_lt_zero _)
  | succ depth ih =>
    rw [isDynamicWithin]
    rcases lookAt_cases records (isDynamicWithin records depth) id state with
      ⟨known, -, hlook⟩ | ⟨-, hlook⟩ | ⟨record, hstate, hrecord, hlook⟩
    · exact ⟨known, state, hlook, trivial, h⟩
    · exact ⟨false, state, hlook, trivial, h⟩
    · obtain ⟨answer, after, hinto, -, hafter⟩ :=
        lookInto_answers (fun id _ state hfits => ih hfits id) (h.start hstate hrecord)
      exact ⟨answer, after.set id (some answer), by rw [hlook, hinto]; rfl, trivial,
        hafter.settle id answer⟩

/-! ## What makes a class dynamic -/

/-- The graph of the bases of some classes. -/
def basesGraph (records : List Record) : BaseGraph :=
  records.map (·.resolvedBases)

/-- The class declares a virtual or pure function, or has a virtual base. -/
def Record.HasVirtual (r : Record) : Prop :=
  (∃ method ∈ r.methods, method.isVirtual = true ∨ method.isPure = true) ∨
    ∃ base ∈ r.bases, base.isVirtual = true

/-- The class, or one of its direct or indirect bases, has something virtual. -/
def ReachesVirtual (records : List Record) (id : RecordId) : Prop :=
  ∃ reached record, ReflTransGen (basesGraph records).HasBase id reached ∧
    records[reached]? = some record ∧ record.HasVirtual

/-- The class, or one of its direct or indirect bases, is a base of itself. -/
def ReachesCycle (records : List Record) (id : RecordId) : Prop :=
  ∃ reached, ReflTransGen (basesGraph records).HasBase id reached ∧
    TransGen (basesGraph records).HasBase reached reached

/-- A class that is said to be dynamic reaches something virtual. The other way round this holds if
the class reaches no cycle. -/
def IsRight (records : List Record) (id : RecordId) (isDynamic : Bool) : Prop :=
  (isDynamic = true → ReachesVirtual records id) ∧
    (¬ ReachesCycle records id → ReachesVirtual records id → isDynamic = true)

theorem hasBase_basesGraph_iff {base : RecordId} :
    (basesGraph records).HasBase id base ↔
      ∃ record, records[id]? = some record ∧ base ∈ record.resolvedBases := by
  cases h : records[id]? <;> simp [BaseGraph.HasBase, BaseGraph.basesOf, basesGraph, h]

theorem Record.hasVirtualMethod_iff :
    record.hasVirtualMethod = true ↔
      ∃ method ∈ record.methods, method.isVirtual = true ∨ method.isPure = true := by
  simp [Record.hasVirtualMethod]

/-- What a class reaches it has itself, or one of its direct bases reaches it. -/
theorem reachesVirtual_iff (hrecord : records[id]? = some record) :
    ReachesVirtual records id ↔
      record.HasVirtual ∨ ∃ base ∈ record.resolvedBases, ReachesVirtual records base := by
  constructor
  · rintro ⟨reached, found, hpath, hfound, hvirtual⟩
    rcases hpath.cases_head with rfl | ⟨base, hbase, hrest⟩
    · obtain rfl := Option.some.inj (hrecord.symm.trans hfound)
      exact .inl hvirtual
    · obtain ⟨derived, hderived, hmem⟩ := hasBase_basesGraph_iff.1 hbase
      obtain rfl := Option.some.inj (hrecord.symm.trans hderived)
      exact .inr ⟨base, hmem, reached, found, hrest, hfound, hvirtual⟩
  · rintro (hvirtual | ⟨base, hbase, reached, found, hpath, hfound, hvirtual⟩)
    · exact ⟨id, record, .refl, hrecord, hvirtual⟩
    · have hedge := hasBase_basesGraph_iff.2 ⟨record, hrecord, hbase⟩
      exact ⟨reached, found, .head hedge hpath, hfound, hvirtual⟩

theorem not_reachesVirtual_of_none (hrecord : records[id]? = none) :
    ¬ ReachesVirtual records id := by
  rintro ⟨reached, found, hpath, hfound, -⟩
  rcases hpath.cases_head with rfl | ⟨base, hbase, -⟩
  · cases hrecord.symm.trans hfound
  · obtain ⟨derived, hderived, -⟩ := hasBase_basesGraph_iff.1 hbase
    cases hrecord.symm.trans hderived

theorem ReachesCycle.of_base {base : RecordId} (hbase : (basesGraph records).HasBase id base)
    (h : ReachesCycle records base) : ReachesCycle records id := by
  obtain ⟨reached, hpath, hcycle⟩ := h
  exact ⟨reached, .head hbase hpath, hcycle⟩

/-! ## Right results -/

/-- All that is known is right, except that the classes being looked at count as not dynamic. -/
def Explored (records : List Record) (opened : List RecordId) (state : DynamicState) : Prop :=
  ∀ id known, state[id]? = some (some known) →
    IsRight records id known ∨ id ∈ opened ∧ known = false

section Explored

variable {opened : List RecordId}

theorem Explored.start (h : Explored records opened state) :
    Explored records (id :: opened) (state.set id (some false)) := by
  intro other known hknown
  rw [List.getElem?_set] at hknown
  split at hknown
  next heq =>
    right
    grind
  next =>
    rcases h other known hknown with hright | ⟨hmem, hfalse⟩
    · exact .inl hright
    · exact .inr ⟨List.mem_cons_of_mem _ hmem, hfalse⟩

theorem Explored.settle (h : Explored records (id :: opened) state)
    (hright : IsRight records id isDynamic) :
    Explored records opened (state.set id (some isDynamic)) := by
  intro other known hknown
  rw [List.getElem?_set] at hknown
  split at hknown
  next heq =>
    left
    grind
  next hne =>
    rcases h other known hknown with hother | ⟨hmem, hfalse⟩
    · exact .inl hother
    · exact .inr ⟨(List.mem_cons.1 hmem).resolve_left (Ne.symm hne), hfalse⟩

/-- Looking into a class gives the right result if looking at its bases does. -/
theorem isRight_of_bases (hrecord : records[id]? = some record)
    (hyes : isDynamic = true → record.hasVirtualMethod = true ∨
      ∃ base ∈ record.bases, BaseTells (IsRight records) base true)
    (hno : isDynamic = false → record.hasVirtualMethod = false ∧
      ∀ base ∈ record.bases, BaseTells (IsRight records) base false) :
    IsRight records id isDynamic := by
  cases isDynamic with
  | true =>
    refine ⟨fun _ => (reachesVirtual_iff hrecord).2 ?_, fun _ _ => rfl⟩
    rcases hyes rfl with hmethod | ⟨base, hbase, -, hnone, hresolved⟩
    · exact .inl (.inl (Record.hasVirtualMethod_iff.1 hmethod))
    · cases hvirtual : base.isVirtual with
      | true => exact .inl (.inr ⟨base, hbase, hvirtual⟩)
      | false =>
        cases hid : base.record with
        | none => cases hnone hvirtual hid
        | some baseId =>
          exact .inr ⟨baseId, List.mem_filterMap.2 ⟨base, hbase, hid⟩,
            (hresolved hvirtual baseId hid).1 rfl⟩
  | false =>
    obtain ⟨hmethod, hbases⟩ := hno rfl
    refine ⟨nofun, fun hcycle hreached => ?_⟩
    rcases (reachesVirtual_iff hrecord).1 hreached with
      (hmethods | ⟨base, hbase, hvirtual⟩) | ⟨baseId, hmem, hreached⟩
    · exact hmethod.symm.trans (Record.hasVirtualMethod_iff.2 hmethods)
    · exact (hbases base hbase).1 hvirtual
    · obtain ⟨base, hbase, hid⟩ := List.mem_filterMap.1 hmem
      obtain ⟨hvirtual, -, hresolved⟩ := hbases base hbase
      have hfree : ¬ ReachesCycle records baseId := fun h =>
        hcycle (h.of_base (hasBase_basesGraph_iff.2 ⟨record, hrecord, hmem⟩))
      have hplain : base.isVirtual = false := Bool.eq_false_iff.2 fun h => nomatch hvirtual h
      exact (hresolved hplain baseId hid).2 hfree hreached

/-- The step: looking at a class gives the right result if looking at its bases does. All classes
being looked at have the class for a base, so if it is one of them it is on a cycle. -/
theorem lookAt_isRight
    (hsearch : ∀ base, (basesGraph records).HasBase id base → ∀ state,
      Fits records depth state ∧ Explored records (id :: opened) state →
      Answers (search base state)
        (fun after => Fits records depth after ∧ Explored records (id :: opened) after)
        (IsRight records base))
    (hopened : ∀ first ∈ opened, TransGen (basesGraph records).HasBase first id)
    (hfits : Fits records (depth + 1) state) (hstate : Explored records opened state) :
    Answers (lookAt records search id state)
      (fun after => Fits records (depth + 1) after ∧ Explored records opened after)
      (IsRight records id) := by
  rcases lookAt_cases records search id state with
    ⟨known, hknown, hlook⟩ | ⟨hrecord, hlook⟩ | ⟨record, hnone, hrecord, hlook⟩
  · refine ⟨known, state, hlook, ?_, hfits, hstate⟩
    rcases hstate id known hknown with hright | ⟨hmem, rfl⟩
    · exact hright
    · have hcycle : ReachesCycle records id := ⟨id, .refl, hopened id hmem⟩
      exact ⟨nofun, fun hfree => absurd hcycle hfree⟩
  · have hnever := not_reachesVirtual_of_none hrecord
    exact ⟨false, state, hlook, ⟨nofun, fun _ hvirtual => absurd hvirtual hnever⟩, hfits, hstate⟩
  · obtain ⟨answer, after, hinto, ⟨hyes, hno⟩, hafter, hexplored⟩ :=
      lookInto_answers
        (fun base hbase => hsearch base (hasBase_basesGraph_iff.2 ⟨record, hrecord, hbase⟩))
        ⟨hfits.start hnone hrecord, hstate.start⟩
    have hright := isRight_of_bases hrecord hyes hno
    exact ⟨answer, after.set id (some answer), by rw [hlook, hinto]; rfl, hright,
      hafter.settle id answer, hexplored.settle hright⟩

/-- The search from one class, while the classes `opened` are being looked at. -/
theorem isDynamicWithin_isRight
    (hopened : ∀ first ∈ opened, TransGen (basesGraph records).HasBase first id)
    (hfits : Fits records depth state) (hstate : Explored records opened state) :
    Answers (isDynamicWithin records depth id state)
      (fun after => Fits records depth after ∧ Explored records opened after)
      (IsRight records id) := by
  induction depth generalizing id state opened with
  | zero => exact absurd hfits.2 (Nat.not_lt_zero _)
  | succ depth ih =>
    rw [isDynamicWithin]
    refine lookAt_isRight (fun base hbase state hstate => ?_) hopened hfits hstate
    refine ih (List.forall_mem_cons.2 ⟨.single hbase, ?_⟩) hstate.1 hstate.2
    exact fun first hfirst => (hopened first hfirst).tail hbase

end Explored

/-! ## All classes -/

theorem Fits.of_length (h : state.length = records.length) :
    Fits records (records.length + 1) state :=
  ⟨h, Nat.lt_succ_of_le (h ▸ List.count_le_length)⟩

/-- The searches from some classes, one after the other. -/
theorem dynamicFlagsFrom_isRight {order : List RecordId} (hlength : state.length = records.length)
    (hstate : Explored records [] state) :
    ∀ result ∈ order.zip (dynamicFlagsFrom records order state),
      IsRight records result.1 result.2 := by
  induction order generalizing state with
  | nil => simp
  | cons id order ih =>
    have hopened : ∀ first ∈ [], TransGen (basesGraph records).HasBase first id := by simp
    obtain ⟨answer, after, hrun, hright, hfits, hexplored⟩ :=
      isDynamicWithin_isRight hopened (Fits.of_length hlength) hstate
    rw [dynamicFlagsFrom, hrun]
    exact List.forall_mem_cons.2 ⟨hright, ih hfits.1 hexplored⟩

/-- Nothing is known before the first search. -/
theorem explored_unknown : Explored records [] (records.map fun _ => none) := by
  intro id known hknown
  rw [List.getElem?_map] at hknown
  obtain ⟨_, -, hnone⟩ := Option.map_eq_some_iff.1 hknown
  cases hnone

/-- The search from a class always comes to an answer, and this is the same however deep it may go,
if only deeper than there are classes. A class is only said to be dynamic if it or a base of it
declares a virtual or pure function or has a virtual base. If no cycle of bases can be reached from
the class, it is said to be dynamic whenever this is so. All this holds for every row of classes and
every order in which they are looked at. -/
theorem dynamicFlags_reach (records : List Record) :
    (∀ id state, state.length = records.length → ∃ result, ∀ depth, records.length < depth →
      isDynamicWithin records depth id state = some result) ∧
    (dynamicFlags records).length = records.length ∧
    (∀ id isDynamic, (dynamicFlags records)[id]? = some isDynamic →
      (isDynamic = true → ReachesVirtual records id) ∧
      (¬ ReachesCycle records id → ReachesVirtual records id → isDynamic = true)) ∧
    ∀ (order : List RecordId) (id : RecordId) (isDynamic : Bool),
      (id, isDynamic) ∈
        order.zip (dynamicFlagsFrom records order (records.map fun _ => none)) →
      (isDynamic = true → ReachesVirtual records id) ∧
      (¬ ReachesCycle records id → ReachesVirtual records id → isDynamic = true) := by
  have hlength : (records.map fun _ => (none : Option Bool)).length = records.length :=
    List.length_map _
  have hcount : (dynamicFlags records).length = records.length := by
    rw [dynamicFlags, length_dynamicFlagsFrom, List.length_range]
  refine ⟨?_, hcount, ?_, ?_⟩
  · intro id state hstate
    obtain ⟨answer, after, hrun, -⟩ := isDynamicWithin_answers (Fits.of_length hstate) id
    exact ⟨(answer, after), fun depth hdepth => isDynamicWithin_mono hdepth hrun⟩
  · intro id isDynamic hid
    obtain ⟨hlt, -⟩ := List.getElem?_eq_some_iff.1 hid
    have hzip : ((List.range records.length).zip (dynamicFlags records))[id]? =
        some (id, isDynamic) :=
      List.getElem?_zip_eq_some.2 ⟨List.getElem?_range (hcount ▸ hlt), hid⟩
    exact dynamicFlagsFrom_isRight hlength explored_unknown _ (List.mem_of_getElem? hzip)
  · intro order id isDynamic hmem
    exact dynamicFlagsFrom_isRight hlength explored_unknown _ hmem

/-- Cycles are found by visits of the bases. -/
theorem reachesCycle_iff (hclosed : (basesGraph records).IsClosed) :
    ReachesCycle records id ↔
      ∃ reached ∈ id :: (basesGraph records).reachedFrom ((basesGraph records).basesOf id),
        reached ∈ (basesGraph records).reachedFrom ((basesGraph records).basesOf reached) := by
  simp only [ReachesCycle, BaseGraph.reachedFrom_eq_visitOrder, List.mem_cons,
    BaseGraph.mem_visitOrder_iff hclosed, Relation.reflTransGen_iff_eq_or_transGen]

/-- Two classes that derive from each other, and two with a base in common, which has a virtual
base. The first class is of both kinds. -/
def mutualBases : List Record :=
  [TranslationUnit.bareClass 0 [1, 3], TranslationUnit.bareClass 1 [0],
    TranslationUnit.bareClass 2 [3],
    { TranslationUnit.bareClass 3 [] with bases := [⟨"", .pub, true, .nowhere, none⟩] }]

/-- The second class asks for the first one while that is being looked at. It is said not to be
dynamic, but only if the first one is looked at before it. -/
theorem dynamicFlags_reach_mutualBases :
    dynamicFlags mutualBases = [true, false, true, true] ∧
    dynamicFlagsFrom mutualBases [2, 1, 0] (mutualBases.map fun _ => none) = [true, true, true] ∧
    ReachesCycle mutualBases 1 ∧ ReachesVirtual mutualBases 1 ∧
    ¬ ReachesCycle mutualBases 2 ∧ ReachesVirtual mutualBases 2 := by
  have hflags : dynamicFlags mutualBases = [true, false, true, true] := by decide +kernel
  have horder : dynamicFlagsFrom mutualBases [2, 1, 0] (mutualBases.map fun _ => none) =
      [true, true, true] := by decide +kernel
  have hclosed : (basesGraph mutualBases).IsClosed := by decide +kernel
  obtain ⟨-, -, hlisted, hvisited⟩ := dynamicFlags_reach mutualBases
  refine ⟨hflags, horder, (reachesCycle_iff hclosed).2 (by decide +kernel), ?_,
    fun h => absurd ((reachesCycle_iff hclosed).1 h) (by decide +kernel), ?_⟩
  · exact (hvisited [2, 1, 0] 1 true (by rw [horder]; decide)).1 rfl
  · exact (hlisted 2 true (by rw [hflags]; rfl)).1 rfl

end ClassEdit
