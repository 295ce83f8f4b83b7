import ClassEdit.Proofs.UnitClasses
import ClassEdit.Render.Overrides
import Mathlib.Data.List.Nodup

/-!
# The overrides of an interface

An interface asks for an override of each pure member function of its own and of its bases. A base
that is reached over several ways is visited once, so each of these functions has one override. The
statement is about places of functions in a unit, as different functions may have equal overrides.

## Main definitions

* `MemberRef`, `TranslationUnit.member?`: a member function by its class and its number there.
* `TranslationUnit.pureRefs`: the pure member functions of some classes.
* `TranslationUnit.renderRef?`: the override of a member function.

## Main statements

* `TranslationUnit.map_some_overrides`: overrides are given class by class.
* `TranslationUnit.mem_pureRefs_iff`, `TranslationUnit.nodup_pureRefs`: each pure member function
  of the classes is given once.
-/

namespace ClassEdit

open Relation (ReflTransGen TransGen)

/-- A member function, by its class and its number among the member functions there. -/
structure MemberRef where
  record : RecordId
  index : Nat
deriving DecidableEq, Repr

namespace TranslationUnit

/-- The member function with its class. -/
def member? (u : TranslationUnit) (ref : MemberRef) : Option (Record × Method) := do
  let record ← u.records[ref.record]?
  let method ← record.methods[ref.index]?
  return (record, method)

/-- The override of a member function. -/
def renderRef? (u : TranslationUnit) (options : RenderOptions) (ref : MemberRef) :
    Option String :=
  (u.member? ref).map fun member => member.1.renderOverride u.source options member.2

/-- The pure member functions of a class in order of declaration. -/
def pureRefsOf (u : TranslationUnit) (id : RecordId) : List MemberRef :=
  match u.records[id]? with
  | some record => (record.methods.zipIdx.filter (·.1.isPure)).map fun method => ⟨id, method.2⟩
  | none => []

/-- The pure member functions of some classes, class by class. -/
def pureRefs (u : TranslationUnit) (ids : List RecordId) : List MemberRef :=
  ids.flatMap u.pureRefsOf

variable {u : TranslationUnit} {options : RenderOptions}

theorem member?_eq_some_iff {ref : MemberRef} {record : Record} {method : Method} :
    u.member? ref = some (record, method) ↔
      u.records[ref.record]? = some record ∧ record.methods[ref.index]? = some method := by
  simp only [member?, Option.bind_eq_bind, Option.bind_eq_some_iff, Option.pure_def,
    Option.some.injEq, Prod.mk.injEq]
  constructor
  · rintro ⟨_, hrecord, _, hmethod, rfl, rfl⟩
    exact ⟨hrecord, hmethod⟩
  · rintro ⟨hrecord, hmethod⟩
    exact ⟨record, hrecord, method, hmethod, rfl, rfl⟩

theorem mem_pureRefsOf_iff {id : RecordId} {ref : MemberRef} :
    ref ∈ u.pureRefsOf id ↔ ref.record = id ∧
      ∃ record method, u.member? ref = some (record, method) ∧ method.isPure = true := by
  simp only [member?_eq_some_iff]
  rw [pureRefsOf]
  split
  next record hrecord =>
    simp only [List.mem_map, List.mem_filter]
    constructor
    · rintro ⟨⟨method, index⟩, ⟨hmethod, hpure⟩, rfl⟩
      exact ⟨rfl, record, method, ⟨hrecord, List.mem_zipIdx_iff_getElem?.1 hmethod⟩, hpure⟩
    · rintro ⟨rfl, _, method, ⟨hsame, hmethod⟩, hpure⟩
      obtain rfl := Option.some.inj (hrecord.symm.trans hsame)
      exact ⟨(method, ref.index), ⟨List.mem_zipIdx_iff_getElem?.2 hmethod, hpure⟩, rfl⟩
  next hnone => grind

theorem nodup_pureRefsOf (id : RecordId) : (u.pureRefsOf id).Nodup := by
  rw [pureRefsOf]
  split
  next record _ =>
    have hindices : ((record.methods.zipIdx.filter (·.1.isPure)).map (·.2)).Nodup := by
      refine List.Nodup.sublist (List.filter_sublist.map _) ?_
      rw [List.zipIdx_map_snd]
      exact List.nodup_range'
    refine List.Nodup.of_map (·.index) ?_
    simpa only [List.map_map, Function.comp_def] using hindices
  next => exact List.nodup_nil

theorem mem_pureRefs_iff {ids : List RecordId} {ref : MemberRef} :
    ref ∈ u.pureRefs ids ↔ ref.record ∈ ids ∧
      ∃ record method, u.member? ref = some (record, method) ∧ method.isPure = true := by
  simp only [pureRefs, List.mem_flatMap, mem_pureRefsOf_iff]
  constructor
  · rintro ⟨id, hid, rfl, hmember⟩
    exact ⟨hid, hmember⟩
  · rintro ⟨hid, hmember⟩
    exact ⟨ref.record, hid, rfl, hmember⟩

theorem nodup_pureRefs {ids : List RecordId} (hids : ids.Nodup) : (u.pureRefs ids).Nodup := by
  rw [pureRefs, List.nodup_flatMap]
  refine ⟨fun id _ => nodup_pureRefsOf id, hids.imp fun hne ref hfirst hsecond => hne ?_⟩
  exact (mem_pureRefsOf_iff.1 hfirst).1.symm.trans (mem_pureRefsOf_iff.1 hsecond).1

/-- The overrides of one class are those of its pure member functions. -/
theorem map_some_overrides_of_record {id : RecordId} {record : Record}
    (hrecord : u.records[id]? = some record) :
    (record.overrides u.source options).map some =
      (u.pureRefsOf id).map (u.renderRef? options) := by
  have hpure : record.pureMethods = (record.methods.zipIdx.filter (·.1.isPure)).map (·.1) :=
    calc
      record.pureMethods = (record.methods.zipIdx.map (·.1)).filter (·.isPure) := by
        rw [List.zipIdx_map_fst]
        rfl
      _ = (record.methods.zipIdx.filter (·.1.isPure)).map (·.1) := List.filter_map
  simp only [Record.overrides, hpure, pureRefsOf, hrecord, List.map_map]
  refine List.map_congr_left fun method hmethod => ?_
  have hmember : u.member? ⟨id, method.2⟩ = some (record, method.1) :=
    member?_eq_some_iff.2
      ⟨hrecord, List.mem_zipIdx_iff_getElem?.1 (List.mem_of_mem_filter hmethod)⟩
  simp [renderRef?, hmember]

/-- The overrides of some classes are given class by class. -/
theorem map_some_overrides (ids : List RecordId) :
    ((ids.filterMap (u.records[·]?)).flatMap (·.overrides u.source options)).map some =
      (u.pureRefs ids).map (u.renderRef? options) := by
  induction ids with
  | nil => rfl
  | cons id ids ih =>
    rw [pureRefs, List.flatMap_cons, List.map_append, ← pureRefs, ← ih]
    cases hrecord : u.records[id]? with
    | none => simp [hrecord, pureRefsOf]
    | some record =>
      rw [← map_some_overrides_of_record hrecord]
      simp [hrecord]

theorem endsIn_of_mem_overrides {record : Record} {text : String}
    (h : text ∈ u.overrides record options) : Text.endsIn text " override;" = true := by
  obtain ⟨r, -, htext⟩ := List.mem_flatMap.1 h
  obtain ⟨method, -, rfl⟩ := List.mem_map.1 htext
  rw [Text.endsIn, List.isSuffixOf_iff_suffix, Record.renderOverride, String.toList_append]
  exact List.suffix_append _ _

variable {document : Document} {tree : Tree} {hasErrors : Bool}

/-- The classes of an interface that is not a base of itself are its bases in the order of a visit
and then the interface, each class once. The overrides are, class by class, those of the pure
member functions in order of declaration: one for each such function, and no other. -/
theorem overrides_eq_pureRefs (options : RenderOptions) {start : RecordId} {record : Record}
    (hstart : (ofTree document tree hasErrors).records[start]? = some record)
    (hself : ¬ TransGen (ofTree document tree hasErrors).baseGraph.HasBase start start) :
    let u := ofTree document tree hasErrors
    let classes := u.baseGraph.reachedFrom record.resolvedBases ++ [start]
    classes.Nodup ∧ (∀ id, id ∈ classes ↔ ReflTransGen u.baseGraph.HasBase start id) ∧
    (u.overrides record options).map some = (u.pureRefs classes).map (u.renderRef? options) ∧
    (u.pureRefs classes).Nodup ∧
    (∀ ref, ref ∈ u.pureRefs classes ↔ ReflTransGen u.baseGraph.HasBase start ref.record ∧
      ∃ owner method, u.member? ref = some (owner, method) ∧ method.isPure = true) ∧
    ∀ text ∈ u.overrides record options, Text.endsIn text " override;" = true := by
  intro u classes
  have hmem : ∀ id, id ∈ classes ↔ ReflTransGen u.baseGraph.HasBase start id := by
    intro id
    rw [List.mem_append, mem_reachedFrom_iff isClosed_baseGraph hstart, List.mem_singleton,
      Relation.reflTransGen_iff_eq_or_transGen, or_comm]
  have hnodup : classes.Nodup := by
    refine List.nodup_append.2 ⟨BaseGraph.nodup_reachedFrom _ _, List.nodup_singleton _, ?_⟩
    rintro id hid _ hlast rfl
    rw [List.mem_singleton.1 hlast, mem_reachedFrom_iff isClosed_baseGraph hstart] at hid
    exact hself hid
  have hclasses : u.basesOf record ++ [record] = classes.filterMap (u.records[·]?) := by
    simp [classes, basesOf, u, hstart]
  refine ⟨hnodup, hmem, ?_, nodup_pureRefs hnodup, fun ref => ?_,
    fun text => endsIn_of_mem_overrides⟩
  · rw [overrides, hclasses]
    exact map_some_overrides classes
  · rw [mem_pureRefs_iff, hmem]

/-- An interface with two bases, which have a base in common. -/
def diamond : Document where
  text := ("struct R \x7b virtual void f() = 0; \x7d;\n" ++
    "struct A : R \x7b\x7d;\nstruct B : R \x7b\x7d;\n" ++
    "struct C : A, B \x7b virtual void h() = 0; \x7d;\n").toList

/-- The tree of a pure member function of `diamond`. -/
def pureFunctionTree (start : Nat) : Tree :=
  .node ⟨.fieldDeclaration, none, start, start + 21, true, false⟩
    [.node ⟨.virtualWord, none, start, start + 7, false, false⟩ [],
      .node ⟨.primitiveType, some .type, start + 8, start + 12, true, false⟩ [],
      .node ⟨.functionDeclarator, some .declarator, start + 13, start + 16, true, false⟩
        [.node ⟨.fieldIdentifier, some .declarator, start + 13, start + 14, true, false⟩ [],
          .node ⟨.other, some .parameters, start + 14, start + 16, true, false⟩
            [.terminal (start + 14) (start + 15), .terminal (start + 15) (start + 16)]],
      .terminal (start + 17) (start + 18),
      .node ⟨.numberLiteral, some .defaultValue, start + 19, start + 20, true, false⟩ [],
      .terminal (start + 20) (start + 21)]

/-- The tree of a class of `diamond` between the two on top and bottom. -/
def middleTree (start : Nat) : Tree :=
  .node ⟨.structSpecifier, none, start, start + 15, true, false⟩
    [.terminal start (start + 6),
      .node ⟨.typeIdentifier, some .name, start + 7, start + 8, true, false⟩ [],
      .node ⟨.baseClassClause, none, start + 9, start + 12, true, false⟩
        [.node ⟨.colon, none, start + 9, start + 10, false, false⟩ [],
          .node ⟨.typeIdentifier, none, start + 11, start + 12, true, false⟩ []],
      .node ⟨.other, some .body, start + 13, start + 15, true, false⟩
        [.terminal (start + 13) (start + 14), .terminal (start + 14) (start + 15)]]

/-- The tree of `diamond`. -/
def diamondTree : Tree :=
  .node ⟨.other, none, 0, 113, true, false⟩
    [.node ⟨.structSpecifier, none, 0, 34, true, false⟩
      [.terminal 0 6, .node ⟨.typeIdentifier, some .name, 7, 8, true, false⟩ [],
        .node ⟨.other, some .body, 9, 34, true, false⟩
          [.terminal 9 10, pureFunctionTree 11, .terminal 33 34]],
      .terminal 34 35, middleTree 36, .terminal 51 52, middleTree 53, .terminal 68 69,
      .node ⟨.structSpecifier, none, 70, 111, true, false⟩
        [.terminal 70 76, .node ⟨.typeIdentifier, some .name, 77, 78, true, false⟩ [],
          .node ⟨.baseClassClause, none, 79, 85, true, false⟩
            [.node ⟨.colon, none, 79, 80, false, false⟩ [],
              .node ⟨.typeIdentifier, none, 81, 82, true, false⟩ [],
              .node ⟨.comma, none, 82, 83, false, false⟩ [],
              .node ⟨.typeIdentifier, none, 84, 85, true, false⟩ []],
          .node ⟨.other, some .body, 86, 111, true, false⟩
            [.terminal 86 87, pureFunctionTree 88, .terminal 110 111]],
      .terminal 111 112]

theorem overrides_eq_pureRefs_diamond :
    let u := ofTree diamond diamondTree false
    ¬ TransGen u.baseGraph.HasBase 3 3 ∧
    ∃ record, u.records[3]? = some record ∧
      u.baseGraph.reachedFrom record.resolvedBases = [1, 2, 0] ∧
      u.overrides record {} = ["void f() override;", "void h() override;"] ∧
      u.pureRefs [1, 2, 0, 3] = [⟨0, 0⟩, ⟨3, 0⟩] ∧
      (u.overrides record {}).map some = (u.pureRefs [1, 2, 0, 3]).map (u.renderRef? {}) ∧
      ∀ id, id ∈ [1, 2, 0, 3] ↔ ReflTransGen u.baseGraph.HasBase 3 id := by
  intro u
  have hrun : (u.records[3]?.map fun record =>
      (u.baseGraph.reachedFrom record.resolvedBases, u.overrides record {})) =
      some ([1, 2, 0], ["void f() override;", "void h() override;"]) := by decide +kernel
  obtain ⟨record, hrecord, hrun⟩ := Option.map_eq_some_iff.1 hrun
  obtain ⟨hreached, hoverrides⟩ := Prod.mk.inj hrun
  have hself : ¬ TransGen u.baseGraph.HasBase 3 3 := by
    rw [← mem_reachedFrom_iff isClosed_baseGraph hrecord, hreached]
    decide
  obtain ⟨-, hclasses, hrefs, -⟩ := overrides_eq_pureRefs {} hrecord hself
  rw [hreached] at hclasses hrefs
  exact ⟨hself, record, hrecord, hreached, hoverrides, by decide +kernel, hrefs, hclasses⟩

end TranslationUnit

end ClassEdit
