import ClassEdit.Proofs.TreeShape
import ClassEdit.Reading.Declarator
import Mathlib.Data.List.Basic

/-!
# The parts of declarators

The layers of a declarator, the parts of a qualified name and what a specifier names are found by
going down in the tree. So they lie in it, and what is known of all nodes of a declaration is known
of the parts that it is read from.

## Main statements

* `Tree.mem_nodes_of_mem_spine`, `Tree.mem_nodes_of_mem_nameChain`, `Tree.specifiedName_mem_nodes`:
  parts of declarators, names and specifiers.
* `FunctionDeclarator.mem_nodes_of_ofTree?`: the parts of a declarator of a function.
-/

namespace ClassEdit

namespace Tree

variable {s t : Tree} {field : Field}

theorem mem_nodes_of_child? (h : t.child? field = some s) : s ∈ t.nodes :=
  mem_nodes_of_mem_children (List.mem_of_find?_eq_some h)

theorem mem_nodes_of_mem_namedChildren (h : s ∈ t.namedChildren) : s ∈ t.nodes :=
  mem_nodes_of_mem_children (List.mem_of_mem_filter h)

/-! ## Layers -/

theorem exists_mem_spine_of_mem_spineOfFirst {pick : Tree → Bool} {ts : List Tree}
    (h : s ∈ spineOfFirst pick ts) : ∃ c ∈ ts, s ∈ c.spine := by
  induction ts with
  | nil => cases h
  | cons c cs ih =>
    rw [spineOfFirst] at h
    rw [List.exists_mem_cons_iff]
    split at h
    · exact .inl h
    · exact .inr (ih h)

theorem mem_nodes_of_mem_spine (h : s ∈ t.spine) : s ∈ t.nodes := by
  induction t using induction with
  | step root children ih =>
    rw [spine] at h
    rw [mem_nodes_node]
    obtain rfl | h := List.mem_cons.1 h
    · exact .inl rfl
    · obtain ⟨c, hc, hs⟩ := exists_mem_spine_of_mem_spineOfFirst h
      exact .inr ⟨c, hc, ih c hc hs⟩

theorem mem_nodes_of_mem_declaratorSpine (h : s ∈ t.declaratorSpine) : s ∈ t.nodes := by
  rw [declaratorSpine] at h
  split at h
  next declarator hdeclarator =>
    exact nodes_trans (mem_nodes_of_mem_spine h) (mem_nodes_of_child? hdeclarator)
  next => cases h

/-- The name in a declarator is one of its nodes, and it is a plain name. -/
theorem declaredName?_eq_some (h : t.declaredName? = some s) : s ∈ t.nodes ∧
    (s.kind = .identifier ∨ s.kind = .fieldIdentifier ∨ s.kind = .typeIdentifier ∨
      s.kind = .primitiveType) := by
  refine ⟨mem_nodes_of_mem_spine (List.mem_of_find?_eq_some h), ?_⟩
  have hkind := List.find?_some h
  split at hkind <;> simp_all

/-! ## Names -/

theorem exists_mem_nameChain_of_mem_nameChainOfFirst {ts : List Tree}
    (h : s ∈ nameChainOfFirst ts) : ∃ c ∈ ts, s ∈ c.nameChain := by
  induction ts with
  | nil => cases h
  | cons c cs ih =>
    rw [nameChainOfFirst] at h
    rw [List.exists_mem_cons_iff]
    split at h
    · exact .inl h
    · exact .inr (ih h)

theorem mem_nodes_of_mem_nameChain (h : s ∈ t.nameChain) : s ∈ t.nodes := by
  induction t using induction with
  | step root children ih =>
    rw [nameChain] at h
    rw [mem_nodes_node]
    obtain rfl | h := List.mem_cons.1 h
    · exact .inl rfl
    · split at h
      · obtain ⟨c, hc, hs⟩ := exists_mem_nameChain_of_mem_nameChainOfFirst h
        exact .inr ⟨c, hc, ih c hc hs⟩
      · cases h

theorem exists_of_specifiedNameOfFirst? {ts : List Tree} (h : specifiedNameOfFirst? ts = some s) :
    ∃ c ∈ ts, s = c.specifiedName := by
  induction ts with
  | nil => cases h
  | cons c cs ih =>
    rw [specifiedNameOfFirst?] at h
    rw [List.exists_mem_cons_iff]
    split at h
    · exact .inl (Option.some.inj h).symm
    · exact .inr (ih h)

theorem specifiedName_mem_nodes (t : Tree) : t.specifiedName ∈ t.nodes := by
  induction t using induction with
  | step root children ih =>
    rw [specifiedName]
    split
    · cases hfirst : specifiedNameOfFirst? children with
      | none => exact self_mem_nodes _
      | some s =>
        obtain ⟨c, hc, rfl⟩ := exists_of_specifiedNameOfFirst? hfirst
        exact mem_nodes_node.2 (.inr ⟨c, hc, ih c hc⟩)
    · exact self_mem_nodes _

end Tree

/-! ## Functions -/

namespace FunctionDeclarator

/-- The parts of a declarator of a function lie in the tree that its layers lie in. -/
theorem mem_nodes_of_ofSpine? {t : Tree} {spine : List Tree} {parts : FunctionDeclarator}
    (hspine : ∀ layer ∈ spine, layer ∈ t.nodes) (h : ofSpine? spine = some parts) :
    parts.function ∈ t.nodes ∧ parts.name ∈ t.nodes ∧
      ∀ wrapper ∈ parts.wrappers, wrapper ∈ t.nodes := by
  induction spine generalizing parts with
  | nil => cases h
  | cons layer inner ih =>
    obtain ⟨hlayer, hinner⟩ := List.forall_mem_cons.1 hspine
    rw [ofSpine?] at h
    split at h
    case h_1 =>
      obtain ⟨name, hname, h⟩ := Option.bind_eq_some_iff.1 h
      obtain ⟨-, h⟩ := Option.ite_none_right_eq_some.1 h
      obtain rfl := Option.some.inj h
      exact ⟨hlayer, Tree.nodes_trans (Tree.mem_nodes_of_child? hname) hlayer, by simp⟩
    case h_2 =>
      obtain ⟨function, hfunction, h⟩ := Option.bind_eq_some_iff.1 h
      obtain rfl := Option.some.inj h
      have hmem := Tree.mem_nodes_of_mem_declaratorSpine (List.mem_of_find?_eq_some hfunction)
      exact ⟨Tree.nodes_trans hmem hlayer, hlayer, by simp⟩
    case h_3 | h_4 =>
      obtain ⟨found, hfound, rfl⟩ := Option.map_eq_some_iff.1 h
      obtain ⟨hfunction, hname, hwrappers⟩ := ih hinner hfound
      exact ⟨hfunction, hname, List.forall_mem_cons.2 ⟨hlayer, hwrappers⟩⟩
    case h_5 =>
      obtain ⟨found, hfound, rfl⟩ := Option.map_eq_some_iff.1 h
      have hparts := ih hinner hfound
      exact hparts
    case h_6 => exact ih hinner h
    case h_7 => cases h

theorem mem_nodes_of_ofTree? {t : Tree} {parts : FunctionDeclarator} (h : ofTree? t = some parts) :
    parts.function ∈ t.nodes ∧ parts.name ∈ t.nodes ∧
      ∀ wrapper ∈ parts.wrappers, wrapper ∈ t.nodes :=
  mem_nodes_of_ofSpine? (fun _ hlayer => Tree.mem_nodes_of_mem_spine hlayer) h

end FunctionDeclarator

end ClassEdit
