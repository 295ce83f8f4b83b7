import ClassEdit.Declaration.Basic

/-!
# The graph of bases

The classes of a unit and their resolved bases form a finite graph, which may have cycles in a
text that is not valid C++. Searches over it keep a list of the classes they have seen; what bounds
them is the total number of base edges out of the classes not seen yet.

## Main definitions

* `BaseGraph`: the direct bases of every class.
* `BaseGraph.unexplored`: the bound on what a search can still do.
* `BaseGraph.searchDeep`: depth-first search for an answer.
* `BaseGraph.visit`: a visit of all bases, the direct ones of a class before those further up.
-/

namespace ClassEdit

/-- The direct bases of every class, in order of declaration. -/
abbrev BaseGraph := List (List RecordId)

namespace BaseGraph

/-- The direct bases of a class. -/
def basesOf (g : BaseGraph) (id : RecordId) : List RecordId :=
  g.getD id []

/-- The classes not seen yet. -/
def unseen (g : BaseGraph) (seen : List RecordId) : List RecordId :=
  (List.range g.length).filter fun id => !seen.contains id

/-- How much there is to explore from some classes: their base edges, and one for each class. -/
def weight (g : BaseGraph) : List RecordId → Nat
  | [] => 0
  | id :: ids => (g.basesOf id).length + 1 + g.weight ids

/-- How much there is to explore outside of the classes seen. -/
def unexplored (g : BaseGraph) (seen : List RecordId) : Nat :=
  g.weight (g.unseen seen)

theorem weight_cons (g : BaseGraph) (id : RecordId) (ids : List RecordId) :
    g.weight (id :: ids) = (g.basesOf id).length + 1 + g.weight ids := rfl

theorem weight_filter_le (g : BaseGraph) (keep : RecordId → Bool) (ids : List RecordId) :
    g.weight (ids.filter keep) ≤ g.weight ids := by
  induction ids with
  | nil => exact Nat.le_refl _
  | cons id ids ih =>
    rw [List.filter_cons, weight_cons]
    split
    · rw [weight_cons]; omega
    · omega

theorem weight_filter_ne_lt (g : BaseGraph) {ids : List RecordId} {id : RecordId}
    (hid : id ∈ ids) :
    g.weight (ids.filter (· != id)) + (g.basesOf id).length < g.weight ids := by
  induction ids with
  | nil => cases hid
  | cons head tail ih =>
    rw [List.filter_cons, weight_cons]
    by_cases h : head = id
    · subst h
      have := weight_filter_le g (· != head) tail
      rw [bne_self_eq_false, if_neg Bool.false_ne_true]
      omega
    · have := ih ((List.mem_cons.1 hid).resolve_left (Ne.symm h))
      rw [if_pos (bne_iff_ne.2 h), weight_cons]
      omega

/-- Seeing a class leaves less to explore by more than its bases. -/
theorem unexplored_cons_lt (g : BaseGraph) {seen : List RecordId} {id : RecordId}
    (hid : id < g.length) (hseen : seen.contains id = false) :
    g.unexplored (id :: seen) + (g.basesOf id).length < g.unexplored seen := by
  have hunseen : g.unseen (id :: seen) = (g.unseen seen).filter (· != id) := by
    unfold unseen
    rw [List.filter_filter]
    apply List.filter_congr
    intro a _
    by_cases h : a = id <;> simp [h]
  have hmem : id ∈ g.unseen seen := by
    simp only [unseen, List.mem_filter, List.mem_range, Bool.not_eq_true']
    exact ⟨hid, hseen⟩
  rw [unexplored, hunseen]
  exact weight_filter_ne_lt g hmem

/-- Depth-first search for a class with an answer, among the classes of `stack` and their bases.
Returns the answer and the classes seen. -/
def searchDeep {α : Type} (g : BaseGraph) (answer : RecordId → Option α)
    (stack seen : List RecordId) : Option α × List RecordId :=
  match stack with
  | [] => (none, seen)
  | id :: rest =>
    if _fresh : id < g.length ∧ seen.contains id = false then
      match answer id with
      | some a => (some a, id :: seen)
      | none => searchDeep g answer (g.basesOf id ++ rest) (id :: seen)
    else searchDeep g answer rest seen
termination_by g.unexplored seen + stack.length
decreasing_by
  · have := unexplored_cons_lt g _fresh.1 _fresh.2
    simp
    omega
  · simp

/-- Visits the classes of `queue` that have not been seen, in order, then the bases of the class
visited last, and so on. The visitor passes a state along and may stop the visit. -/
def visitFrom {σ : Type} (g : BaseGraph) (visitor : σ → RecordId → σ × Bool)
    (queue stack seen : List RecordId) (state : σ) : σ × Bool :=
  match queue, stack with
  | [], [] => (state, true)
  | [], id :: stack => visitFrom g visitor (g.basesOf id) stack seen state
  | id :: queue, stack =>
    if _fresh : id < g.length ∧ seen.contains id = false then
      match visitor state id with
      | (state, true) => visitFrom g visitor queue (id :: stack) (id :: seen) state
      | (state, false) => (state, false)
    else visitFrom g visitor queue stack seen state
termination_by g.unexplored seen + g.weight stack + queue.length
decreasing_by
  · simp [weight]
    omega
  · have := unexplored_cons_lt g _fresh.1 _fresh.2
    simp [weight]
    omega
  · simp

/-- Visits every class that is reached from `bases` once. Tells whether the visitor never stopped
the visit. -/
def visit {σ : Type} (g : BaseGraph) (visitor : σ → RecordId → σ × Bool)
    (bases : List RecordId) (state : σ) : σ × Bool :=
  g.visitFrom visitor bases [] [] state

/-- The classes reached from `bases`, in the order of a visit. -/
def reachedFrom (g : BaseGraph) (bases : List RecordId) : List RecordId :=
  (g.visit (fun visited id => (visited ++ [id], true)) bases []).1

end BaseGraph

end ClassEdit
