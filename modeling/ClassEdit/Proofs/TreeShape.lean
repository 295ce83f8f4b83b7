import ClassEdit.Proofs.Position
import ClassEdit.Token.Basic
import Mathlib.Data.List.Pairwise

/-!
# The shape of syntax trees

The ranges of a syntax tree are nested, those of siblings follow each other, and all of them begin
and end between characters of the text. Nothing more is assumed of a tree. Since leaves are found
below nodes and next to each other, they inherit the order of the siblings above them.

## Main definitions

* `Tree.nodes`: a tree and everything below it.
* `Tree.WellFormed`: the tree has the shape of a syntax tree of a text.

## Main statements

* `Tree.WellFormed.of_mem_nodes`: what is below a node is well-formed and inside of its range.
* `Tree.WellFormed.pairwise_leaves`: the leaves follow each other.
* `Tree.WellFormed.nested_or_before`: a leaf and a node are nested or apart.
-/

namespace ClassEdit

/-- Two entries of a list in which each entry is related to all later ones are the same, or related
one way or the other. -/
theorem eq_or_rel_of_pairwise {α : Type} {R : α → α → Prop} {l : List α} {a b : α}
    (h : l.Pairwise R) (ha : a ∈ l) (hb : b ∈ l) : a = b ∨ R a b ∨ R b a := by
  have hright : l.Pairwise fun a b => a = b ∨ R a b ∨ R b a := h.imp fun hab => .inr (.inl hab)
  have hleft : l.Pairwise (flip fun a b => a = b ∨ R a b ∨ R b a) :=
    h.imp fun hab => .inr (.inr hab)
  exact hright.forall_of_forall_of_flip (fun _ _ => .inl rfl) hleft ha hb

namespace Tree

/-- A terminal that says nothing about declarations. -/
def terminal (start stop : Nat) : Tree :=
  node ⟨.other, none, start, stop, false, false⟩ []

/-- The first tree ends before the second one starts. -/
def Before (a b : Tree) : Prop :=
  a.root.stop ≤ b.root.start

mutual

/-- The tree and everything below it, a node before its children. -/
def nodes : Tree → List Tree
  | node root children => node root children :: nodesOfAll children

/-- Some trees and everything below them. -/
def nodesOfAll : List Tree → List Tree
  | [] => []
  | t :: ts => t.nodes ++ nodesOfAll ts

end

mutual

/-- The ranges are nested and in order, and their ends are positions of the text. -/
def WellFormed (text : List Char) : Tree → Prop
  | node root children =>
    Text.IsBoundary text root.start ∧ Text.IsBoundary text root.stop ∧
      RowWellFormed text root.start root.stop children

/-- Some trees are well-formed and follow each other between `low` and `high`. -/
def RowWellFormed (text : List Char) (low high : Nat) : List Tree → Prop
  | [] => low ≤ high
  | t :: ts =>
    low ≤ t.root.start ∧ t.WellFormed text ∧ RowWellFormed text t.root.stop high ts

end

mutual

/-- Decides whether a tree is well-formed. -/
def decideWellFormed (text : List Char) : (t : Tree) → Decidable (t.WellFormed text)
  | node root children =>
    have := decideRow text root.start root.stop children
    decidable_of_iff
      (Text.IsBoundary text root.start ∧ Text.IsBoundary text root.stop ∧
        RowWellFormed text root.start root.stop children) (by rw [WellFormed])

/-- Decides whether a row is well-formed. -/
def decideRow (text : List Char) (low high : Nat) :
    (ts : List Tree) → Decidable (RowWellFormed text low high ts)
  | [] => decidable_of_iff (low ≤ high) (by rw [RowWellFormed])
  | t :: ts =>
    have := decideWellFormed text t
    have := decideRow text t.root.stop high ts
    decidable_of_iff
      (low ≤ t.root.start ∧ t.WellFormed text ∧ RowWellFormed text t.root.stop high ts)
      (by rw [RowWellFormed])

end

instance (text : List Char) (t : Tree) : Decidable (t.WellFormed text) :=
  decideWellFormed text t

/-! ## Induction -/

/-- A property of all trees may be assumed of the children. -/
theorem induction {P : Tree → Prop}
    (step : ∀ root children, (∀ c ∈ children, P c) → P (node root children)) (t : Tree) : P t := by
  refine @Tree.rec P (fun ts => ∀ c ∈ ts, P c) ?_ ?_ ?_ t
  · exact step
  · simp
  · intro t ts ht hts c hc
    obtain rfl | hc := List.mem_cons.1 hc
    · exact ht
    · exact hts c hc

theorem nodesOfAll_eq_flatMap (ts : List Tree) : nodesOfAll ts = ts.flatMap nodes := by
  induction ts with
  | nil => rfl
  | cons t ts ih => rw [nodesOfAll, ih, List.flatMap_cons]

theorem leavesOfAll_eq_flatMap (ts : List Tree) : leavesOfAll ts = ts.flatMap leaves := by
  induction ts with
  | nil => rfl
  | cons t ts ih => rw [leavesOfAll, ih, List.flatMap_cons]

theorem mem_nodes_node {s : Tree} {root : Node} {children : List Tree} :
    s ∈ (node root children).nodes ↔ s = node root children ∨ ∃ c ∈ children, s ∈ c.nodes := by
  rw [nodes, nodesOfAll_eq_flatMap, List.mem_cons, List.mem_flatMap]

theorem self_mem_nodes (t : Tree) : t ∈ t.nodes := by
  cases t
  exact mem_nodes_node.2 (.inl rfl)

theorem mem_nodes_of_mem_children {t c : Tree} (h : c ∈ t.children) : c ∈ t.nodes := by
  cases t
  exact mem_nodes_node.2 (.inr ⟨c, h, self_mem_nodes c⟩)

theorem nodes_trans {a b t : Tree} (hab : a ∈ b.nodes) (hbt : b ∈ t.nodes) : a ∈ t.nodes := by
  induction t using induction with
  | step root children ih =>
    obtain rfl | ⟨c, hc, hb⟩ := mem_nodes_node.1 hbt
    · exact hab
    · exact mem_nodes_node.2 (.inr ⟨c, hc, ih c hc hb⟩)

/-- The leaves of a tree are those of its children, unless it counts as one leaf. -/
theorem mem_leaves_node {l : Tree} {root : Node} {children : List Tree}
    (h : l ∈ (node root children).leaves) :
    l = node root children ∨ ∃ c ∈ children, l ∈ c.leaves := by
  rw [leaves] at h
  split at h
  · exact .inl (List.mem_singleton.1 h)
  · rw [leavesOfAll_eq_flatMap, List.mem_flatMap] at h
    exact .inr h

theorem mem_nodes_of_mem_leaves {l t : Tree} (h : l ∈ t.leaves) : l ∈ t.nodes := by
  induction t using induction with
  | step root children ih =>
    obtain rfl | ⟨c, hc, hl⟩ := mem_leaves_node h
    · exact self_mem_nodes _
    · exact mem_nodes_node.2 (.inr ⟨c, hc, ih c hc hl⟩)

/-! ## Rows -/

variable {text : List Char} {low high : Nat} {t : Tree} {ts : List Tree}

theorem RowWellFormed.wellFormed (h : RowWellFormed text low high ts) :
    ∀ t ∈ ts, t.WellFormed text := by
  induction ts generalizing low with
  | nil => simp
  | cons t ts ih =>
    rw [RowWellFormed] at h
    exact List.forall_mem_cons.2 ⟨h.2.1, ih h.2.2⟩

theorem RowWellFormed.low_le_high (h : RowWellFormed text low high ts)
    (hts : ∀ t ∈ ts, t.root.start ≤ t.root.stop) : low ≤ high := by
  induction ts generalizing low with
  | nil => rwa [RowWellFormed] at h
  | cons t ts ih =>
    rw [RowWellFormed] at h
    obtain ⟨ht, hts⟩ := List.forall_mem_cons.1 hts
    have := ih h.2.2 hts
    omega

theorem WellFormed.start_le_stop (h : t.WellFormed text) : t.root.start ≤ t.root.stop := by
  induction t using induction with
  | step root children ih =>
    rw [WellFormed] at h
    obtain ⟨-, -, hrow⟩ := h
    exact hrow.low_le_high fun c hc => ih c hc (hrow.wellFormed c hc)

/-- In a row all trees are well-formed, between the bounds, and before the ones that follow. -/
theorem rowWellFormed_iff :
    RowWellFormed text low high ts ↔
      low ≤ high ∧ ts.Pairwise Before ∧
        ∀ t ∈ ts, t.WellFormed text ∧ low ≤ t.root.start ∧ t.root.stop ≤ high := by
  induction ts generalizing low with
  | nil => simp [RowWellFormed]
  | cons t ts ih =>
    rw [RowWellFormed, ih, List.pairwise_cons]
    constructor
    · rintro ⟨hlow, ht, hle, hpair, hall⟩
      have := ht.start_le_stop
      refine ⟨by omega, ⟨fun s hs => (hall s hs).2.1, hpair⟩, fun s hs => ?_⟩
      obtain rfl | hs := List.mem_cons.1 hs
      · exact ⟨ht, hlow, hle⟩
      · obtain ⟨hwf, hstart, hstop⟩ := hall s hs
        exact ⟨hwf, by omega, hstop⟩
    · rintro ⟨hle, ⟨hbefore, hpair⟩, hall⟩
      obtain ⟨ht, hlow, hhigh⟩ := hall t List.mem_cons_self
      refine ⟨hlow, ht, hhigh, hpair, fun s hs => ?_⟩
      obtain ⟨hwf, _, hstop⟩ := hall s (List.mem_cons_of_mem _ hs)
      exact ⟨hwf, hbefore s hs, hstop⟩

theorem WellFormed.row (h : t.WellFormed text) :
    RowWellFormed text t.root.start t.root.stop t.children := by
  cases t
  rw [WellFormed] at h
  exact h.2.2

theorem WellFormed.pairwise_children (h : t.WellFormed text) : t.children.Pairwise Before :=
  (rowWellFormed_iff.1 h.row).2.1

theorem WellFormed.of_mem_children {c : Tree} (h : t.WellFormed text) (hc : c ∈ t.children) :
    c.WellFormed text ∧ t.root.start ≤ c.root.start ∧ c.root.stop ≤ t.root.stop :=
  (rowWellFormed_iff.1 h.row).2.2 c hc

/-! ## Nodes and leaves -/

/-- What is below a node is well-formed and inside of its range. -/
theorem WellFormed.of_mem_nodes {s : Tree} (h : t.WellFormed text) (hs : s ∈ t.nodes) :
    s.WellFormed text ∧ t.root.start ≤ s.root.start ∧ s.root.stop ≤ t.root.stop := by
  induction t using induction with
  | step root children ih =>
    obtain rfl | ⟨c, hc, hsc⟩ := mem_nodes_node.1 hs
    · exact ⟨h, Nat.le_refl _, Nat.le_refl _⟩
    · obtain ⟨hwf, hstart, hstop⟩ := h.of_mem_children hc
      obtain ⟨hswf, hsstart, hsstop⟩ := ih c hc hwf hsc
      exact ⟨hswf, hstart.trans hsstart, hsstop.trans hstop⟩

theorem WellFormed.of_mem_leaves {l : Tree} (h : t.WellFormed text) (hl : l ∈ t.leaves) :
    l.WellFormed text ∧ t.root.start ≤ l.root.start ∧ l.root.stop ≤ t.root.stop :=
  h.of_mem_nodes (mem_nodes_of_mem_leaves hl)

/-- The leaves follow each other. -/
theorem WellFormed.pairwise_leaves (h : t.WellFormed text) : t.leaves.Pairwise Before := by
  induction t using induction with
  | step root children ih =>
    rw [leaves]
    split
    · exact List.pairwise_singleton _ _
    · rw [leavesOfAll_eq_flatMap, List.pairwise_flatMap]
      refine ⟨fun c hc => ih c hc (h.of_mem_children hc).1, ?_⟩
      refine h.pairwise_children.imp_of_mem fun {a b} ha hb hab x hx y hy => ?_
      have hx := ((h.of_mem_children ha).1.of_mem_leaves hx).2.2
      have hy := ((h.of_mem_children hb).1.of_mem_leaves hy).2.1
      exact (hx.trans hab).trans hy

/-- A leaf is below a node or the node is inside of the leaf, unless the two are apart. -/
theorem WellFormed.nested_or_before {s l : Tree} (h : t.WellFormed text) (hs : s ∈ t.nodes)
    (hl : l ∈ t.leaves) : l ∈ s.leaves ∨ s ∈ l.nodes ∨ s.Before l ∨ l.Before s := by
  induction t using induction with
  | step root children ih =>
    obtain rfl | ⟨d, hd, hsd⟩ := mem_nodes_node.1 hs
    · exact .inl hl
    obtain rfl | ⟨c, hc, hlc⟩ := mem_leaves_node hl
    · exact .inr (.inl hs)
    obtain ⟨hcwf, -, -⟩ := h.of_mem_children hc
    obtain ⟨hdwf, -, -⟩ := h.of_mem_children hd
    obtain ⟨-, hlstart, hlstop⟩ := hcwf.of_mem_leaves hlc
    obtain ⟨-, hsstart, hsstop⟩ := hdwf.of_mem_nodes hsd
    obtain rfl | hbefore | hafter := eq_or_rel_of_pairwise h.pairwise_children hc hd
    · exact ih c hc hcwf hsd hlc
    · exact .inr (.inr (.inr ((hlstop.trans hbefore).trans hsstart)))
    · exact .inr (.inr (.inl ((hsstop.trans hafter).trans hlstart)))

/-- A childless node is inside of a leaf or apart from it. -/
theorem WellFormed.mem_nodes_or_before {s l : Tree} (h : t.WellFormed text) (hs : s ∈ t.nodes)
    (hchildless : s.children = []) (hl : l ∈ t.leaves) : s ∈ l.nodes ∨ s.Before l ∨ l.Before s := by
  obtain hin | hrest := h.nested_or_before hs hl
  · cases s with
    | node root children =>
      obtain rfl : children = [] := hchildless
      obtain rfl | ⟨c, hc, -⟩ := mem_leaves_node hin
      · exact .inl (self_mem_nodes _)
      · cases hc
  · exact hrest

/-- A leaf that starts in the range of a node starts before the end of its last child. -/
theorem WellFormed.start_lt_stop_of_last {s l last : Tree} (h : t.WellFormed text)
    (hs : s ∈ t.nodes) (hlast : s.children.getLast? = some last)
    (hnonempty : last.root.start < last.root.stop) (hl : l ∈ t.leaves)
    (hshows : l.root.start < l.root.stop) (hin : l.root.start < s.root.stop) :
    l.root.start < last.root.stop := by
  obtain ⟨hswf, -, -⟩ := h.of_mem_nodes hs
  obtain ⟨front, hchildren⟩ := List.getLast?_eq_some_iff.1 hlast
  have hstart := (hswf.of_mem_children (c := last) (by simp [hchildren])).2.1
  obtain hbelow | hinside | hbefore | hafter := h.nested_or_before hs hl
  · cases s with
    | node root children =>
      obtain rfl | ⟨c, hc, hlc⟩ := mem_leaves_node hbelow
      · exact hstart.trans_lt hnonempty
      have hstop := ((hswf.of_mem_children hc).1.of_mem_leaves hlc).2.2
      -- The child above the leaf is the last one or before it.
      have hpair := hswf.pairwise_children
      simp only [Tree.children] at hchildren hpair
      rw [hchildren] at hc hpair
      obtain hc | hc := List.mem_append.1 hc
      · have : c.root.stop ≤ last.root.start :=
          (List.pairwise_append.1 hpair).2.2 c hc last List.mem_cons_self
        omega
      · obtain rfl := List.mem_singleton.1 hc
        omega
  · have := ((h.of_mem_leaves hl).1.of_mem_nodes hinside).2.1
    omega
  · have : s.root.stop ≤ l.root.start := hbefore
    omega
  · have : l.root.stop ≤ s.root.start := hafter
    omega

/-- A leaf that ends in the range of a node ends after the start of its first child. -/
theorem WellFormed.start_lt_stop_of_first {s l first : Tree} (h : t.WellFormed text)
    (hs : s ∈ t.nodes) (hfirst : s.children.head? = some first)
    (hnonempty : first.root.start < first.root.stop) (hl : l ∈ t.leaves)
    (hshows : l.root.start < l.root.stop) (hin : s.root.start < l.root.stop) :
    first.root.start < l.root.stop := by
  obtain ⟨hswf, -, -⟩ := h.of_mem_nodes hs
  obtain ⟨rest, hchildren⟩ := List.head?_eq_some_iff.1 hfirst
  have hstop := (hswf.of_mem_children (c := first) (by simp [hchildren])).2.2
  obtain hbelow | hinside | hbefore | hafter := h.nested_or_before hs hl
  · cases s with
    | node root children =>
      obtain rfl | ⟨c, hc, hlc⟩ := mem_leaves_node hbelow
      · exact hnonempty.trans_le hstop
      have hstart := ((hswf.of_mem_children hc).1.of_mem_leaves hlc).2.1
      -- The child above the leaf is the first one or after it.
      have hpair := hswf.pairwise_children
      simp only [Tree.children] at hchildren hpair
      rw [hchildren] at hc hpair
      obtain rfl | hc := List.mem_cons.1 hc
      · omega
      · have : first.root.stop ≤ c.root.start := (List.pairwise_cons.1 hpair).1 c hc
        omega
  · have := ((h.of_mem_leaves hl).1.of_mem_nodes hinside).2.2
    omega
  · have : s.root.stop ≤ l.root.start := hbefore
    omega
  · have : l.root.stop ≤ s.root.start := hafter
    omega

end Tree

end ClassEdit
