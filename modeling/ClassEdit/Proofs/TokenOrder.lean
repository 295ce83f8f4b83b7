import ClassEdit.Edit.ClassHead
import ClassEdit.Proofs.TreeShape
import Mathlib.Tactic.SplitIfs

/-!
# Tokens in order

The tokens of a well-formed tree follow each other in the text and none is empty. On such a row the
bisections by which tokens are looked up agree with the plain readings: all tokens that end after
an offset, and all tokens that start in a range.

## Main definitions

* `Source.InOrder`: the tokens of the source are in order and none is empty.
* `Source.Lexed`: besides, each token has its text.

## Main statements

* `partitionPoint_spec`: bisection divides a table where its condition stops to hold.
* `Source.lexed_ofTree`: the source of a well-formed tree is lexed.
* `InOrder.tokensFrom_eq_filter`, `InOrder.tokensIn_eq_filter`: token lookups as plain readings.
-/

namespace ClassEdit

/-! ## Bisection -/

/-- Below the answer the condition holds, from there on it fails. -/
theorem bisect_spec {holds : Nat → Bool} {low high : Nat} (hle : low ≤ high)
    (hmono : ∀ i j, i ≤ j → holds j = true → holds i = true) :
    low ≤ bisect holds low high ∧ bisect holds low high ≤ high ∧
      (∀ i, low ≤ i → i < bisect holds low high → holds i = true) ∧
      ∀ i, bisect holds low high ≤ i → i < high → holds i = false := by
  fun_induction bisect holds low high with
  | case1 low high hlt mid hmid ih =>
    have hmid_le : mid + 1 ≤ high := by omega
    obtain ⟨hlow, hhigh, hbelow, habove⟩ := ih hmid_le
    refine ⟨by omega, hhigh, fun i hi hlt => ?_, habove⟩
    by_cases him : i ≤ mid
    · exact hmono i mid him hmid
    · exact hbelow i (by omega) hlt
  | case2 low high hlt mid hmid ih =>
    obtain ⟨hlow, hhigh, hbelow, habove⟩ := ih (by omega)
    refine ⟨hlow, by omega, hbelow, fun i hi hlt => ?_⟩
    by_cases him : i < mid
    · exact habove i hi him
    · by_contra hne
      exact hmid (hmono mid i (by omega) (by simpa using hne))
  | case3 low high hge =>
    exact ⟨Nat.le_refl _, hle, fun i _ _ => by omega, fun i _ _ => by omega⟩

/-- For a condition that fails for all entries after one for which it fails, bisection takes the
entries that satisfy it and leaves the others. -/
theorem partitionPoint_spec {α : Type} {holds : α → Bool} {table : Array α}
    (h : table.toList.Pairwise fun a b => holds b = true → holds a = true) :
    table.toList.take (partitionPoint holds table) = table.toList.filter holds ∧
      table.toList.drop (partitionPoint holds table) = table.toList.filter fun a => !holds a := by
  have hmono : ∀ i j : Nat, i ≤ j → table[j]?.any holds = true → table[i]?.any holds = true := by
    intro i j hij hj
    obtain rfl | hlt := Nat.eq_or_lt_of_le hij
    · exact hj
    obtain ⟨b, hb, hholds⟩ := (Option.any_eq_true _ _).1 hj
    obtain ⟨hjlt, rfl⟩ := Array.getElem?_eq_some_iff.1 hb
    have hrel := List.pairwise_iff_getElem.1 h i j (by simp; omega) (by simpa) hlt
    simp only [Array.getElem_toList] at hrel
    rw [Array.getElem?_eq_getElem (by omega)]
    simpa using hrel hholds
  obtain ⟨-, hle, hbelow, habove⟩ := bisect_spec (Nat.zero_le table.size) hmono
  have hdef : partitionPoint holds table = bisect (fun i => table[i]?.any holds) 0 table.size := rfl
  rw [← hdef] at hle hbelow habove
  have htake : ∀ a ∈ table.toList.take (partitionPoint holds table), holds a = true := by
    intro a ha
    obtain ⟨i, hi, rfl⟩ := List.mem_take_iff_getElem.1 ha
    have hlt : i < table.size := by simp at hi; omega
    have := hbelow i (Nat.zero_le i) (by omega)
    simpa [Array.getElem?_eq_getElem hlt] using this
  have hdrop : ∀ a ∈ table.toList.drop (partitionPoint holds table), holds a = false := by
    intro a ha
    obtain ⟨i, hi, rfl⟩ := List.mem_drop_iff_getElem.1 ha
    have hlt : partitionPoint holds table + i < table.size := by simp at hi; omega
    have := habove (partitionPoint holds table + i) (by omega) hlt
    simpa [Array.getElem?_eq_getElem hlt] using this
  have hfilter : ∀ keep : α → Bool, table.toList.filter keep =
      (table.toList.take (partitionPoint holds table)).filter keep ++
        (table.toList.drop (partitionPoint holds table)).filter keep := by
    intro keep
    rw [← List.filter_append, List.take_append_drop]
  constructor
  · rw [hfilter, List.filter_eq_self.2 htake, List.filter_eq_nil_iff.2, List.append_nil]
    intro a ha
    simp [hdrop a ha]
  · rw [hfilter, List.filter_eq_nil_iff.2, List.nil_append, List.filter_eq_self.2]
    · intro a ha
      simp [hdrop a ha]
    · intro a ha
      simp [htake a ha]

/-! ## Tokens of leaves -/

/-- The first token ends before the second one starts. -/
def Token.Before (a b : Token) : Prop :=
  a.stop ≤ b.start

instance (a b : Token) : Decidable (a.Before b) :=
  inferInstanceAs (Decidable (a.stop ≤ b.start))

namespace TokenKind

/-- The text of the tokens of a kind that have all the same. -/
def mark? : TokenKind → Option (List Char)
  | semi => some [';']
  | lBrace => some ['{']
  | rBrace => some ['}']
  | lParen => some ['(']
  | rParen => some [')']
  | lSquare => some ['[']
  | rSquare => some [']']
  | colon => some [':']
  | colonColon => some [':', ':']
  | comma => some [',']
  | less => some ['<']
  | greater => some ['>']
  | amp => some ['&']
  | ampAmp => some ['&', '&']
  | star => some ['*']
  | equal => some ['=']
  | tilde => some ['~']
  | _ => none

theorem mark?_ofFirstChar (c : Char) : (ofFirstChar c).mark? = none := by
  unfold ofFirstChar
  split_ifs <;> rfl

theorem mark?_of_ofLiteral? {kind : Kind} {literal : TokenKind}
    (h : ofLiteral? kind = some literal) : literal.mark? = none := by
  cases kind <;> cases h <;> rfl

theorem eq_of_mark?_ofText {text mark : List Char} (h : (ofText text).mark? = some mark) :
    text = mark := by
  unfold ofText at h
  split at h
  case h_18 c _ _ => simp [mark?_ofFirstChar] at h
  case h_19 => cases h
  all_goals exact Option.some.inj h

theorem eq_of_mark?_getD {text mark : List Char} {kind : Kind}
    (h : ((ofLiteral? kind).getD (ofText text)).mark? = some mark) : text = mark := by
  cases hkind : ofLiteral? kind with
  | none => exact eq_of_mark?_ofText (by simpa [hkind] using h)
  | some literal => simp [hkind, mark?_of_ofLiteral? hkind] at h

/-- A token of a kind with one text has that text. -/
theorem eq_of_mark?_ofTree {text mark : List Char} {t : Tree}
    (h : (ofTree text t).mark? = some mark) : text = mark := by
  fun_induction ofTree text t with
  | case1 root => exact eq_of_mark?_getD h
  | case2 root first rest _ ih => exact ih h
  | case3 root first rest _ => exact eq_of_mark?_getD h

end TokenKind

/-- A token has the range of its leaf, which is no comment and shows something. -/
theorem Token.ofLeaf?_eq_some {source : List Char} {leaf : Tree} {token : Token}
    (h : Token.ofLeaf? source leaf = some token) :
    leaf.kind ≠ .comment ∧ ∃ part, Text.slice? source leaf.root.start leaf.root.stop = some part ∧
      (∃ c ∈ part, Text.isBlank c = false) ∧ token.kind = TokenKind.ofTree part leaf ∧
      token.start = leaf.root.start ∧ token.stop = leaf.root.stop := by
  rw [Token.ofLeaf?] at h
  split at h
  case isTrue => cases h
  case isFalse hleaf =>
    obtain ⟨part, hpart, h⟩ := Option.bind_eq_some_iff.1 h
    split at h
    case isTrue => cases h
    case isFalse hblank =>
      obtain rfl := Option.some.inj h
      refine ⟨fun hkind => by simp [hkind] at hleaf, part, hpart, ?_, rfl, rfl,
        Text.byteLength_of_slice? hpart⟩
      simpa [List.isEmpty_iff, Text.trim_eq_nil_iff] using hblank

namespace Source

/-- The tokens follow each other and none is empty. -/
structure InOrder (s : Source) : Prop where
  pairwise : s.tokens.toList.Pairwise Token.Before
  nonempty : ∀ token ∈ s.tokens.toList, token.start < token.stop

/-- The tokens follow each other, none is empty, and each has its text. -/
structure Lexed (s : Source) : Prop extends s.InOrder where
  text : ∀ token ∈ s.tokens.toList, ∃ part,
    Text.slice? s.text token.start token.stop = some part ∧
      ∀ mark, token.kind.mark? = some mark → part = mark

theorem mem_tokens_ofTree {document : Document} {tree : Tree} {token : Token} :
    token ∈ (ofTree document tree).tokens.toList ↔
      ∃ leaf ∈ tree.leaves, Token.ofLeaf? document.text leaf = some token := by
  simp [ofTree, Tree.tokens]

/-- The source of a well-formed tree is lexed. -/
theorem lexed_ofTree {document : Document} {tree : Tree} (h : tree.WellFormed document.text) :
    (ofTree document tree).Lexed where
  pairwise := by
    simp only [ofTree, Tree.tokens, List.pairwise_filterMap]
    refine h.pairwise_leaves.imp fun {a b} hab x hx y hy => ?_
    obtain ⟨-, -, -, -, -, -, hstop⟩ := Token.ofLeaf?_eq_some hx
    obtain ⟨-, -, -, -, -, hstart, -⟩ := Token.ofLeaf?_eq_some hy
    rw [Token.Before, hstop, hstart]
    exact hab
  nonempty := by
    intro token htoken
    obtain ⟨leaf, -, hleaf⟩ := mem_tokens_ofTree.1 htoken
    obtain ⟨-, part, hpart, ⟨c, hc, -⟩, -, hstart, hstop⟩ := Token.ofLeaf?_eq_some hleaf
    have hlen := Text.byteLength_of_slice? hpart
    have hpos : Text.byteLength part ≠ 0 := by
      rw [Ne, Text.byteLength_eq_zero]
      exact List.ne_nil_of_mem hc
    omega
  text := by
    intro token htoken
    obtain ⟨leaf, -, hleaf⟩ := mem_tokens_ofTree.1 htoken
    obtain ⟨-, part, hpart, -, hkind, hstart, hstop⟩ := Token.ofLeaf?_eq_some hleaf
    refine ⟨part, by rw [hstart, hstop]; exact hpart, fun mark hmark => ?_⟩
    exact TokenKind.eq_of_mark?_ofTree (hkind ▸ hmark)

/-! ## Lookups -/

variable {s : Source}

theorem Lexed.isBoundary_start (h : s.Lexed) {token : Token} (htoken : token ∈ s.tokens.toList) :
    Text.IsBoundary s.text token.start := by
  obtain ⟨part, hpart, -⟩ := h.text token htoken
  exact Text.isBoundary_start_of_slice? hpart

theorem Lexed.isBoundary_stop (h : s.Lexed) {token : Token} (htoken : token ∈ s.tokens.toList) :
    Text.IsBoundary s.text token.stop := by
  obtain ⟨part, hpart, -⟩ := h.text token htoken
  exact Text.isBoundary_stop_of_slice? hpart

theorem InOrder.stop_le_start (h : s.InOrder) {before after : List Token} {a b : Token}
    (hsplit : s.tokens.toList = before ++ a :: after) (hb : b ∈ after) : a.stop ≤ b.start := by
  have hpair := h.pairwise
  rw [hsplit, List.pairwise_append, List.pairwise_cons] at hpair
  exact hpair.2.1.1 b hb

theorem InOrder.eq_or_before (h : s.InOrder) {a b : Token} (ha : a ∈ s.tokens.toList)
    (hb : b ∈ s.tokens.toList) : a = b ∨ a.stop ≤ b.start ∨ b.stop ≤ a.start :=
  eq_or_rel_of_pairwise h.pairwise ha hb

/-- Tokens that start in order also end in order. -/
theorem InOrder.stop_le_stop (h : s.InOrder) {a b : Token} (ha : a ∈ s.tokens.toList)
    (hb : b ∈ s.tokens.toList) (hle : a.start ≤ b.start) : a.stop ≤ b.stop := by
  have := h.nonempty a ha
  have := h.nonempty b hb
  obtain rfl | hab | hba := h.eq_or_before ha hb <;> omega

theorem InOrder.stop_le_start_of_lt (h : s.InOrder) {a b : Token} (ha : a ∈ s.tokens.toList)
    (hb : b ∈ s.tokens.toList) (hlt : a.start < b.start) : a.stop ≤ b.start := by
  have := h.nonempty b hb
  obtain rfl | hab | hba := h.eq_or_before ha hb <;> omega

/-- The tokens from an offset on are those that end after it. -/
theorem InOrder.tokensFrom_eq_filter (h : s.InOrder) (offset : Nat) :
    s.tokensFrom offset = s.tokens.toList.filter fun token => offset < token.stop := by
  have hmono : s.tokens.toList.Pairwise fun a b =>
      decide (b.stop ≤ offset) = true → decide (a.stop ≤ offset) = true := by
    refine h.pairwise.imp_of_mem fun {a b} _ hb hab hstop => ?_
    have := h.nonempty b hb
    unfold Token.Before at hab
    simp at hstop ⊢
    omega
  rw [tokensFrom, indexAt, (partitionPoint_spec hmono).2]
  refine List.filter_congr fun token _ => ?_
  rw [← decide_not]
  exact decide_eq_decide.2 Nat.not_le

/-- From an offset on there are the first token that ends after it and those after that one. -/
theorem InOrder.tokensFrom_of_split (h : s.InOrder) {before after : List Token} {token : Token}
    {offset : Nat} (hsplit : s.tokens.toList = before ++ token :: after)
    (hbefore : ∀ other ∈ before, other.stop ≤ offset) (hstop : offset < token.stop) :
    s.tokensFrom offset = token :: after := by
  have hnonempty := h.nonempty
  have hpair := h.pairwise
  rw [hsplit] at hnonempty hpair
  obtain ⟨-, hlater, -⟩ := List.pairwise_append.1 hpair
  rw [h.tokensFrom_eq_filter, hsplit, List.filter_append, List.filter_eq_nil_iff.2,
    List.nil_append, List.filter_eq_self.2]
  · intro other hother
    obtain rfl | hother := List.mem_cons.1 hother
    · simpa using hstop
    · have hstart : token.stop ≤ other.start := (List.pairwise_cons.1 hlater).1 other hother
      have := hnonempty other (by simp [hother])
      simp
      omega
  · intro other hother
    have := hbefore other hother
    simp
    omega

/-- From the start of a token on there are the token and those after it. -/
theorem InOrder.tokensFrom_start (h : s.InOrder) {before after : List Token} {token : Token}
    (hsplit : s.tokens.toList = before ++ token :: after) :
    s.tokensFrom token.start = token :: after := by
  have hpair := h.pairwise
  rw [hsplit] at hpair
  refine h.tokensFrom_of_split hsplit (fun other hother => ?_) (h.nonempty token (by simp [hsplit]))
  exact (List.pairwise_append.1 hpair).2.2 other hother token List.mem_cons_self

/-- The tokens in a range are those that start in it. -/
theorem InOrder.tokensIn_eq_filter (h : s.InOrder) (start stop : Nat) :
    s.tokensIn (Range.ofOffsets start stop) =
      s.tokens.toList.filter fun token => start ≤ token.start && token.start < stop := by
  have hmono : ∀ bound, s.tokens.toList.Pairwise fun a b =>
      decide (b.start < bound) = true → decide (a.start < bound) = true := by
    intro bound
    refine h.pairwise.imp_of_mem fun {a b} ha _ hab hstart => ?_
    have := h.nonempty a ha
    unfold Token.Before at hab
    simp at hstart ⊢
    omega
  obtain ⟨hbelow, habove⟩ := partitionPoint_spec (hmono start)
  have hupto := (partitionPoint_spec (hmono stop)).1
  -- All tokens before the end of the range, divided where the range starts.
  generalize hfirst : partitionPoint (fun token => decide (token.start < start)) s.tokens = first
    at hbelow habove
  generalize hlast : partitionPoint (fun token => decide (token.start < stop)) s.tokens = last
    at hupto
  have hin : ((s.tokens.toList.take last).take first).filter (start ≤ ·.start) = [] := by
    refine List.filter_eq_nil_iff.2 fun token htoken => ?_
    have hmem : token ∈ s.tokens.toList.take first := by
      rw [List.take_take] at htoken
      exact List.take_subset_take_left _ (Nat.min_le_left _ _) htoken
    rw [hbelow] at hmem
    simpa using (List.mem_filter.1 hmem).2
  have hout : ((s.tokens.toList.take last).drop first).filter (start ≤ ·.start) =
      (s.tokens.toList.take last).drop first := by
    refine List.filter_eq_self.2 fun token htoken => ?_
    have hmem : token ∈ s.tokens.toList.drop first := by
      rw [List.drop_take] at htoken
      exact List.take_subset _ _ htoken
    rw [habove] at hmem
    simpa using (List.mem_filter.1 hmem).2
  calc s.tokensIn (Range.ofOffsets start stop)
      = (s.tokens.toList.take last).drop first := by
        rw [List.drop_take, ← hfirst, ← hlast]
        rfl
    _ = (s.tokens.toList.take last).filter (start ≤ ·.start) := by
        conv => rhs; rw [← List.take_append_drop first (s.tokens.toList.take last)]
        rw [List.filter_append, hin, hout, List.nil_append]
    _ = s.tokens.toList.filter fun token => start ≤ token.start && token.start < stop := by
        rw [hupto, List.filter_filter]

theorem InOrder.mem_tokensIn_iff (h : s.InOrder) {t : Tree} {token : Token} :
    token ∈ s.tokensIn t.range ↔ token ∈ s.tokens.toList ∧ t.root.start ≤ token.start ∧
      token.start < t.root.stop := by
  rw [Tree.range, h.tokensIn_eq_filter]
  simp

theorem InOrder.pairwise_tokensIn (h : s.InOrder) (t : Tree) :
    (s.tokensIn t.range).Pairwise Token.Before := by
  rw [Tree.range, h.tokensIn_eq_filter]
  exact h.pairwise.filter _

end Source

end ClassEdit
