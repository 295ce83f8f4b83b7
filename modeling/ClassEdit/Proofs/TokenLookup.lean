import ClassEdit.Proofs.TokenOrder

/-!
# Token lookups as scans

The token at a location, the one after it, the end of a token and the tokens of a range are found
by bisection. Two keys are bisected, the ends of the tokens for a location and their starts for a
range. On tokens in order each lookup gives what going through the tokens one by one gives.

## Main definitions

* `nextAfter`: the token after the one at an offset, found by going through the tokens.

## Main statements

* `InOrder.tokenAt?_start`: at its own start a token is found.
* `InOrder.lookups_eq_scans`: the lookups as scans.
-/

namespace ClassEdit

/-- The token after the first one that ends after the offset. -/
def nextAfter (offset : Nat) : List Token → Option Token
  | [] => none
  | token :: rest => if offset < token.stop then rest.head? else nextAfter offset rest

/-- In a row of tokens in order all tokens after one that ends after the offset do so too. -/
theorem nextAfter_eq_of_pairwise {offset : Nat} {tokens : List Token}
    (hpairwise : tokens.Pairwise Token.Before)
    (hnonempty : ∀ token ∈ tokens, token.start < token.stop) :
    nextAfter offset tokens = (tokens.filter (offset < ·.stop))[1]? := by
  induction tokens with
  | nil => rfl
  | cons token rest ih =>
    obtain ⟨hbefore, hpairwise⟩ := List.pairwise_cons.1 hpairwise
    obtain ⟨-, hnonempty⟩ := List.forall_mem_cons.1 hnonempty
    by_cases hstop : offset < token.stop
    · have hrest : rest.filter (offset < ·.stop) = rest := by
        refine List.filter_eq_self.2 fun later hlater => ?_
        have hstart : token.stop ≤ later.start := hbefore later hlater
        have := hnonempty later hlater
        simp
        omega
      rw [nextAfter, if_pos hstop, List.filter_cons_of_pos (by simpa using hstop), hrest,
        List.getElem?_cons_succ, List.head?_eq_getElem?]
    · rw [nextAfter, if_neg hstop, List.filter_cons_of_neg (by simpa using hstop),
        ih hpairwise hnonempty]

namespace Source

variable {s : Source}

theorem tokenAt?_some (s : Source) (offset : Nat) :
    s.tokenAt? (some offset) = (s.tokensFrom offset).head? := by
  rw [tokensFrom, List.head?_drop, Array.getElem?_toList]
  rfl

theorem nextToken?_some (s : Source) (offset : Nat) :
    s.nextToken? (some offset) = (s.tokensFrom offset)[1]? := by
  rw [tokensFrom, List.getElem?_drop, Array.getElem?_toList]
  rfl

theorem InOrder.tokenAt?_eq_find? (h : s.InOrder) (offset : Nat) :
    s.tokenAt? (some offset) = s.tokens.toList.find? (offset < ·.stop) := by
  rw [tokenAt?_some, h.tokensFrom_eq_filter, List.head?_filter]

theorem InOrder.nextToken?_eq_nextAfter (h : s.InOrder) (offset : Nat) :
    s.nextToken? (some offset) = nextAfter offset s.tokens.toList := by
  rw [nextToken?_some, h.tokensFrom_eq_filter, nextAfter_eq_of_pairwise h.pairwise h.nonempty]

/-- At its own start a token is found, and then the one after it. -/
theorem InOrder.tokenAt?_start (h : s.InOrder) {before after : List Token} {token : Token}
    (hsplit : s.tokens.toList = before ++ token :: after) :
    s.tokenAt? (some token.start) = some token ∧
      s.nextToken? (some token.start) = after.head? := by
  rw [tokenAt?_some, nextToken?_some, h.tokensFrom_start hsplit, List.head?_eq_getElem?]
  exact ⟨rfl, List.getElem?_cons_succ.trans List.head?_eq_getElem?.symm⟩

/-- The end of a token is found from its start, and any other location is left as it is. -/
theorem InOrder.tokenEnd_eq (h : s.InOrder) (offset : Nat) : s.tokenEnd (some offset) =
    ((s.tokens.toList.find? (·.start = offset)).map Token.stop).or (some offset) := by
  cases hfind : s.tokens.toList.find? (·.start = offset) with
  | some token =>
    obtain ⟨hstart, before, after, hsplit, -⟩ := List.find?_eq_some_iff_append.1 hfind
    obtain rfl : token.start = offset := by simpa using hstart
    rw [tokenEnd, (h.tokenAt?_start hsplit).1]
    simp
  | none =>
    have hnone : ∀ token ∈ s.tokens.toList, token.start ≠ offset := by
      simpa using hfind
    rw [tokenEnd]
    split
    case h_1 token htoken =>
      have hmem : token ∈ s.tokens.toList :=
        List.mem_of_find?_eq_some ((h.tokenAt?_eq_find? offset).symm.trans htoken)
      rw [if_neg (by simpa using hnone token hmem)]
      rfl
    case h_2 => rfl

/-- The token at an offset is the first one that ends after it, and the next token is the one after
that in the row, so that a token's own start leads to its successor. The end of a token is found
exactly from its start. The tokens of a range are those that start in it. -/
theorem InOrder.lookups_eq_scans (h : s.InOrder) :
    (∀ offset, s.tokenAt? (some offset) = s.tokens.toList.find? (offset < ·.stop)) ∧
    (∀ offset, s.nextToken? (some offset) = nextAfter offset s.tokens.toList) ∧
    (∀ before token after, s.tokens.toList = before ++ token :: after →
      s.nextToken? (some token.start) = after.head?) ∧
    (∀ offset, s.tokenEnd (some offset) =
      ((s.tokens.toList.find? (·.start = offset)).map Token.stop).or (some offset)) ∧
    ∀ start stop, s.tokensIn (Range.ofOffsets start stop) =
      s.tokens.toList.filter fun token => start ≤ token.start && token.start < stop :=
  ⟨h.tokenAt?_eq_find?, h.nextToken?_eq_nextAfter,
    fun _ _ _ hsplit => (h.tokenAt?_start hsplit).2, h.tokenEnd_eq, h.tokensIn_eq_filter⟩

/-- The text `a  bc;` with its tokens, two of which touch. -/
def touchingTokens : Source where
  document := { text := "a  bc;".toList }
  tokens := #[⟨.identifier, 0, 1⟩, ⟨.identifier, 3, 2⟩, ⟨.semi, 5, 1⟩]

theorem lookups_eq_scans_touchingTokens :
    touchingTokens.InOrder ∧ touchingTokens.tokenAt? (some 1) = some ⟨.identifier, 3, 2⟩ ∧
      touchingTokens.nextToken? (some 3) = some ⟨.semi, 5, 1⟩ ∧
      touchingTokens.nextToken? (some 5) = none ∧ touchingTokens.tokenEnd (some 3) = some 5 ∧
      touchingTokens.tokenEnd (some 4) = some 4 ∧
      touchingTokens.tokensIn (Range.ofOffsets 3 5) = [⟨.identifier, 3, 2⟩] := by
  have hinOrder : touchingTokens.InOrder := ⟨by decide, by decide⟩
  obtain ⟨hat, hnext, hsuccessor, hend, hin⟩ := hinOrder.lookups_eq_scans
  exact ⟨hinOrder, hat 1, hnext 3,
    hsuccessor [⟨.identifier, 0, 1⟩, ⟨.identifier, 3, 2⟩] ⟨.semi, 5, 1⟩ [] rfl,
    hend 3, hend 4, hin 3 5⟩

end Source

end ClassEdit
