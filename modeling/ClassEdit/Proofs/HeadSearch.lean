import ClassEdit.Proofs.TokenLookup
import Mathlib.Data.List.Basic
import Mathlib.Logic.Function.Iterate
import Mathlib.Order.Bounds.Basic

/-!
# The search for the end of a head

The end of a head can be searched for with nothing kept but the token that has been reached: in each
turn the next token is looked up from the location of that token, by bisection over all tokens. No
count bounds such a search. But where the tokens are in order, a lookup from the start of a token
comes back to that token, so that a turn leads to the one after it. Hence the search goes through
the row of tokens and ends where the walk along the row ends.

A location is a number of four bytes, the greatest of which stands for nowhere. In a text with fewer
bytes all tokens have a location.

## Main definitions

* `Location.ofOffset`: the location with an offset.
* `Source.Addressable`: tokens in order, all with locations.
* `HeadSearch.start`, `HeadSearch.turn`: the search, turn by turn.
* `Source.endingAfter`, `Source.bracesAfter`: the tokens that end after an offset, and the opening
  braces after a token.

## Main statements

* `HeadSearch.turn_reached`, `HeadSearch.turns_reached`: a turn leads to the next token, and the
  turns together to the end of the head.
* `ClassHead.ofTokens_eq_ok_of_first`, `ClassHead.ofTokens_eq_error`: where the walk along the row
  ends.
* `Record.head_found_by_search`: the search ends, and the head it finds.
-/

namespace ClassEdit

/-- The number that stands for nowhere. -/
def nowhereOffset : Nat := 4294967295

/-- The location with the given offset. -/
def Location.ofOffset (offset : Nat) : Location :=
  if offset = nowhereOffset then none else some offset

theorem Location.ofOffset_of_ne {offset : Nat} (h : offset ≠ nowhereOffset) :
    ofOffset offset = some offset :=
  if_neg h

/-- The tokens are in order, and the text they are in ends before the offset that stands for
nowhere. -/
structure Source.Addressable (s : Source) : Prop extends s.InOrder where
  inside : ∀ token ∈ s.tokens.toList, token.stop ≤ s.document.length
  short : s.document.length < nowhereOffset

/-! ## The search -/

/-- How far the search for the end of a head has come. -/
inductive HeadSearch where
  /-- The last token that has been found. -/
  | reached (last : Token)
  | ended (result : Except EditError ClassHead)
deriving DecidableEq

namespace HeadSearch

/-- The search for a class at a location starts with the token there. -/
def start (s : Source) : Location → HeadSearch
  | none => ended (.error .invalidToken)
  | some offset =>
    match s.tokenAt? (some offset) with
    | none => ended (.error (.emptyToken offset))
    | some first => reached first

/-- The search after the token `last`, with the token that follows it if there is one. -/
def follow (last : Token) : Option Token → HeadSearch
  | none => ended (.error (.emptyToken last.start))
  | some token => if token.kind = .lBrace then ended (.ok ⟨last, token⟩) else reached token

/-- One turn of the search: what follows the last token is looked up from its location. -/
def turn (s : Source) : HeadSearch → HeadSearch
  | ended result => ended result
  | reached last =>
    match Location.ofOffset last.start with
    | none => ended (.error .invalidToken)
    | some offset => follow last (s.nextToken? (some offset))

variable {s : Source}

theorem turns_ended (s : Source) (result : Except EditError ClassHead) (turns : Nat) :
    (turn s)^[turns] (ended result) = ended result :=
  Function.iterate_fixed rfl turns

/-- A turn goes on to the token after the one that has been reached. -/
theorem turn_reached (hs : s.Addressable) {before after : List Token} {last : Token}
    (hsplit : s.tokens.toList = before ++ last :: after) :
    turn s (reached last) = follow last after.head? := by
  have hlast : last ∈ s.tokens.toList := by simp [hsplit]
  have hlocation : last.start ≠ nowhereOffset := by
    have := hs.nonempty last hlast
    have := hs.inside last hlast
    have := hs.short
    omega
  simp only [turn, Location.ofOffset_of_ne hlocation, (hs.tokenAt?_start hsplit).2]

/-- With a turn for each token from the one that has been reached on, the search is at its end. -/
theorem turns_reached (hs : s.Addressable) {before after : List Token} {last : Token}
    (hsplit : s.tokens.toList = before ++ last :: after) :
    (turn s)^[after.length + 1] (reached last) = ended (ClassHead.ofTokens last after) := by
  induction after generalizing before last with
  | nil => exact turn_reached hs hsplit
  | cons token after ih =>
    rw [Function.iterate_succ_apply, turn_reached hs hsplit, List.head?_cons, follow,
      ClassHead.ofTokens]
    split
    · exact turns_ended s _ _
    · exact ih (hsplit.trans (List.append_cons before last (token :: after)))

/-- With as many turns as there are tokens, or more, the search is at the end of the head. -/
theorem turns_start (hs : s.Addressable) (r : Record) (hstart : r.start ≠ nowhereOffset)
    {turns : Nat} (hturns : s.tokens.size ≤ turns) :
    (turn s)^[turns] (start s (Location.ofOffset r.start)) = ended (r.head s) := by
  rw [Location.ofOffset_of_ne hstart, start, Source.tokenAt?_some, Record.head]
  cases hfrom : s.tokensFrom r.start with
  | nil => exact turns_ended s _ turns
  | cons first rest =>
    have hsplit : s.tokens.toList = s.tokens.toList.take (s.indexAt r.start) ++ first :: rest := by
      rw [← hfrom, Source.tokensFrom, List.take_append_drop]
    have hlength : rest.length + 1 ≤ s.tokens.size := by
      have := congrArg List.length hsplit
      rw [List.length_append, List.length_cons, Array.length_toList] at this
      omega
    obtain ⟨more, rfl⟩ := Nat.exists_eq_add_of_le' (hlength.trans hturns)
    rw [List.head?_cons, Function.iterate_add_apply, turns_reached hs hsplit]
    exact turns_ended s _ more

end HeadSearch

/-! ## The end of the head among the tokens -/

namespace ClassHead

/-- Without an opening brace the walk comes to the last token. -/
theorem ofTokens_eq_error {tokens : List Token} (h : ∀ token ∈ tokens, token.kind ≠ .lBrace)
    (last : Token) : ofTokens last tokens = .error (.emptyToken (tokens.getLastD last).start) := by
  induction tokens generalizing last with
  | nil => rfl
  | cons token tokens ih =>
    obtain ⟨htoken, htokens⟩ := List.forall_mem_cons.1 h
    rw [ofTokens, if_neg htoken, ih htokens, List.getLastD_cons]

/-- The walk ends at the first opening brace, with the token right before it. -/
theorem ofTokens_eq_ok_of_first {tokens : List Token} {first last brace : Token} {index : Nat}
    (hlast : (first :: tokens)[index]? = some last) (hbrace : tokens[index]? = some brace)
    (hkind : brace.kind = .lBrace)
    (hfirst : ∀ i < index, ∀ token ∈ tokens[i]?, token.kind ≠ .lBrace) :
    ofTokens first tokens = .ok ⟨last, brace⟩ := by
  induction tokens generalizing first index with
  | nil => cases hbrace
  | cons token tokens ih =>
    cases index with
    | zero =>
      obtain rfl : first = last := Option.some.inj hlast
      obtain rfl : token = brace := Option.some.inj hbrace
      rw [ofTokens, if_pos hkind]
    | succ index =>
      rw [ofTokens, if_neg (hfirst 0 (Nat.succ_pos index) token rfl)]
      exact ih hlast hbrace fun i hi => hfirst (i + 1) (Nat.succ_lt_succ hi)

end ClassHead

namespace Source

/-- The indices of the tokens that end after an offset. -/
def endingAfter (s : Source) (offset : Nat) : Set Nat :=
  {index | ∃ token ∈ s.tokens[index]?, offset < token.stop}

/-- The indices of the opening braces after an index. -/
def bracesAfter (s : Source) (first : Nat) : Set Nat :=
  {index | first < index ∧ ∃ token ∈ s.tokens[index]?, token.kind = .lBrace}

variable {s : Source}

theorem isLeast_endingAfter {offset first : Nat} {token : Token}
    (htoken : s.tokens[first]? = some token) (hstop : offset < token.stop)
    (hbefore : ∀ i < first, ∀ other ∈ s.tokens[i]?, other.stop ≤ offset) :
    IsLeast (s.endingAfter offset) first := by
  refine ⟨⟨token, htoken, hstop⟩, fun index ⟨other, hother, hends⟩ => ?_⟩
  by_contra hlt
  exact absurd hends (Nat.not_lt.2 (hbefore index (Nat.not_le.1 hlt) other hother))

theorem isLeast_bracesAfter {first index : Nat} {brace : Token} (hlt : first < index)
    (hbrace : s.tokens[index]? = some brace) (hkind : brace.kind = .lBrace)
    (hbefore : ∀ i < index, first < i → ∀ other ∈ s.tokens[i]?, other.kind ≠ .lBrace) :
    IsLeast (s.bracesAfter first) index := by
  refine ⟨⟨hlt, brace, hbrace, hkind⟩, fun i ⟨hfirst, other, hother, hbraced⟩ => ?_⟩
  by_contra hi
  exact hbefore i (Nat.not_le.1 hi) hfirst other hother hbraced

/-- From an offset on there are the first token that ends after it and those after that one. -/
theorem InOrder.tokensFrom_of_isLeast (h : s.InOrder) {offset first : Nat}
    (hfirst : IsLeast (s.endingAfter offset) first) :
    ∃ token, s.tokens.toList.drop first = token :: s.tokens.toList.drop (first + 1) ∧
      s.tokensFrom offset = token :: s.tokens.toList.drop (first + 1) := by
  obtain ⟨⟨token, htoken, hstop⟩, hleast⟩ := hfirst
  rw [Option.mem_def, ← Array.getElem?_toList] at htoken
  obtain ⟨hlt, rfl⟩ := List.getElem?_eq_some_iff.1 htoken
  have hdrop := List.drop_eq_getElem_cons hlt
  have hsplit : s.tokens.toList = s.tokens.toList.take first ++
      s.tokens.toList[first] :: s.tokens.toList.drop (first + 1) := by
    rw [← hdrop, List.take_append_drop]
  refine ⟨_, hdrop, h.tokensFrom_of_split hsplit (fun other hother => ?_) hstop⟩
  by_contra hends
  obtain ⟨index, hindex, rfl⟩ := List.mem_take_iff_getElem.1 hother
  have : first ≤ index := hleast ⟨_, by simp, Nat.not_le.1 hends⟩
  omega

end Source

namespace Record

variable {s : Source} {r : Record} {first : Nat}

theorem head_of_endingAfter_eq_empty (hs : s.InOrder) (hnone : s.endingAfter r.start = ∅) :
    r.head s = .error (.emptyToken r.start) := by
  have hfrom : s.tokensFrom r.start = [] := by
    rw [hs.tokensFrom_eq_filter, List.filter_eq_nil_iff]
    intro token htoken hstop
    obtain ⟨index, hindex⟩ := List.getElem?_of_mem htoken
    rw [Array.getElem?_toList] at hindex
    exact Set.eq_empty_iff_forall_notMem.1 hnone index ⟨token, hindex, by simpa using hstop⟩
  rw [head, hfrom]

/-- The walk along the row starts with the first token that ends after the start of the class. -/
theorem head_eq_ofTokens (hs : s.InOrder) (hfirst : IsLeast (s.endingAfter r.start) first) :
    ∃ token, s.tokens.toList.drop first = token :: s.tokens.toList.drop (first + 1) ∧
      r.head s = ClassHead.ofTokens token (s.tokens.toList.drop (first + 1)) := by
  obtain ⟨token, hdrop, hfrom⟩ := hs.tokensFrom_of_isLeast hfirst
  exact ⟨token, hdrop, by rw [head, hfrom]⟩

theorem head_of_bracesAfter_eq_empty (hs : s.InOrder)
    (hfirst : IsLeast (s.endingAfter r.start) first) (hnone : s.bracesAfter first = ∅) :
    ∃ last, s.tokens.back? = some last ∧ r.head s = .error (.emptyToken last.start) := by
  obtain ⟨token, hdrop, hhead⟩ := head_eq_ofTokens hs hfirst
  have hbraces : ∀ other ∈ s.tokens.toList.drop (first + 1), other.kind ≠ .lBrace := by
    intro other hother hkind
    obtain ⟨index, hindex⟩ := List.getElem?_of_mem hother
    rw [List.getElem?_drop, Array.getElem?_toList] at hindex
    exact Set.eq_empty_iff_forall_notMem.1 hnone (first + 1 + index)
      ⟨by omega, other, hindex, hkind⟩
  refine ⟨(s.tokens.toList.drop (first + 1)).getLastD token, ?_, ?_⟩
  · rw [← Array.getLast?_toList]
    conv_lhs => rw [← List.take_append_drop first s.tokens.toList, hdrop]
    rw [List.getLast?_append_cons, List.getLast?_cons, List.getLastD_eq_getLast?]
  · rw [hhead, ClassHead.ofTokens_eq_error hbraces]

theorem head_of_isLeast_bracesAfter (hs : s.InOrder)
    (hfirst : IsLeast (s.endingAfter r.start) first) {index : Nat}
    (hindex : IsLeast (s.bracesAfter first) index) :
    ∃ head, r.head s = .ok head ∧ s.tokens[index - 1]? = some head.last ∧
      s.tokens[index]? = some head.brace := by
  obtain ⟨token, hdrop, hhead⟩ := head_eq_ofTokens hs hfirst
  obtain ⟨⟨hlt, brace, hbrace, hkind⟩, hleast⟩ := hindex
  obtain ⟨distance, rfl⟩ := Nat.exists_eq_add_of_lt hlt
  obtain ⟨last, hlast⟩ : ∃ last, s.tokens[first + distance]? = some last := by
    have hlength : first + distance + 1 < s.tokens.size := (Array.getElem?_eq_some_iff.1 hbrace).1
    exact ⟨_, Array.getElem?_eq_getElem (Nat.lt_of_succ_lt hlength)⟩
  -- The brace is `distance` tokens after the one the walk starts with.
  have hbefore : (token :: s.tokens.toList.drop (first + 1))[distance]? =
      s.tokens[first + distance]? := by
    rw [← hdrop, List.getElem?_drop, Array.getElem?_toList]
  have hafter : ∀ i, (s.tokens.toList.drop (first + 1))[i]? = s.tokens[first + i + 1]? := by
    intro i
    rw [List.getElem?_drop, Array.getElem?_toList, Nat.add_right_comm]
  refine ⟨⟨last, brace⟩, ?_, hlast, hbrace⟩
  rw [hhead]
  refine ClassHead.ofTokens_eq_ok_of_first (hbefore.trans hlast) ((hafter _).trans hbrace) hkind
    fun i hi other hother hbraced => ?_
  have : first + distance + 1 ≤ first + i + 1 :=
    hleast ⟨by omega, other, (hafter i).symm.trans hother, hbraced⟩
  omega

/-- The search from the start of a class ends, after at most as many turns as there are tokens, and
it ends as the head does. The head ends with the first opening brace after the first token that
ends after the start of the class, and with the token right before that brace. Without such a brace
the last token of the text is reported, and without such a token the start of the class. -/
theorem head_found_by_search (hs : s.Addressable) (hstart : r.start ≠ nowhereOffset) :
    (∀ turns, s.tokens.size ≤ turns →
      (HeadSearch.turn s)^[turns] (HeadSearch.start s (Location.ofOffset r.start)) =
        .ended (r.head s)) ∧
    (s.endingAfter r.start = ∅ → r.head s = .error (.emptyToken r.start)) ∧
    ∀ first, IsLeast (s.endingAfter r.start) first →
      (∀ index, IsLeast (s.bracesAfter first) index → ∃ head, r.head s = .ok head ∧
        s.tokens[index - 1]? = some head.last ∧ s.tokens[index]? = some head.brace) ∧
      (s.bracesAfter first = ∅ → ∃ last, s.tokens.back? = some last ∧
        r.head s = .error (.emptyToken last.start)) :=
  ⟨fun _ => HeadSearch.turns_start hs r hstart, head_of_endingAfter_eq_empty hs.toInOrder,
    fun _ hfirst => ⟨fun _ => head_of_isLeast_bracesAfter hs.toInOrder hfirst,
      head_of_bracesAfter_eq_empty hs.toInOrder hfirst⟩⟩

end Record

/-- The start of a class after a pair of braces. -/
def openClass : Source where
  document := { text := "\x7b a \x7d class S final \x7b".toList }
  tokens := #[⟨.lBrace, 0, 1⟩, ⟨.identifier, 2, 1⟩, ⟨.rBrace, 4, 1⟩, ⟨.identifier, 6, 5⟩,
    ⟨.identifier, 12, 1⟩, ⟨.identifier, 14, 5⟩, ⟨.lBrace, 20, 1⟩]

/-- A class without members that starts at an offset. -/
def classAt (start : Nat) : Record where
  id := 0
  name := "S"
  qualifiedName := "S"
  key := .cls
  start := start
  close := start
  bases := []
  methods := []
  isDynamic := false

/-- The head is found from the blank before it on. From the brace on there is no other brace, and
past it there is no token. -/
theorem Record.head_found_by_search_openClass :
    openClass.Addressable ∧
      (HeadSearch.turn openClass)^[7] (HeadSearch.start openClass (some 5)) =
        .ended ((classAt 5).head openClass) ∧
      (classAt 5).head openClass = .ok ⟨⟨.identifier, 14, 5⟩, ⟨.lBrace, 20, 1⟩⟩ ∧
      (classAt 20).head openClass = .error (.emptyToken 20) ∧
      (classAt 21).head openClass = .error (.emptyToken 21) := by
  have hs : openClass.Addressable := ⟨⟨by decide, by decide⟩, by decide, by decide⟩
  have hkey : IsLeast (openClass.endingAfter 5) 3 :=
    Source.isLeast_endingAfter rfl (by decide) (by decide)
  have hopening : IsLeast (openClass.bracesAfter 3) 6 :=
    Source.isLeast_bracesAfter (by decide) rfl rfl (by decide)
  have hbrace : IsLeast (openClass.endingAfter 20) 6 :=
    Source.isLeast_endingAfter rfl (by decide) (by decide)
  have hno_brace : openClass.bracesAfter 6 = ∅ := by
    refine Set.eq_empty_iff_forall_notMem.2 fun index ⟨hlt, token, htoken, _⟩ => ?_
    have : index < 7 := (Array.getElem?_eq_some_iff.1 htoken).1
    omega
  have hno_token : openClass.endingAfter 21 = ∅ := by
    refine Set.eq_empty_iff_forall_notMem.2 fun index ⟨token, htoken, hstop⟩ => ?_
    have : ∀ token ∈ openClass.tokens, ¬ 21 < token.stop := by decide
    exact this token (Array.mem_of_getElem? htoken) hstop
  obtain ⟨hsearch, -, hfound⟩ := Record.head_found_by_search (r := classAt 5) hs (by decide)
  obtain ⟨head, hhead, hlast, hopens⟩ := (hfound 3 hkey).1 6 hopening
  obtain ⟨-, -, hfound'⟩ := Record.head_found_by_search (r := classAt 20) hs (by decide)
  obtain ⟨last, hback, herror⟩ := (hfound' 6 hbrace).2 hno_brace
  obtain rfl : _ = last := Option.some.inj hback
  obtain rfl : head = ⟨⟨.identifier, 14, 5⟩, ⟨.lBrace, 20, 1⟩⟩ := by
    cases head
    cases hlast
    cases hopens
    rfl
  exact ⟨hs, hsearch 7 (by decide), hhead, herror,
    (Record.head_found_by_search (r := classAt 21) hs (by decide)).2.1 hno_token⟩

end ClassEdit
