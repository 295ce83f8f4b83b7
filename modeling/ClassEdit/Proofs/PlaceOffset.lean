import ClassEdit.Proofs.ClassBody
import ClassEdit.Proofs.TokenLookup

/-!
# Offsets of places

The place for new public members is found in one of three ways, and each of them looks at the rest
of a line: after the semicolon of a member, after a label, or after a brace. The offset is then the
start of the next line, or else the end of what was looked at.

## Main definitions

* `Text.lineEnd?`: the offset of the newline that ends the line of an offset.
* `Text.nextLine`: the start of the next line, if it is close enough.

## Main statements

* `findPublicPlace_eq_ok`: the three ways to find a place.
* `Record.head_eq_ok`, `Record.exists_head`: the end of the head, and that it is not past the body.
* `offsetAfterMember_eq_ok`, `LabelMatch.IsIn.offsetAfterLabel_eq`, `offsetAfterBrace_eq_ok`: the
  offsets.
-/

namespace ClassEdit

theorem exists_of_bind_eq_ok {ε α β : Type} {x : Except ε α} {f : α → Except ε β} {b : β}
    (h : x >>= f = .ok b) : ∃ a, x = .ok a ∧ f a = .ok b := by
  cases x with
  | error e => cases h
  | ok a => exact ⟨a, rfl, h⟩

theorem mapError_eq_ok {ε δ α : Type} {f : ε → δ} {x : Except ε α} {a : α} :
    x.mapError f = .ok a ↔ x = .ok a := by
  cases x <;> simp [Except.mapError]

/-! ## Ends of lines -/

namespace Text

variable {text xs ys zs : List Char} {offset n : Nat}

/-- The offset of the first newline at or after `offset`. -/
def lineEnd? (text : List Char) (offset : Nat) : Option Nat := do
  let rest ← dropBytes? text offset
  let newline ← newlineOffset? rest
  return offset + newline

theorem lineEnd?_append (xs ys : List Char) :
    lineEnd? (xs ++ ys) (byteLength xs) = (newlineOffset? ys).map (byteLength xs + ·) := by
  have hrest : dropBytes? (xs ++ ys) (byteLength xs) = some ys :=
    dropBytes?_eq_some_iff.2 ⟨xs, rfl, rfl⟩
  rw [lineEnd?, hrest, Option.map_eq_bind]
  rfl

/-- The end of a line divides the text into what is before the offset, a part without newlines, the
newline and the rest. -/
theorem lineEnd?_eq_some_iff :
    lineEnd? text offset = some n ↔ ∃ xs ys zs, text = xs ++ ys ++ '\n' :: zs ∧ '\n' ∉ ys ∧
      byteLength xs = offset ∧ byteLength (xs ++ ys) = n := by
  constructor
  · intro h
    obtain ⟨rest, hrest, h⟩ := Option.bind_eq_some_iff.1 h
    obtain ⟨k, hk, h⟩ := Option.bind_eq_some_iff.1 h
    obtain ⟨xs, rfl, rfl⟩ := dropBytes?_eq_some_iff.1 hrest
    obtain ⟨ys, zs, rfl, hys, rfl⟩ := newlineOffset?_eq_some_iff.1 hk
    obtain rfl := Option.some.inj h
    exact ⟨xs, ys, zs, by simp, hys, rfl, by simp⟩
  · rintro ⟨xs, ys, zs, rfl, hys, rfl, rfl⟩
    rw [List.append_assoc, lineEnd?_append, newlineOffset?_eq_some_iff.2 ⟨ys, zs, rfl, hys, rfl⟩]
    simp

theorem le_of_lineEnd? (h : lineEnd? text offset = some n) : offset ≤ n := by
  obtain ⟨xs, ys, zs, rfl, -, rfl, rfl⟩ := lineEnd?_eq_some_iff.1 h
  simp

/-- A line does not end inside of a part without newlines. -/
theorem le_lineEnd?_of_slice? {stop : Nat} (hpart : slice? text offset stop = some ys)
    (hline : '\n' ∉ ys) (h : lineEnd? text offset = some n) : stop ≤ n := by
  obtain ⟨xs, zs, rfl, rfl, rfl⟩ := slice?_eq_some_iff.1 hpart
  rw [List.append_assoc, lineEnd?_append, newlineOffset?_append] at h
  have hnone : newlineOffset? ys = none := by
    cases hys : newlineOffset? ys with
    | none => rfl
    | some k =>
      obtain ⟨u, v, rfl, -, -⟩ := newlineOffset?_eq_some_iff.1 hys
      simp at hline
  rw [hnone, Option.none_or, Option.map_map] at h
  obtain ⟨k, -, rfl⟩ := Option.map_eq_some_iff.1 h
  simp

/-- A line starts after the end of a line. -/
theorem isBoundary_of_lineEnd? (h : lineEnd? text offset = some n) : IsBoundary text (n + 1) := by
  obtain ⟨xs, ys, zs, rfl, -, -, rfl⟩ := lineEnd?_eq_some_iff.1 h
  have := isBoundary_append (xs ++ ys ++ ['\n']) zs
  simpa [utf8Size_newline, Nat.add_assoc] using this

/-- The start of the line after `anchor`, if the line ends before `limit`; `otherwise` if not. -/
def nextLine (text : List Char) (anchor limit otherwise : Nat) : Nat :=
  match lineEnd? text anchor with
  | some n => if n < limit then n + 1 else otherwise
  | none => otherwise

theorem le_nextLine {bound anchor limit otherwise : Nat} (hanchor : bound ≤ anchor)
    (hotherwise : bound ≤ otherwise) : bound ≤ nextLine text anchor limit otherwise := by
  unfold nextLine
  split
  case h_1 n hn =>
    have := le_of_lineEnd? hn
    split_ifs <;> omega
  case h_2 => exact hotherwise

theorem nextLine_le {anchor limit otherwise : Nat} (h : otherwise ≤ limit) :
    nextLine text anchor limit otherwise ≤ limit := by
  unfold nextLine
  split
  · split_ifs <;> omega
  · exact h

theorem isBoundary_nextLine {anchor limit otherwise : Nat} (h : IsBoundary text otherwise) :
    IsBoundary text (nextLine text anchor limit otherwise) := by
  unfold nextLine
  split
  case h_1 n hn =>
    split_ifs
    · exact isBoundary_of_lineEnd? hn
    · exact h
  case h_2 => exact h

/-- Looking for the end of the line in the part before `limit` only is enough. -/
theorem nextLine_of_slice? {anchor limit : Nat} (h : slice? text anchor limit = some ys) :
    nextLine text anchor limit limit =
      match newlineOffset? ys with
      | some k => anchor + k + 1
      | none => limit := by
  obtain ⟨xs, zs, rfl, rfl, rfl⟩ := slice?_eq_some_iff.1 h
  rw [nextLine, List.append_assoc, lineEnd?_append, newlineOffset?_append]
  cases hys : newlineOffset? ys with
  | some k =>
    obtain ⟨u, v, rfl, -, rfl⟩ := newlineOffset?_eq_some_iff.1 hys
    simp [utf8Size_newline]
  | none =>
    cases newlineOffset? zs with
    | none => rfl
    | some k =>
      have hlimit : ¬ byteLength xs + (byteLength ys + k) < byteLength xs + byteLength ys := by
        omega
      exact if_neg hlimit

/-- Only blanks stand between the offset and the newline that ends its line. -/
def EndsBlank (text : List Char) (offset newline : Nat) : Prop :=
  ∃ before blanks after, text = before ++ blanks ++ '\n' :: after ∧ byteLength before = offset ∧
    byteLength (before ++ blanks) = newline ∧ '\n' ∉ blanks ∧ ∀ c ∈ blanks, isBlank c = true

theorem EndsBlank.lineEnd? {newline : Nat} (h : EndsBlank text offset newline) :
    lineEnd? text offset = some newline := by
  obtain ⟨before, blanks, after, htext, hbefore, hnewline, hline, -⟩ := h
  exact lineEnd?_eq_some_iff.2 ⟨before, blanks, after, htext, hline, hbefore, hnewline⟩

theorem takeWhile_ne_newline {line after : List Char} (h : '\n' ∉ line) :
    (line ++ '\n' :: after).takeWhile (· ≠ '\n') = line := by
  rw [List.takeWhile_append_of_pos (by simpa using fun c hc => ne_of_mem_of_not_mem hc h)]
  simp

end Text

/-! ## The head -/

namespace ClassHead

/-- The head ends in two tokens that follow each other. The brace is not past any other brace. -/
theorem ofTokens_eq_ok {last : Token} {tokens : List Token} {head : ClassHead}
    (h : ofTokens last tokens = .ok head) :
    head.brace.kind = .lBrace ∧ ∃ before rest,
      last :: tokens = before ++ head.last :: head.brace :: rest ∧
      ∀ token ∈ tokens, token.kind = .lBrace → token ∈ head.brace :: rest := by
  induction tokens generalizing last with
  | nil => cases h
  | cons token tokens ih =>
    rw [ofTokens] at h
    split_ifs at h with hkind
    · obtain rfl := Except.ok.inj h
      exact ⟨hkind, [], tokens, rfl, fun _ hin _ => hin⟩
    · obtain ⟨hbrace, before, rest, hsplit, hfirst⟩ := ih h
      refine ⟨hbrace, last :: before, rest, by rw [hsplit]; rfl, fun other hin hother => ?_⟩
      obtain rfl | hin := List.mem_cons.1 hin
      · exact absurd hother hkind
      · exact hfirst other hin hother

theorem exists_ofTokens (last : Token) {tokens : List Token} {brace : Token}
    (hbrace : brace ∈ tokens) (hkind : brace.kind = .lBrace) :
    ∃ head, ofTokens last tokens = .ok head := by
  induction tokens generalizing last with
  | nil => cases hbrace
  | cons token tokens ih =>
    rw [ofTokens]
    split_ifs with htoken
    · exact ⟨_, rfl⟩
    · exact ih token ((List.mem_cons.1 hbrace).resolve_left fun heq => htoken (heq ▸ hkind))

end ClassHead

variable {source : Source} {record : Record} {head : ClassHead}

namespace Record

theorem head_eq_ok (h : record.head source = .ok head) :
    head.brace.kind = .lBrace ∧ ∃ before rest,
      source.tokens.toList = before ++ head.last :: head.brace :: rest := by
  rw [Record.head] at h
  split at h
  case h_1 => cases h
  case h_2 first rest hfrom =>
    obtain ⟨hkind, before, after, hsplit, -⟩ := ClassHead.ofTokens_eq_ok h
    refine ⟨hkind, source.tokens.toList.take (source.indexAt record.start) ++ before, after, ?_⟩
    rw [List.append_assoc, ← hsplit, ← hfrom, Source.tokensFrom, List.take_append_drop]

/-- With a token between the start of the class and a brace, the head is found, and it is not past
that brace. -/
theorem exists_head (hlexed : source.Lexed) {token brace : Token}
    (htoken : token ∈ source.tokens.toList) (hstart : record.start ≤ token.start)
    (hbrace : brace ∈ source.tokens.toList) (hkind : brace.kind = .lBrace)
    (hbefore : token.stop ≤ brace.start) :
    ∃ head, record.head source = .ok head ∧ head.brace.start ≤ brace.start := by
  have htoken_lt := hlexed.nonempty token htoken
  have hbrace_lt := hlexed.nonempty brace hbrace
  have hmem : ∀ x ∈ source.tokens.toList, record.start < x.stop →
      x ∈ source.tokensFrom record.start := by
    intro x hx hstop
    rw [hlexed.tokensFrom_eq_filter]
    exact List.mem_filter.2 ⟨hx, by simpa using hstop⟩
  have htoken_mem := hmem token htoken (by omega)
  have hbrace_mem := hmem brace hbrace (by omega)
  have hordered : (source.tokensFrom record.start).Pairwise Token.Before := by
    rw [hlexed.tokensFrom_eq_filter]
    exact hlexed.pairwise.filter _
  cases hfrom : source.tokensFrom record.start with
  | nil => simp [hfrom] at hbrace_mem
  | cons first rest =>
    rw [hfrom] at htoken_mem hbrace_mem hordered
    -- The brace has the token before it, so the walk does not start with it.
    have hrest : brace ∈ rest := by
      obtain rfl | hrest := List.mem_cons.1 hbrace_mem
      · obtain rfl | hin := List.mem_cons.1 htoken_mem
        · omega
        · have : brace.stop ≤ token.start := (List.pairwise_cons.1 hordered).1 token hin
          omega
      · exact hrest
    obtain ⟨head, hhead⟩ := ClassHead.exists_ofTokens first hrest hkind
    have hfound : record.head source = .ok head := by rw [Record.head, hfrom]; exact hhead
    obtain ⟨-, before, after, hsplit, hfirst⟩ := ClassHead.ofTokens_eq_ok hhead
    refine ⟨head, hfound, ?_⟩
    obtain rfl | hlater := List.mem_cons.1 (hfirst brace hrest hkind)
    · exact Nat.le_refl _
    · obtain ⟨-, xs, ys, hall⟩ := head_eq_ok hfound
      have hhead_lt := hlexed.nonempty head.brace (by simp [hall])
      rw [hsplit, List.pairwise_append, List.pairwise_cons, List.pairwise_cons] at hordered
      have : head.brace.stop ≤ brace.start := hordered.2.1.2.1 brace hlater
      omega

end Record

/-! ## After a member -/

/-- The offset to which the semicolons at the start of a row of tokens are skipped: that of the
first token that is no semicolon, or of the last token looked at if at most `budget` tokens may be
looked at; `offset` if there is none. -/
def skipRow : (budget offset : Nat) → List Token → Nat
  | 0, offset, _ => offset
  | _ + 1, offset, [] => offset
  | budget + 1, _, token :: rest =>
    if token.kind = .semi then skipRow budget token.start rest else token.start

/-- Where the tokens are in order, each is looked for from the one before it and found, so the loop
over semicolons goes along the row of tokens. -/
theorem skipSemicolons_eq_skipRow (h : source.InOrder) {before after : List Token} {token : Token}
    (hsplit : source.tokens.toList = before ++ token :: after) (budget : Nat) :
    skipSemicolons source budget token.start = skipRow budget token.start after := by
  induction budget generalizing before token after with
  | zero => rfl
  | succ budget ih =>
    rw [skipSemicolons, (h.tokenAt?_start hsplit).2]
    cases after with
    | nil => rfl
    | cons next after =>
      rw [List.head?_cons, skipRow]
      dsimp only
      rw [ih (hsplit.trans (List.append_cons before token (next :: after)))]

/-- The tokens that are skipped are semicolons. -/
theorem skipRow_spec (budget : Nat) (first : Token) (rest : List Token)
    (hfirst : first.kind = .semi) :
    ∃ skipped next later, first :: rest = skipped ++ next :: later ∧
      (∀ token ∈ skipped, token.kind = .semi) ∧
      skipRow budget first.start rest = next.start := by
  induction rest generalizing budget first with
  | nil => exact ⟨[], first, [], rfl, by simp, by cases budget <;> rfl⟩
  | cons token rest ih =>
    cases budget with
    | zero => exact ⟨[], first, token :: rest, rfl, by simp, rfl⟩
    | succ budget =>
      rw [skipRow]
      split_ifs with hkind
      · obtain ⟨skipped, next, later, hsplit, hsemi, hstop⟩ := ih budget token hkind
        exact ⟨first :: skipped, next, later, by rw [hsplit]; rfl, by simpa [hfirst] using hsemi,
          hstop⟩
      · exact ⟨[first], token, rest, rfl, by simpa using hfirst, rfl⟩

/-- The token up to which the line after a member is looked at. -/
def tokenAfterMember (first : Token) (rest : List Token) : Nat :=
  if first.kind = .semi then skipRow maxSkippedSemicolons first.start rest else first.start

theorem tokenAfterMember_spec (first : Token) (rest : List Token) :
    ∃ skipped next later, first :: rest = skipped ++ next :: later ∧
      (∀ token ∈ skipped, token.kind = .semi) ∧ tokenAfterMember first rest = next.start := by
  unfold tokenAfterMember
  split_ifs with hkind
  · exact skipRow_spec maxSkippedSemicolons first rest hkind
  · exact ⟨[], first, rest, rfl, by simp, rfl⟩

theorem offsetAfterMember_of_nil (h : source.InOrder) (content : List Char) {before : List Token}
    {last : Token} (hsplit : source.tokens.toList = before ++ [last]) :
    offsetAfterMember content source last.start = .ok last.start := by
  rw [offsetAfterMember, (h.tokenAt?_start hsplit).2]
  rfl

theorem offsetAfterMember_of_cons (h : source.InOrder) (content : List Char)
    {before rest : List Token} {last first : Token}
    (hsplit : source.tokens.toList = before ++ last :: first :: rest) :
    offsetAfterMember content source last.start =
      lineAfter content first.start (tokenAfterMember first rest) := by
  have hfirst := hsplit.trans (List.append_cons before last (first :: rest))
  rw [offsetAfterMember, (h.tokenAt?_start hsplit).2, List.head?_cons, tokenAfterMember,
    ← skipSemicolons_eq_skipRow h hfirst]

theorem lineAfter_eq_ok {text : List Char} {start stop offset : Nat}
    (h : lineAfter text start stop = .ok offset) :
    offset = Text.nextLine text start stop stop := by
  rw [lineAfter] at h
  split at h
  case h_1 => cases h
  case h_2 between hbetween =>
    rw [Text.nextLine_of_slice? hbetween]
    cases hnewline : Text.newlineOffset? between with
    | some k => simpa [hnewline] using h.symm
    | none => simpa [hnewline] using h.symm

/-- The offset after a member whose last token is `last`. -/
theorem offsetAfterMember_eq_ok (hlexed : source.Lexed) {before after : List Token} {last : Token}
    {offset : Nat} (hsplit : source.tokens.toList = before ++ last :: after)
    (h : offsetAfterMember source.text source last.start = .ok offset) :
    (after = [] ∧ offset = last.start) ∨ ∃ first rest, after = first :: rest ∧
      offset = Text.nextLine source.text first.start (tokenAfterMember first rest)
        (tokenAfterMember first rest) := by
  cases after with
  | nil =>
    rw [offsetAfterMember_of_nil hlexed.toInOrder _ hsplit] at h
    exact .inl ⟨rfl, (Except.ok.inj h).symm⟩
  | cons first rest =>
    rw [offsetAfterMember_of_cons hlexed.toInOrder _ hsplit] at h
    exact .inr ⟨first, rest, rfl, lineAfter_eq_ok h⟩

/-- Only semicolons lie between a member and the offset after it. -/
theorem semi_of_stop_le_offset (hlexed : source.Lexed) {before after : List Token}
    {last token : Token} {offset : Nat} (hsplit : source.tokens.toList = before ++ last :: after)
    (h : offsetAfterMember source.text source last.start = .ok offset)
    (htoken : token ∈ source.tokens.toList) (hstart : last.start < token.start)
    (hstop : token.stop ≤ offset) : token.kind = .semi := by
  have hnonempty := hlexed.nonempty token htoken
  obtain ⟨-, rfl⟩ | ⟨first, rest, rfl, rfl⟩ := offsetAfterMember_eq_ok hlexed hsplit h
  · omega
  · obtain ⟨skipped, next, later, hnext, hsemi, heq⟩ := tokenAfterMember_spec first rest
    have hlast := hlexed.nonempty last (by simp [hsplit])
    have hpair := hlexed.pairwise
    rw [hnext] at hsplit
    rw [hsplit] at htoken hpair
    have hle := @Text.nextLine_le source.text first.start (tokenAfterMember first rest) _
      (Nat.le_refl _)
    obtain htoken | htoken := List.mem_append.1 htoken
    · have : token.stop ≤ last.start :=
        (List.pairwise_append.1 hpair).2.2 token htoken last List.mem_cons_self
      omega
    obtain rfl | htoken := List.mem_cons.1 htoken
    · omega
    obtain htoken | htoken := List.mem_append.1 htoken
    · exact hsemi token htoken
    obtain rfl | htoken := List.mem_cons.1 htoken
    · omega
    · have hafter : source.tokens.toList = (before ++ last :: skipped) ++ next :: later := by
        simp [hsplit]
      have := hlexed.stop_le_start hafter htoken
      have := hlexed.nonempty next (by simp [hafter])
      omega

/-! ## After a label -/

/-- The label is a part of the text: the keyword, blanks and a colon. -/
def LabelMatch.IsIn (label : LabelMatch) (text : List Char) : Prop :=
  ∃ before blanks, text = before ++ ("public".toList ++ blanks ++ [':']) ++ label.after ∧
    (∀ c ∈ blanks, Text.isBlank c = true) ∧ Text.byteLength before = label.start ∧
    Text.byteLength (before ++ ("public".toList ++ blanks ++ [':'])) = label.stop

theorem isIn_of_labelAt? {before cs : List Char} {label : LabelMatch}
    (h : labelAt? (Text.byteLength before) cs = some label) : label.IsIn (before ++ cs) := by
  obtain ⟨rest, hrest, h⟩ := Option.bind_eq_some_iff.1 h
  rw [Text.stripStart?] at hrest
  split_ifs at hrest with hstart
  obtain rfl := Option.some.inj hrest
  split at h
  case h_2 => cases h
  case h_1 after hafter =>
    obtain rfl := Option.some.inj h
    obtain ⟨rest, rfl⟩ := List.isPrefixOf_iff_prefix.1 hstart
    rw [List.drop_left] at hafter
    have hrest : rest = rest.takeWhile Text.isBlank ++ ':' :: after := by
      rw [← hafter, List.takeWhile_append_dropWhile]
    have hblank : ∀ c ∈ rest.takeWhile Text.isBlank, Text.isBlank c = true :=
      fun c hc => List.mem_takeWhile_imp hc
    generalize rest.takeWhile Text.isBlank = blanks at hrest hblank
    subst hrest
    refine ⟨before, blanks, by simp, hblank, rfl, ?_⟩
    simp only [Text.byteLength_append, Text.byteLength_cons, Text.byteLength_nil]
    omega

theorem isIn_of_mem_publicLabelsFrom {previous : Option Char} {before cs : List Char}
    {label : LabelMatch}
    (h : label ∈ publicLabelsFrom previous (Text.byteLength before) cs) :
    label.IsIn (before ++ cs) := by
  induction cs generalizing previous before with
  | nil => cases h
  | cons c cs ih =>
    have hrest : label ∈ publicLabelsFrom (some c) (Text.byteLength before + c.utf8Size) cs →
        label.IsIn (before ++ c :: cs) := by
      intro h
      have := @ih (some c) (before ++ [c]) (by simpa using h)
      simpa using this
    rw [publicLabelsFrom] at h
    split_ifs at h
    · exact hrest h
    · split at h
      case h_1 found hfound =>
        obtain rfl | h := List.mem_cons.1 h
        · exact isIn_of_labelAt? hfound
        · exact hrest h
      case h_2 => exact hrest h

theorem isIn_of_mem_publicLabels {text : List Char} {label : LabelMatch}
    (h : label ∈ publicLabels text) : label.IsIn text :=
  @isIn_of_mem_publicLabelsFrom none [] text label h

namespace LabelMatch.IsIn

variable {text : List Char} {label : LabelMatch}

theorem start_lt_stop (h : label.IsIn text) : label.start < label.stop := by
  obtain ⟨before, blanks, -, -, hstart, hstop⟩ := h
  rw [← hstart, ← hstop]
  have := ':'.utf8Size_pos
  simp
  omega

theorem isBoundary_stop (h : label.IsIn text) : Text.IsBoundary text label.stop := by
  obtain ⟨before, blanks, rfl, -, -, hstop⟩ := h
  rw [← hstop]
  exact Text.isBoundary_append _ _

/-- The offset after a label is the start of the next line, unless the class is closed before. -/
theorem offsetAfterLabel_eq (h : label.IsIn text) :
    offsetAfterLabel record label = Text.nextLine text label.stop record.close label.stop := by
  obtain ⟨before, blanks, rfl, -, -, hstop⟩ := h
  rw [offsetAfterLabel, Text.nextLine, ← hstop, Text.lineEnd?_append]
  cases Text.newlineOffset? label.after <;> rfl

end LabelMatch.IsIn

/-- A label of a body starts with a token, after the brace and before the class is closed. -/
theorem of_isLabelOf {brace : Token} {label : LabelMatch}
    (h : isLabelOf record source brace label = true) :
    brace.stop ≤ label.start ∧ ∃ token ∈ source.tokens.toList, token.start = label.start := by
  simp only [isLabelOf, isInBody, Bool.and_eq_true, decide_eq_true_eq] at h
  obtain ⟨⟨⟨⟨-, hbrace⟩, -⟩, -⟩, htoken, -⟩ := h
  refine ⟨hbrace, ?_⟩
  obtain ⟨token, htoken, hstart⟩ := (Option.any_eq_true _ _).1 htoken
  exact ⟨token, Array.mem_def.1 (Array.mem_of_getElem? htoken), by simpa using hstart⟩

/-! ## After a brace -/

/-- The offset after a brace is its end, or the start of the next line if only blanks are left of
the line. -/
theorem offsetAfterBrace_eq_ok {text : List Char} {brace : Token} {offset : Nat}
    (h : offsetAfterBrace text brace = .ok offset) :
    Text.IsBoundary text brace.stop ∧ (offset = brace.stop ∨
      ∃ newline, Text.EndsBlank text brace.stop newline ∧ offset = newline + 1) := by
  rw [offsetAfterBrace] at h
  split at h
  case h_1 => cases h
  case h_2 rest hrest =>
    obtain ⟨before, rfl, hbefore⟩ := Text.dropBytes?_eq_some_iff.1 hrest
    refine ⟨hbefore ▸ Text.isBoundary_append before rest, ?_⟩
    split at h
    case h_2 => exact .inl (Except.ok.inj h).symm
    case h_1 newline hnewline =>
      obtain ⟨line, after, rfl, hline, rfl⟩ := Text.newlineOffset?_eq_some_iff.1 hnewline
      rw [Text.takeWhile_ne_newline hline] at h
      split_ifs at h with hblank
      · rw [List.isEmpty_iff, Text.trim_eq_nil_iff] at hblank
        refine .inr ⟨_, ⟨before, line, after, by simp, hbefore, rfl, hline, hblank⟩, ?_⟩
        rw [Text.byteLength_append, hbefore]
        exact (Except.ok.inj h).symm
      · exact .inl (Except.ok.inj h).symm

theorem offsetAfterBrace_of_endsBlank {text : List Char} {brace : Token} {newline : Nat}
    (h : Text.EndsBlank text brace.stop newline) :
    offsetAfterBrace text brace = .ok (newline + 1) := by
  obtain ⟨before, blanks, after, rfl, hbefore, rfl, hline, hblank⟩ := h
  have hrest : Text.dropBytes? (before ++ blanks ++ '\n' :: after) brace.stop =
      some (blanks ++ '\n' :: after) :=
    Text.dropBytes?_eq_some_iff.2 ⟨before, by simp, hbefore⟩
  have hnewline : Text.newlineOffset? (blanks ++ '\n' :: after) = some (Text.byteLength blanks) :=
    Text.newlineOffset?_eq_some_iff.2 ⟨blanks, after, rfl, hline, rfl⟩
  have hempty : (Text.trim blanks).isEmpty = true := by
    rw [List.isEmpty_iff, Text.trim_eq_nil_iff]
    exact hblank
  simp only [offsetAfterBrace, hrest, hnewline, Text.takeWhile_ne_newline hline, hempty, if_true,
    Text.byteLength_append, hbefore]

/-! ## The place -/

/-- The three ways to find a place: after a member function, after a label, after a brace. -/
theorem findPublicPlace_eq_ok {text : List Char} {place : PublicPlace}
    (h : findPublicPlace text record source = .ok place) :
    (∃ method, record.lastPublicMethod? = some method ∧
      offsetAfterMember text source method.last = .ok place.offset ∧ place.needsLabel = false) ∨
    (record.lastPublicMethod? = none ∧ ∃ head, record.head source = .ok head ∧
      ((∃ label, (publicLabels text).find? (isLabelOf record source head.brace) = some label ∧
          place = ⟨offsetAfterLabel record label, false⟩) ∨
        ((publicLabels text).find? (isLabelOf record source head.brace) = none ∧
          offsetAfterBrace text head.brace = .ok place.offset ∧
          place.needsLabel = decide (record.key ≠ .struct)))) := by
  rw [findPublicPlace] at h
  split at h
  case h_1 method hmethod =>
    obtain ⟨offset, hoffset, h⟩ := exists_of_bind_eq_ok h
    obtain rfl := Except.ok.inj h
    exact .inl ⟨method, hmethod, hoffset, rfl⟩
  case h_2 hmethod =>
    obtain ⟨head, hhead, h⟩ := exists_of_bind_eq_ok h
    refine .inr ⟨hmethod, head, hhead, ?_⟩
    split at h
    case h_1 label hlabel =>
      exact .inl ⟨label, hlabel, (Except.ok.inj h).symm⟩
    case h_2 hnone =>
      obtain ⟨offset, hoffset, h⟩ := exists_of_bind_eq_ok h
      obtain rfl := Except.ok.inj h
      exact .inr ⟨hnone, hoffset, rfl⟩

end ClassEdit
