import ClassEdit.Proofs.CompleteClass

/-!
# Places between the braces

A place for new members lies between the brace that ends the head of the class and the brace that
closes its body. The three ways to find a place do not look for the closing brace, but none of them
gets past it: it is no semicolon, no part of a label, and not blank.

## Main statements

* `RecordSource.closeOffset_eq`: a class is closed by the last child of its body.
* `offset_le_close_of_member`, `LabelMatch.IsIn.stop_le_close`, `offset_le_close_of_brace`: the
  three ways to find a place stop at the closing brace.
* `findPublicPlace_between_braces`: a place is between the braces.
-/

namespace ClassEdit

/-! ## The closing brace -/

variable {document : Document} {tree : Tree}

/-- The last token that starts in a body is the one of its last child. -/
theorem RecordSource.closeOffset_eq {r : RecordSource} {closing : Tree} {kind : TokenKind}
    (hwf : tree.WellFormed document.text) (hbody : r.body ∈ tree.nodes)
    (hclosing : r.body.children.getLast? = some closing)
    (hbrace : (Source.ofTree document tree).HasToken kind closing) :
    r.closeOffset (Source.ofTree document tree) = closing.root.start := by
  have hlexed := Source.lexed_ofTree hwf
  obtain ⟨brace, hbrace, -, hstart, hstop⟩ := hbrace
  have hnonempty := hlexed.nonempty brace hbrace
  obtain ⟨-, hlow, hhigh⟩ :=
    (hwf.of_mem_nodes hbody).1.of_mem_children (List.mem_of_getLast? hclosing)
  have hmem : brace ∈ (Source.ofTree document tree).tokensIn r.body.range :=
    hlexed.mem_tokensIn_iff.2 ⟨hbrace, by omega, by omega⟩
  obtain ⟨front, last, hsplit⟩ := (List.eq_nil_or_concat' _).resolve_left (List.ne_nil_of_mem hmem)
  have hlast : last ∈ (Source.ofTree document tree).tokensIn r.body.range := by simp [hsplit]
  obtain ⟨hlast, -, hin⟩ := hlexed.mem_tokensIn_iff.1 hlast
  rw [RecordSource.closeOffset, hsplit, List.getLast?_concat, ← hstart]
  rw [hsplit] at hmem
  obtain hmem | hmem := List.mem_append.1 hmem
  · -- A token after the brace would start in the body and after its last child.
    have hpair := hlexed.pairwise_tokensIn r.body
    rw [hsplit, List.pairwise_append] at hpair
    have hafter : brace.stop ≤ last.start := hpair.2.2 brace hmem last List.mem_cons_self
    obtain ⟨leaf, hleaf, hread⟩ := Source.mem_tokens_ofTree.1 hlast
    obtain ⟨-, -, -, -, -, hlstart, hlstop⟩ := Token.ofLeaf?_eq_some hread
    have hshows := hlexed.nonempty last hlast
    have := hwf.start_lt_stop_of_last hbody hclosing (by omega) hleaf (by omega) (by omega)
    omega
  · obtain rfl := List.mem_singleton.1 hmem
    rfl

variable {hasErrors : Bool} {id : RecordId} {definition : RecordSource} {record : Record}
  {place : PublicPlace}

namespace IsCompleteClass

theorem close_eq (h : IsCompleteClass document tree hasErrors id definition record)
    {closing : Tree} (hclosing : definition.body.children.getLast? = some closing)
    (hbrace : (Source.ofTree document tree).HasToken .rBrace closing) :
    record.close = closing.root.start := by
  obtain ⟨bases, isDynamic, rfl⟩ := h.exists_eq_read
  exact RecordSource.closeOffset_eq h.wellFormed h.body_mem_nodes hclosing hbrace

/-- A text without braces that does not start after the class is closed ends before that. -/
theorem byteLength_le_close (h : IsCompleteClass document tree hasErrors id definition record)
    {before part after : List Char} (htext : document.text = before ++ part ++ after)
    (hpart : '}' ∉ part) (hbefore : Text.byteLength before ≤ record.close) :
    Text.byteLength (before ++ part) ≤ record.close := by
  obtain ⟨-, closing, -, hclosing, hbrace, -⟩ := h.exists_braces
  have hclose := h.close_eq hclosing hbrace
  obtain ⟨brace, hbrace, hkind, hstart, -⟩ := hbrace
  obtain ⟨text, hslice, hmark⟩ := h.lexed.text brace hbrace
  obtain rfl : text = ['}'] := hmark _ (by rw [hkind]; rfl)
  have hslice : Text.slice? document.text brace.start brace.stop = some ['}'] := hslice
  rw [htext, hstart, ← hclose] at hslice
  exact Text.byteLength_le_of_slice? hslice hpart hbefore

end IsCompleteClass

/-! ## The three ways to find a place -/

/-- The semicolons after a member function end before any other token. -/
theorem offset_le_of_member {source : Source} (hlexed : source.Lexed) {before after : List Token}
    {last token : Token} {offset : Nat} (hsplit : source.tokens.toList = before ++ last :: after)
    (hoffset : offsetAfterMember source.text source last.start = .ok offset)
    (htoken : token ∈ after) (hkind : token.kind ≠ .semi) : offset ≤ token.start := by
  obtain ⟨rfl, -⟩ | ⟨first, rest, rfl, rfl⟩ := offsetAfterMember_eq_ok hlexed hsplit hoffset
  · cases htoken
  obtain ⟨skipped, next, later, hnext, hsemi, heq⟩ := tokenAfterMember_spec first rest
  refine (Text.nextLine_le (Nat.le_refl _)).trans ?_
  rw [heq]
  rw [hnext] at hsplit htoken
  obtain htoken | htoken := List.mem_append.1 htoken
  · exact absurd (hsemi token htoken) hkind
  obtain rfl | htoken := List.mem_cons.1 htoken
  · exact Nat.le_refl _
  · have hafter : source.tokens.toList = (before ++ last :: skipped) ++ next :: later := by
      simp [hsplit]
    have := hlexed.stop_le_start hafter htoken
    have := hlexed.nonempty next (by simp [hafter])
    omega

/-- The brace that closes the body is one of the tokens after a declaration of the body. -/
theorem IsCompleteClass.exists_closing_after
    (h : IsCompleteClass document tree hasErrors id definition record) {access : Access} {t : Tree}
    {before after : List Token} {last : Token}
    (ht : (access, t) ∈ definition.members (Source.ofTree document tree))
    (hsplit : (Source.ofTree document tree).tokens.toList = before ++ last :: after)
    (hstop : last.start < t.root.stop) :
    ∃ brace ∈ after, brace.kind = .rBrace ∧ brace.start = record.close := by
  obtain ⟨_, closing, -, hclosing, hbrace, -, hread⟩ := h.exists_braces
  rw [h.close_eq hclosing hbrace]
  obtain ⟨brace, hbrace, hkind, hstart, -⟩ := hbrace
  obtain ⟨-, -, -, -, -, -, -, hbefore⟩ := hread.members _ ht
  refine ⟨brace, ?_, hkind, hstart⟩
  -- The declaration ends before the brace, so the brace is not among the tokens up to `last`.
  have hpair := h.lexed.pairwise
  have hlast := h.lexed.nonempty last (by simp [hsplit])
  have hnonempty := h.lexed.nonempty brace hbrace
  rw [hsplit] at hbrace hpair
  obtain hbrace | hbrace := List.mem_append.1 hbrace
  · have : brace.stop ≤ last.start :=
      (List.pairwise_append.1 hpair).2.2 brace hbrace last List.mem_cons_self
    simp at hbefore
    omega
  obtain rfl | hbrace := List.mem_cons.1 hbrace
  · simp at hbefore
    omega
  · exact hbrace

theorem offset_le_close_of_member
    (h : IsCompleteClass document tree hasErrors id definition record) {method : Method}
    {offset : Nat} (hmethod : record.lastPublicMethod? = some method)
    (hoffset : offsetAfterMember document.text (Source.ofTree document tree) method.last =
      .ok offset) : offset ≤ record.close := by
  obtain ⟨t, before, last, after, ht, hsplit, hlast, -, hstop, -⟩ := h.exists_declaration hmethod
  obtain ⟨brace, hafter, hkind, hstart⟩ := h.exists_closing_after ht hsplit hstop
  rw [← hstart]
  exact offset_le_of_member h.lexed hsplit (hlast ▸ hoffset) hafter (by simp [hkind])

theorem start_lt_close_of_isLabelOf {source : Source} {brace : Token} {label : LabelMatch}
    (h : isLabelOf record source brace label = true) : label.start < record.close := by
  simp only [isLabelOf, Bool.and_eq_true, decide_eq_true_eq] at h
  exact h.1.1.2

/-- A label that starts before the class is closed ends before that. -/
theorem LabelMatch.IsIn.stop_le_close
    (h : IsCompleteClass document tree hasErrors id definition record) {label : LabelMatch}
    (hlabel : label.IsIn document.text) (hlt : label.start < record.close) :
    label.stop ≤ record.close := by
  obtain ⟨before, blanks, htext, hblanks, hstart, hstop⟩ := hlabel
  rw [← hstop]
  refine h.byteLength_le_close htext ?_ (by omega)
  simp only [List.mem_append, not_or]
  refine ⟨⟨by decide, fun hblank => ?_⟩, by decide⟩
  exact absurd (hblanks _ hblank) (by decide)

theorem offset_le_close_of_brace
    (h : IsCompleteClass document tree hasErrors id definition record) {head : ClassHead}
    {offset : Nat} (hhead : record.head (Source.ofTree document tree) = .ok head)
    (hoffset : offsetAfterBrace document.text head.brace = .ok offset) :
    offset ≤ record.close := by
  obtain ⟨found, closing, hfound, hclosing, hbrace, hle, -⟩ := h.exists_braces
  obtain rfl := Except.ok.inj (hhead.symm.trans hfound)
  rw [← h.close_eq hclosing hbrace] at hle
  obtain ⟨-, rfl | ⟨newline, ⟨before, blanks, after, htext, hbefore, rfl, -, hblank⟩, rfl⟩⟩ :=
    offsetAfterBrace_eq_ok hoffset
  · exact hle
  · have hline : '}' ∉ blanks ++ ['\n'] := by
      simp only [List.mem_append, not_or]
      exact ⟨fun hin => absurd (hblank _ hin) (by decide), by decide⟩
    have htext : document.text = before ++ (blanks ++ ['\n']) ++ after := by simpa using htext
    have := h.byteLength_le_close htext hline (by omega)
    simpa [Text.utf8Size_newline, Nat.add_assoc] using this

/-! ## The place -/

/-- A place is between the braces: not before the end of the brace that ends the head, and not after
the start of the brace that closes the body, which is where the class is closed. -/
theorem findPublicPlace_between_braces
    (h : IsCompleteClass document tree hasErrors id definition record)
    (hplace : findPublicPlace document.text record (Source.ofTree document tree) = .ok place) :
    ∃ head closing, record.head (Source.ofTree document tree) = .ok head ∧
      definition.body.children.getLast? = some closing ∧ record.close = closing.root.start ∧
      head.brace.stop ≤ place.offset ∧ place.offset ≤ record.close := by
  obtain ⟨head, closing, hhead, hclosing, hbrace, -⟩ := h.exists_braces
  refine ⟨head, closing, hhead, hclosing, h.close_eq hclosing hbrace,
    h.brace_stop_le_offset hplace hhead, ?_⟩
  obtain ⟨method, hmethod, hoffset, -⟩ | ⟨-, found, hfound, ⟨label, hlabel, rfl⟩ |
    ⟨-, hoffset, -⟩⟩ := findPublicPlace_eq_ok hplace
  · exact offset_le_close_of_member h hmethod hoffset
  · have hin := isIn_of_mem_publicLabels (List.mem_of_find?_eq_some hlabel)
    have hstop := hin.stop_le_close h (start_lt_close_of_isLabelOf (List.find?_some hlabel))
    simp only [hin.offsetAfterLabel_eq]
    exact Text.nextLine_le hstop
  · exact offset_le_close_of_brace h hfound hoffset

/-! ## Semicolons up to the closing brace -/

/-- A class whose closing brace follows the semicolons of its member function. -/
def emptyDeclaration : Document where
  text := "struct S \x7b void a();; \x7d;\n".toList

/-- The body of the class in `emptyDeclaration`. -/
def emptyDeclarationBody : Tree :=
  .node ⟨.other, some .body, 9, 23, true, false⟩
    [.terminal 9 10,
      .node ⟨.fieldDeclaration, none, 11, 20, true, false⟩
        [.node ⟨.primitiveType, some .type, 11, 15, true, false⟩ [],
          .node ⟨.functionDeclarator, some .declarator, 16, 19, true, false⟩
            [.node ⟨.fieldIdentifier, some .declarator, 16, 17, true, false⟩ [],
              .node ⟨.other, some .parameters, 17, 19, true, false⟩
                [.terminal 17 18, .terminal 18 19]],
          .terminal 19 20],
      .terminal 20 21, .terminal 22 23]

/-- The class in `emptyDeclaration`. -/
def emptyDeclarationDefinition : RecordSource where
  tree := .node ⟨.structSpecifier, none, 0, 23, true, false⟩
    [.terminal 0 6, .node ⟨.typeIdentifier, some .name, 7, 8, true, false⟩ [],
      emptyDeclarationBody]
  body := emptyDeclarationBody
  scope := []
  name := "S"

/-- The tree of `emptyDeclaration`. -/
def emptyDeclarationTree : Tree :=
  .node ⟨.other, none, 0, 25, true, false⟩ [emptyDeclarationDefinition.tree, .terminal 23 24]

/-- The place is right before the closing brace. -/
theorem findPublicPlace_emptyDeclaration :
    ∃ record, IsCompleteClass emptyDeclaration emptyDeclarationTree false 0
        emptyDeclarationDefinition record ∧
      findPublicPlace emptyDeclaration.text record
        (Source.ofTree emptyDeclaration emptyDeclarationTree) = .ok ⟨22, false⟩ ∧
      ∃ head closing,
        record.head (Source.ofTree emptyDeclaration emptyDeclarationTree) = .ok head ∧
        emptyDeclarationBody.children.getLast? = some closing ∧
        record.close = closing.root.start ∧ head.brace.stop ≤ 22 ∧ 22 ≤ record.close := by
  have hrun : ((TranslationUnit.ofTree emptyDeclaration emptyDeclarationTree false).records[0]?.map
      fun record => findPublicPlace emptyDeclaration.text record
        (Source.ofTree emptyDeclaration emptyDeclarationTree)) = some (.ok ⟨22, false⟩) := by
    decide +kernel
  obtain ⟨record, hrecord, hplace⟩ := Option.map_eq_some_iff.1 hrun
  have hcomplete : IsCompleteClass emptyDeclaration emptyDeclarationTree false 0
      emptyDeclarationDefinition record := ⟨by decide +kernel, rfl, by decide +kernel, hrecord⟩
  exact ⟨record, hcomplete, hplace, findPublicPlace_between_braces hcomplete hplace⟩

end ClassEdit
