import ClassEdit.Proofs.CompleteClass

/-!
# Places inside of tokens and comments

The search for a place goes from token to token, but it looks for the end of a line character by
character. Where it ends at a token the place is not inside of anything. Where it ends at the start
of a line, a token or comment that was begun on the line before may still go on there, and the
place is inside of it.

## Main definitions

* `pieces`: the tokens and comments of a text.
* `ScansText`: the search for a place reads a part of the text by characters.

## Main statements

* `not_around_of_isTokenEdge`: the ends of tokens are not inside of tokens or comments.
* `ScansText.offset_eq`, `isTokenEdge_or_scansText`: a place is the end of a token, or the end of
  what was read by characters.
* `exists_piece_around_place_iff`: when a place is inside of a token or comment.
-/

namespace ClassEdit

/-! ## Tokens and comments -/

/-- A part of a text. -/
structure Piece where
  start : Nat
  stop : Nat
deriving DecidableEq

/-- The offset is inside of the piece. -/
def Piece.Around (p : Piece) (offset : Nat) : Prop :=
  p.start < offset ∧ offset < p.stop

instance (p : Piece) (offset : Nat) : Decidable (p.Around offset) :=
  inferInstanceAs (Decidable (p.start < offset ∧ offset < p.stop))

/-- The tokens and comments of a text. -/
def pieces (document : Document) (tree : Tree) : List Piece :=
  ((Source.ofTree document tree).tokens.toList.map fun token => ⟨token.start, token.stop⟩) ++
    (tree.nodes.filter (·.kind = .comment)).map fun comment =>
      ⟨comment.root.start, comment.root.stop⟩

/-- Nothing is below a comment, which is a terminal of the grammar. -/
def Tree.CommentsAreChildless (t : Tree) : Prop :=
  ∀ comment ∈ t.nodes, comment.kind = .comment → comment.children = []

instance (t : Tree) : Decidable t.CommentsAreChildless :=
  inferInstanceAs (Decidable (∀ comment ∈ t.nodes, comment.kind = .comment → comment.children = []))

/-- A token starts or ends at the offset. -/
def Source.IsTokenEdge (s : Source) (offset : Nat) : Prop :=
  ∃ token ∈ s.tokens.toList, offset = token.start ∨ offset = token.stop

variable {document : Document} {tree : Tree}

/-- A piece is apart from a token or inside of it. -/
theorem piece_apart_or_within (hwf : tree.WellFormed document.text)
    (hcomments : tree.CommentsAreChildless) {p : Piece} (hp : p ∈ pieces document tree)
    {token : Token} (htoken : token ∈ (Source.ofTree document tree).tokens.toList) :
    p.stop ≤ token.start ∨ token.stop ≤ p.start ∨ token.start ≤ p.start ∧ p.stop ≤ token.stop := by
  obtain hp | hp := List.mem_append.1 hp
  · obtain ⟨other, hother, rfl⟩ := List.mem_map.1 hp
    obtain rfl | hbefore | hafter := (Source.lexed_ofTree hwf).eq_or_before hother htoken
    · exact .inr (.inr ⟨Nat.le_refl _, Nat.le_refl _⟩)
    · exact .inl hbefore
    · exact .inr (.inl hafter)
  · obtain ⟨comment, hcomment, rfl⟩ := List.mem_map.1 hp
    obtain ⟨hnode, hkind⟩ := List.mem_filter.1 hcomment
    obtain ⟨leaf, hleaf, hread⟩ := Source.mem_tokens_ofTree.1 htoken
    obtain ⟨-, -, -, -, -, hstart, hstop⟩ := Token.ofLeaf?_eq_some hread
    rw [hstart, hstop]
    obtain hin | hbefore | hafter := hwf.mem_nodes_or_before hnode
      (hcomments comment hnode (by simpa using hkind)) hleaf
    · exact .inr (.inr ((hwf.of_mem_leaves hleaf).1.of_mem_nodes hin).2)
    · exact .inl hbefore
    · exact .inr (.inl hafter)

/-- The ends of tokens are not inside of tokens or comments. -/
theorem not_around_of_isTokenEdge (hwf : tree.WellFormed document.text)
    (hcomments : tree.CommentsAreChildless) {p : Piece} (hp : p ∈ pieces document tree)
    {offset : Nat} (hedge : (Source.ofTree document tree).IsTokenEdge offset) :
    ¬ p.Around offset := by
  rintro ⟨hstart, hstop⟩
  obtain ⟨token, htoken, hoffset⟩ := hedge
  have hnonempty := (Source.lexed_ofTree hwf).nonempty token htoken
  have := piece_apart_or_within hwf hcomments hp htoken
  omega

/-! ## Text that is read by characters -/

/-- The search for a place reads the text from `anchor` to `offset` by characters: what follows a
member function up to the next line, a label and what follows it, or the blanks after a brace. -/
inductive ScansText (record : Record) (source : Source) : (anchor offset : Nat) → Prop where
  | member {method : Method} {first : Token} {rest : List Token} {newline : Nat}
      (hmethod : record.lastPublicMethod? = some method)
      (htokens : (source.tokensFrom method.last).drop 1 = first :: rest)
      (hnewline : Text.lineEnd? source.text first.start = some newline)
      (hbefore : newline < tokenAfterMember first rest) :
      ScansText record source first.start (newline + 1)
  | label {head : ClassHead} {label : LabelMatch}
      (hmethod : record.lastPublicMethod? = none) (hhead : record.head source = .ok head)
      (hlabel : (publicLabels source.text).find? (isLabelOf record source head.brace) =
        some label) :
      ScansText record source label.start (offsetAfterLabel record label)
  | brace {head : ClassHead} {newline : Nat}
      (hmethod : record.lastPublicMethod? = none) (hhead : record.head source = .ok head)
      (hlabel : (publicLabels source.text).find? (isLabelOf record source head.brace) = none)
      (hblank : Text.EndsBlank source.text head.brace.stop newline) :
      ScansText record source head.brace.stop (newline + 1)

variable {hasErrors : Bool} {id : RecordId} {definition : RecordSource} {record : Record}
  {place : PublicPlace}

/-- Text that is read by characters ends at the place. -/
theorem ScansText.offset_eq (h : IsCompleteClass document tree hasErrors id definition record)
    (hplace : findPublicPlace document.text record (Source.ofTree document tree) = .ok place)
    {anchor offset : Nat} (hscan : ScansText record (Source.ofTree document tree) anchor offset) :
    place.offset = offset := by
  obtain ⟨method, hmethod, hoffset, -⟩ | ⟨hmethod, head, hhead, hfound⟩ :=
    findPublicPlace_eq_ok hplace
  · obtain ⟨-, before, last, after, -, hsplit, hlast, -⟩ := h.exists_declaration hmethod
    cases hscan with
    | member hmethod' htokens hnewline hbefore =>
      obtain rfl := Option.some.inj (hmethod.symm.trans hmethod')
      rw [hlast, h.lexed.tokensFrom_start hsplit, List.drop_one, List.tail_cons] at htokens
      subst htokens
      obtain ⟨hnil, -⟩ | ⟨first, rest, heq, hoffset⟩ :=
        offsetAfterMember_eq_ok h.lexed hsplit (hlast ▸ hoffset)
      · cases hnil
      · obtain ⟨rfl, rfl⟩ := List.cons_eq_cons.1 heq
        rw [hoffset, Text.nextLine, hnewline]
        exact if_pos hbefore
    | label hmethod' | brace hmethod' => simp [hmethod] at hmethod'
  · cases hscan with
    | member hmethod' => simp [hmethod] at hmethod'
    | label _ hhead' hlabel =>
      obtain rfl := Except.ok.inj (hhead.symm.trans hhead')
      obtain ⟨label, hlabel', rfl⟩ | ⟨hnone, -⟩ := hfound
      · obtain rfl := Option.some.inj (hlabel'.symm.trans hlabel)
        rfl
      · cases hnone.symm.trans hlabel
    | brace _ hhead' hnone hblank =>
      obtain rfl := Except.ok.inj (hhead.symm.trans hhead')
      obtain ⟨label, hlabel, -⟩ | ⟨-, hoffset, -⟩ := hfound
      · cases hnone.symm.trans hlabel
      · exact Except.ok.inj (hoffset.symm.trans (offsetAfterBrace_of_endsBlank hblank))

/-- A place is the end of a token, or the end of text that was read by characters from the end of a
token on. -/
theorem isTokenEdge_or_scansText
    (h : IsCompleteClass document tree hasErrors id definition record)
    (hplace : findPublicPlace document.text record (Source.ofTree document tree) = .ok place) :
    (Source.ofTree document tree).IsTokenEdge place.offset ∨
      ∃ anchor, ScansText record (Source.ofTree document tree) anchor place.offset ∧
        anchor ≤ place.offset ∧ (Source.ofTree document tree).IsTokenEdge anchor := by
  obtain ⟨method, hmethod, hoffset, -⟩ | ⟨hmethod, head, hhead, ⟨label, hlabel, rfl⟩ |
    ⟨hnone, hoffset, -⟩⟩ := findPublicPlace_eq_ok hplace
  · obtain ⟨-, before, last, after, -, hsplit, hlast, -⟩ := h.exists_declaration hmethod
    have htokens := h.lexed.tokensFrom_start hsplit
    rw [← hlast] at htokens
    obtain ⟨-, heq⟩ | ⟨first, rest, rfl, heq⟩ :=
      offsetAfterMember_eq_ok h.lexed hsplit (hlast ▸ hoffset)
    · exact .inl ⟨last, by simp [hsplit], .inl heq⟩
    · obtain ⟨skipped, next, later, hnext, -, hstop⟩ := tokenAfterMember_spec first rest
      have hedge : (Source.ofTree document tree).IsTokenEdge (tokenAfterMember first rest) :=
        ⟨next, by simp [hsplit, hnext], .inl hstop⟩
      unfold Text.nextLine at heq
      split at heq
      case h_1 newline hnewline =>
        split_ifs at heq with hbefore
        · have := Text.le_of_lineEnd? hnewline
          rw [heq]
          exact .inr ⟨first.start, .member hmethod (by rw [htokens]; rfl) hnewline hbefore,
            by omega, first, by simp [hsplit], .inl rfl⟩
        · exact .inl (heq ▸ hedge)
      case h_2 => exact .inl (heq ▸ hedge)
  · have hin := isIn_of_mem_publicLabels (List.mem_of_find?_eq_some hlabel)
    obtain ⟨-, token, htoken, hstart⟩ := of_isLabelOf (List.find?_some hlabel)
    have hlt := hin.start_lt_stop
    refine .inr ⟨label.start, .label hmethod hhead hlabel, ?_, token, htoken, .inl hstart.symm⟩
    rw [hin.offsetAfterLabel_eq]
    exact Text.le_nextLine hlt.le hlt.le
  · obtain ⟨-, before, rest, hsplit⟩ := Record.head_eq_ok hhead
    have hedge : (Source.ofTree document tree).IsTokenEdge head.brace.stop :=
      ⟨head.brace, by simp [hsplit], .inr rfl⟩
    obtain ⟨-, heq | ⟨newline, hblank, heq⟩⟩ := offsetAfterBrace_eq_ok hoffset
    · exact .inl (heq ▸ hedge)
    · have := Text.le_of_lineEnd? hblank.lineEnd?
      rw [heq]
      exact .inr ⟨head.brace.stop, .brace hmethod hhead hnone hblank, by omega, hedge⟩

/-! ## The place -/

/-- A place is inside of a token or comment exactly if such a piece begins in text that was read by
characters and goes on past its end. -/
theorem exists_piece_around_place_iff
    (h : IsCompleteClass document tree hasErrors id definition record)
    (hcomments : tree.CommentsAreChildless)
    (hplace : findPublicPlace document.text record (Source.ofTree document tree) = .ok place) :
    (∃ p ∈ pieces document tree, p.Around place.offset) ↔
      ∃ anchor offset, ScansText record (Source.ofTree document tree) anchor offset ∧
        ∃ p ∈ pieces document tree, anchor ≤ p.start ∧ p.Around offset := by
  constructor
  · rintro ⟨p, hp, haround⟩
    obtain hedge | ⟨anchor, hscan, hle, hedge⟩ := isTokenEdge_or_scansText h hplace
    · exact absurd haround (not_around_of_isTokenEdge h.wellFormed hcomments hp hedge)
    · have hanchor := not_around_of_isTokenEdge h.wellFormed hcomments hp hedge
      refine ⟨anchor, place.offset, hscan, p, hp, ?_, haround⟩
      unfold Piece.Around at hanchor haround
      omega
  · rintro ⟨anchor, offset, hscan, p, hp, -, haround⟩
    rw [hscan.offset_eq h hplace]
    exact ⟨p, hp, haround⟩

/-! ## A comment after a member function -/

/-- A class with a comment that starts on the line of a member function and ends on the next. -/
def longComment : Document where
  text := "struct A \x7b\n  void f(); /* one\n  two */\n\x7d;\n".toList

/-- The body of the class in `longComment`. -/
def longCommentBody : Tree :=
  .node ⟨.other, some .body, 9, 40, true, false⟩
    [.terminal 9 10,
      .node ⟨.fieldDeclaration, none, 13, 22, true, false⟩
        [.node ⟨.primitiveType, some .type, 13, 17, true, false⟩ [],
          .node ⟨.functionDeclarator, some .declarator, 18, 21, true, false⟩
            [.node ⟨.fieldIdentifier, some .declarator, 18, 19, true, false⟩ [],
              .node ⟨.other, some .parameters, 19, 21, true, false⟩
                [.terminal 19 20, .terminal 20 21]],
          .terminal 21 22],
      .node ⟨.comment, none, 23, 38, true, false⟩ [], .terminal 39 40]

/-- The class in `longComment`. -/
def longCommentDefinition : RecordSource where
  tree := .node ⟨.structSpecifier, none, 0, 40, true, false⟩
    [.terminal 0 6, .node ⟨.typeIdentifier, some .name, 7, 8, true, false⟩ [], longCommentBody]
  body := longCommentBody
  scope := []
  name := "A"

/-- The tree of `longComment`. -/
def longCommentTree : Tree :=
  .node ⟨.other, none, 0, 42, true, false⟩ [longCommentDefinition.tree, .terminal 40 41]

/-- The place is inside of the comment, which begins in text that was read by characters. -/
theorem findPublicPlace_longComment :
    ∃ record, IsCompleteClass longComment longCommentTree false 0 longCommentDefinition record ∧
      longCommentTree.CommentsAreChildless ∧
      findPublicPlace longComment.text record (Source.ofTree longComment longCommentTree) =
        .ok ⟨30, false⟩ ∧
      Piece.mk 23 38 ∈ pieces longComment longCommentTree ∧ (Piece.mk 23 38).Around 30 ∧
      ∃ anchor offset, ScansText record (Source.ofTree longComment longCommentTree) anchor offset ∧
        ∃ p ∈ pieces longComment longCommentTree, anchor ≤ p.start ∧ p.Around offset := by
  have hrun : ((TranslationUnit.ofTree longComment longCommentTree false).records[0]?.map
      fun record => findPublicPlace longComment.text record
        (Source.ofTree longComment longCommentTree)) = some (.ok ⟨30, false⟩) := by
    decide +kernel
  obtain ⟨record, hrecord, hplace⟩ := Option.map_eq_some_iff.1 hrun
  have hcomplete : IsCompleteClass longComment longCommentTree false 0 longCommentDefinition
      record := ⟨by decide +kernel, rfl, by decide +kernel, hrecord⟩
  have hcomments : longCommentTree.CommentsAreChildless := by decide +kernel
  have hpiece : Piece.mk 23 38 ∈ pieces longComment longCommentTree := by decide +kernel
  have haround : (Piece.mk 23 38).Around 30 := by decide
  exact ⟨record, hcomplete, hcomments, hplace, hpiece, haround,
    (exists_piece_around_place_iff hcomplete hcomments hplace).1 ⟨_, hpiece, haround⟩⟩

end ClassEdit
