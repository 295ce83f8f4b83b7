import ClassEdit.Proofs.PlaceOffset

/-!
# Complete classes

The head of a class and its body are looked for in different ways: the head among the tokens, the
body in the tree. In a complete class the two agree as far as needed. The brace that ends the head
is not past the one that opens the body, and the member function after which new ones go is
declared in the body by some tokens.

## Main definitions

* `IsCompleteClass`: a class of a well-formed tree, with its complete definition.

## Main statements

* `IsCompleteClass.exists_braces`: the labels and members of the body stand between its braces.
* `IsCompleteClass.exists_declaration`: the declaration that a place after a member follows.
* `IsCompleteClass.isBoundary_offset`, `IsCompleteClass.brace_stop_le_offset`: a place is a position
  of the text that is not in the head.
-/

namespace ClassEdit

/-- A class of a well-formed tree and its definition, which is complete. -/
structure IsCompleteClass (document : Document) (tree : Tree) (hasErrors : Bool) (id : RecordId)
    (definition : RecordSource) (record : Record) : Prop where
  wellFormed : tree.WellFormed document.text
  defines : (definitions document tree)[id]? = some definition
  complete : definition.IsComplete (Source.ofTree document tree) (memberNames document tree) id
  reads : (TranslationUnit.ofTree document tree hasErrors).records[id]? = some record

namespace IsCompleteClass

variable {document : Document} {tree : Tree} {hasErrors : Bool} {id : RecordId}
  {definition : RecordSource} {record : Record}

theorem lexed (h : IsCompleteClass document tree hasErrors id definition record) :
    (Source.ofTree document tree).Lexed :=
  Source.lexed_ofTree h.wellFormed

theorem exists_eq_read (h : IsCompleteClass document tree hasErrors id definition record) :
    ∃ bases isDynamic, record = (definition.read (Source.ofTree document tree)
      (memberNames document tree) id bases).complete isDynamic := by
  obtain ⟨found, isDynamic, hfound, rfl⟩ := TranslationUnit.exists_definition h.reads
  obtain rfl : definition = found := Option.some.inj (h.defines.symm.trans hfound)
  exact ⟨_, isDynamic, rfl⟩

theorem key_eq (h : IsCompleteClass document tree hasErrors id definition record) :
    record.key = definition.key := by
  obtain ⟨bases, isDynamic, rfl⟩ := h.exists_eq_read
  rfl

theorem start_eq (h : IsCompleteClass document tree hasErrors id definition record) :
    record.start = definition.tree.root.start := by
  obtain ⟨bases, isDynamic, rfl⟩ := h.exists_eq_read
  rfl

theorem body_mem_nodes (h : IsCompleteClass document tree hasErrors id definition record) :
    definition.body ∈ tree.nodes := by
  obtain ⟨htree, hbody⟩ := mem_nodes_of_mem_definitions (List.mem_of_getElem? h.defines)
  exact Tree.nodes_trans (Tree.mem_nodes_of_mem_children hbody) htree

/-- The head of the class is found, and ends at the brace that opens the body or before. -/
theorem exists_head (h : IsCompleteClass document tree hasErrors id definition record)
    {opening : Tree} (hfirst : opening ∈ definition.body.children)
    (hbrace : (Source.ofTree document tree).HasToken .lBrace opening) :
    ∃ head, record.head (Source.ofTree document tree) = .ok head ∧
      head.brace.stop ≤ opening.root.stop := by
  have hbody := (h.wellFormed.of_mem_nodes h.body_mem_nodes).1
  have hstart := (hbody.of_mem_children hfirst).2.1
  obtain ⟨brace, hbrace, hkind, hbstart, hbstop⟩ := hbrace
  obtain ⟨key, hkey, hfirst, hlast⟩ := h.complete.head
  rw [← h.start_eq] at hfirst
  obtain ⟨head, hhead, hle⟩ := Record.exists_head h.lexed hkey hfirst hbrace hkind (by omega)
  obtain ⟨-, before, rest, htokens⟩ := Record.head_eq_ok hhead
  refine ⟨head, hhead, ?_⟩
  rw [← hbstop]
  exact h.lexed.stop_le_stop (by simp [htokens]) hbrace hle

/-- The head ends before the labels and members of the body, and these end before the brace that
closes the body. -/
theorem exists_braces (h : IsCompleteClass document tree hasErrors id definition record) :
    ∃ head closing, record.head (Source.ofTree document tree) = .ok head ∧
      definition.body.children.getLast? = some closing ∧
      (Source.ofTree document tree).HasToken .rBrace closing ∧
      head.brace.stop ≤ closing.root.start ∧
      Reading definition.key.defaultAccess head.brace.stop closing.root.start
        (definition.labels (Source.ofTree document tree))
        (readBlock (RecordSource.labelOf (Source.ofTree document tree))
          (fun access t => [(access, t)]) definition.key.defaultAccess definition.body) := by
  have hbody := (h.wellFormed.of_mem_nodes h.body_mem_nodes).1
  obtain ⟨opening, row, closing, hchildren, hfirst, hlast, hread⟩ :=
    h.complete.exists_braces h.lexed hbody
  obtain ⟨head, hhead, hle⟩ := h.exists_head (by simp [hchildren]) hfirst
  have hpair := hbody.pairwise_children
  rw [hchildren, List.pairwise_cons] at hpair
  have hbetween : opening.root.stop ≤ closing.root.start := hpair.1 closing (by simp)
  refine ⟨head, closing, hhead, ?_, hlast, hle.trans hbetween, hread.widen hle (Nat.le_refl _)⟩
  rw [hchildren, ← List.cons_append, List.getLast?_concat]

/-- The member function after which new ones go is declared in the body. Its last token is followed
by the semicolons of the declaration. -/
theorem exists_declaration (h : IsCompleteClass document tree hasErrors id definition record)
    {method : Method} (hmethod : record.lastPublicMethod? = some method) :
    ∃ t before last after, (Access.pub, t) ∈ definition.members (Source.ofTree document tree) ∧
      (Source.ofTree document tree).tokens.toList = before ++ last :: after ∧
      method.last = last.start ∧ t.root.start ≤ last.start ∧ last.start < t.root.stop ∧
      ∀ token ∈ after, token.start < t.root.stop → token.kind = .semi := by
  obtain ⟨bases, isDynamic, rfl⟩ := h.exists_eq_read
  obtain ⟨t, ht, hmethods, hlast⟩ := exists_member_of_lastPublicMethod? hmethod
  obtain ⟨before, last, after, hsplit, hbounds, hstart, hstop, hsemi⟩ :=
    Context.tokenBounds_spec ⟨_, memberNames document tree, definition.name :: definition.scope⟩ t
      h.lexed (h.complete.declared _ ht hmethods)
  exact ⟨t, before, last, after, ht, hsplit, hlast.trans hbounds, hstart, hstop, hsemi⟩

/-! ## Places -/

variable {place : PublicPlace}

/-- A place after a member function is not before the token that ends it, and is the start of a
token or of a line. -/
theorem offset_of_member (h : IsCompleteClass document tree hasErrors id definition record)
    {before after : List Token} {last : Token} {offset : Nat}
    (hsplit : (Source.ofTree document tree).tokens.toList = before ++ last :: after)
    (hoffset : offsetAfterMember document.text (Source.ofTree document tree) last.start =
      .ok offset) :
    last.start ≤ offset ∧ Text.IsBoundary document.text offset := by
  obtain ⟨-, rfl⟩ | ⟨first, rest, rfl, rfl⟩ := offsetAfterMember_eq_ok h.lexed hsplit hoffset
  · exact ⟨Nat.le_refl _, h.lexed.isBoundary_start (by simp [hsplit])⟩
  · obtain ⟨skipped, next, later, hnext, -, heq⟩ := tokenAfterMember_spec first rest
    have hmem : next ∈ first :: rest := by simp [hnext]
    have hnonempty := h.lexed.nonempty last (by simp [hsplit])
    have hfirst := h.lexed.stop_le_start hsplit (List.mem_cons_self (l := rest))
    have hlater := h.lexed.stop_le_start hsplit hmem
    rw [heq]
    refine ⟨Text.le_nextLine (by omega) (by omega), Text.isBoundary_nextLine ?_⟩
    exact h.lexed.isBoundary_start (by simp [hsplit, hmem])

/-- A place is a position of the text. -/
theorem isBoundary_offset (h : IsCompleteClass document tree hasErrors id definition record)
    (hplace : findPublicPlace document.text record (Source.ofTree document tree) = .ok place) :
    Text.IsBoundary document.text place.offset := by
  obtain ⟨method, hmethod, hoffset, -⟩ | ⟨-, head, -, ⟨label, hlabel, rfl⟩ | ⟨-, hoffset, -⟩⟩ :=
    findPublicPlace_eq_ok hplace
  · obtain ⟨t, before, last, after, -, hsplit, hlast, -⟩ := h.exists_declaration hmethod
    exact (h.offset_of_member hsplit (hlast ▸ hoffset)).2
  · have hin := isIn_of_mem_publicLabels (List.mem_of_find?_eq_some hlabel)
    simp only [hin.offsetAfterLabel_eq]
    exact Text.isBoundary_nextLine hin.isBoundary_stop
  · obtain ⟨hstop, heq | ⟨newline, hblank, heq⟩⟩ := offsetAfterBrace_eq_ok hoffset
    · rwa [heq]
    · rw [heq]
      exact Text.isBoundary_of_lineEnd? hblank.lineEnd?

/-- A place is not in the head. -/
theorem brace_stop_le_offset (h : IsCompleteClass document tree hasErrors id definition record)
    (hplace : findPublicPlace document.text record (Source.ofTree document tree) = .ok place)
    {head : ClassHead} (hhead : record.head (Source.ofTree document tree) = .ok head) :
    head.brace.stop ≤ place.offset := by
  obtain ⟨method, hmethod, hoffset, -⟩ | ⟨-, found, hfound, hplaced⟩ :=
    findPublicPlace_eq_ok hplace
  · obtain ⟨t, before, last, after, ht, hsplit, hlast, hstart, -⟩ := h.exists_declaration hmethod
    obtain ⟨found, closing, hfound, -, -, -, hread⟩ := h.exists_braces
    obtain rfl := Except.ok.inj (hhead.symm.trans hfound)
    obtain ⟨-, -, -, -, -, -, hbody, -⟩ := hread.members _ ht
    calc head.brace.stop ≤ t.root.start := hbody
      _ ≤ last.start := hstart
      _ ≤ place.offset := (h.offset_of_member hsplit (hlast ▸ hoffset)).1
  · obtain rfl := Except.ok.inj (hhead.symm.trans hfound)
    obtain ⟨label, hlabel, rfl⟩ | ⟨-, hoffset, -⟩ := hplaced
    · have hin := isIn_of_mem_publicLabels (List.mem_of_find?_eq_some hlabel)
      have hbrace := (of_isLabelOf (List.find?_some hlabel)).1
      have hlabel := hin.start_lt_stop
      simp only [hin.offsetAfterLabel_eq]
      exact Text.le_nextLine (by omega) (by omega)
    · obtain ⟨-, heq | ⟨newline, hblank, heq⟩⟩ := offsetAfterBrace_eq_ok hoffset
      · exact heq.ge
      · have := Text.le_of_lineEnd? hblank.lineEnd?
        omega

end IsCompleteClass

end ClassEdit
