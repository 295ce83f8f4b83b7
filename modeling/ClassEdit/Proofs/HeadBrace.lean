import ClassEdit.Proofs.PlaceOffset

/-!
# The brace that opens a body

The head of a class is walked by its tokens, up to the first opening brace after the class-key. The
body is a node of the tree, and it opens with a brace of its own. The walk ends there unless the
head has braces: an initializer list in a template argument or in an alignment is enough to end it
inside of the head, and what is inserted at the end of the head is then written there.

## Main definitions

* `RecordSource.headTokens`: the tokens of a class before its body.
* `ClassHead.EndsAt`: a head that ends where a body starts.

## Main statements

* `Source.token_inside_or_apart`: no token is across the start or the end of a class.
* `RecordSource.tokensFrom_eq`: the tokens from a class on are those of its head, the brace that
  opens its body, and others.
* `Record.head_endsAt_body_iff`: the heads that end at the body.
-/

namespace ClassEdit

/-- The tokens of a class before its body. -/
def RecordSource.headTokens (r : RecordSource) (source : Source) : List Token :=
  source.tokensIn (Range.ofOffsets r.tree.root.start r.body.root.start)

/-- The head ends at the body: its brace is the first token of the body, and its last token is the
one right before that. -/
structure ClassHead.EndsAt (head : ClassHead) (source : Source) (body : Tree) : Prop where
  opens : (source.tokensIn body.range).head? = some head.brace
  follows : ∃ before after, source.tokens.toList = before ++ head.last :: head.brace :: after

/-- The walk ends at a brace if and only if there is no other one on the way. -/
theorem ClassHead.ofTokens_brace_iff {brace : Token} (hbrace : brace.kind = .lBrace)
    {tokens : List Token} (hnew : brace ∉ tokens) (last : Token) (after : List Token) :
    (∃ head, ofTokens last (tokens ++ brace :: after) = .ok head ∧ head.brace = brace) ↔
      ∀ token ∈ tokens, token.kind ≠ .lBrace := by
  induction tokens generalizing last with
  | nil => simp [ofTokens, hbrace]
  | cons token tokens ih =>
    obtain ⟨hne, hnew⟩ := not_or.1 (List.mem_cons.not.1 hnew)
    rw [List.cons_append, ofTokens, List.forall_mem_cons]
    split_ifs with hkind
    · simp [hkind, Ne.symm hne]
    · simp [hkind, ih hnew token]

variable {document : Document} {tree : Tree}

/-- A token is inside of a node that has some token, or apart from the node. -/
theorem Source.token_inside_or_apart (hwf : tree.WellFormed document.text) {s : Tree}
    (hs : s ∈ tree.nodes) {inner token : Token}
    (hinner : inner ∈ (ofTree document tree).tokens.toList) (hstart : s.root.start ≤ inner.start)
    (hstop : inner.stop ≤ s.root.stop) (htoken : token ∈ (ofTree document tree).tokens.toList) :
    (s.root.start ≤ token.start ∧ token.stop ≤ s.root.stop) ∨
      token.stop ≤ s.root.start ∨ s.root.stop ≤ token.start := by
  have hlexed := lexed_ofTree hwf
  have hinner_lt := hlexed.nonempty inner hinner
  obtain ⟨leaf, hleaf, hread⟩ := mem_tokens_ofTree.1 htoken
  obtain ⟨-, -, -, -, -, htstart, htstop⟩ := Token.ofLeaf?_eq_some hread
  obtain hbelow | hinside | hbefore | hafter := hwf.nested_or_before hs hleaf
  · obtain ⟨-, hlow, hhigh⟩ := (hwf.of_mem_nodes hs).1.of_mem_leaves hbelow
    exact .inl (by omega)
  · -- A leaf around the node is the token that the node has.
    obtain ⟨-, hlow, hhigh⟩ := (hwf.of_mem_leaves hleaf).1.of_mem_nodes hinside
    obtain rfl | hapart := hlexed.eq_or_before hinner htoken
    · exact .inl ⟨hstart, hstop⟩
    · omega
  · exact .inr (.inr (htstart ▸ hbefore))
  · exact .inr (.inl (htstop ▸ hafter))

namespace RecordSource

variable {definition : RecordSource} {opening : Tree} {brace : Token}

/-- Before the brace that opens the body there are no tokens of the body. -/
theorem start_lt_of_stop_le (hwf : tree.WellFormed document.text)
    (hdefinition : definition ∈ definitions document tree)
    (hfirst : definition.body.children.head? = some opening)
    (hopening : opening.root.start < opening.root.stop) {token : Token}
    (htoken : token ∈ (Source.ofTree document tree).tokens.toList)
    (hbefore : token.stop ≤ opening.root.start) : token.start < definition.body.root.start := by
  obtain ⟨htree, hbody⟩ := mem_nodes_of_mem_definitions hdefinition
  have hnode := Tree.nodes_trans (Tree.mem_nodes_of_mem_children hbody) htree
  have hnonempty := (Source.lexed_ofTree hwf).nonempty token htoken
  obtain ⟨leaf, hleaf, hread⟩ := Source.mem_tokens_ofTree.1 htoken
  obtain ⟨-, -, -, -, -, hstart, hstop⟩ := Token.ofLeaf?_eq_some hread
  by_contra hin
  have := hwf.start_lt_stop_of_first hnode hfirst hopening hleaf (by omega) (by omega)
  omega

/-- The tokens from a class on are those of its head, the brace that opens its body, and tokens
after that. The brace is the first token of the body. -/
theorem tokensFrom_eq (hwf : tree.WellFormed document.text)
    (hdefinition : definition ∈ definitions document tree)
    (hfirst : definition.body.children.head? = some opening)
    (hbrace : brace ∈ (Source.ofTree document tree).tokens.toList)
    (hstart : brace.start = opening.root.start) (hstop : brace.stop = opening.root.stop) :
    ((Source.ofTree document tree).tokensIn definition.body.range).head? = some brace ∧
      ∃ after, (Source.ofTree document tree).tokensFrom definition.tree.root.start =
        definition.headTokens (Source.ofTree document tree) ++ brace :: after := by
  have hlexed := Source.lexed_ofTree hwf
  obtain ⟨htree, hbody⟩ := mem_nodes_of_mem_definitions hdefinition
  obtain ⟨htreeWf, -, -⟩ := hwf.of_mem_nodes htree
  obtain ⟨hbodyWf, htree_le, hle_tree⟩ := htreeWf.of_mem_children hbody
  obtain ⟨-, hbody_le, hle_body⟩ := hbodyWf.of_mem_children (List.mem_of_mem_head? hfirst)
  have hnonempty := hlexed.nonempty brace hbrace
  obtain ⟨before, after, hsplit⟩ := List.append_of_mem hbrace
  have hlater : ∀ token ∈ brace :: after, brace.start ≤ token.start := by
    intro token htoken
    obtain rfl | htoken := List.mem_cons.1 htoken
    · exact Nat.le_refl _
    · have := hlexed.stop_le_start hsplit htoken
      omega
  have hpair := hlexed.pairwise
  rw [hsplit, List.pairwise_append] at hpair
  have hearlier : ∀ token ∈ before, token.start < definition.body.root.start := by
    intro token htoken
    have hend : token.stop ≤ brace.start := hpair.2.2 token htoken brace List.mem_cons_self
    exact start_lt_of_stop_le hwf hdefinition hfirst (by omega) (by simp [hsplit, htoken])
      (hstart ▸ hend)
  constructor
  · rw [Tree.range, hlexed.tokensIn_eq_filter, hsplit, List.filter_append,
      List.filter_eq_nil_iff.2, List.nil_append, List.filter_cons_of_pos, List.head?_cons]
    · simp
      omega
    · intro token htoken
      have := hearlier token htoken
      simp
      omega
  · refine ⟨after, ?_⟩
    rw [headTokens, hlexed.tokensFrom_eq_filter, hlexed.tokensIn_eq_filter, hsplit,
      List.filter_append, List.filter_append]
    have hall : (brace :: after).filter
        (fun token => decide (definition.tree.root.start < token.stop)) = brace :: after := by
      refine List.filter_eq_self.2 fun token htoken => ?_
      have := hlater token htoken
      have := hlexed.nonempty token (by rw [hsplit]; exact List.mem_append_right _ htoken)
      simp
      omega
    have hnone : (brace :: after).filter (fun token =>
        decide (definition.tree.root.start ≤ token.start) &&
          decide (token.start < definition.body.root.start)) = [] := by
      refine List.filter_eq_nil_iff.2 fun token htoken => ?_
      have := hlater token htoken
      simp
      omega
    rw [hall, hnone, List.append_nil]
    congr 1
    -- A token before the brace is in the head or before the class.
    refine List.filter_congr fun token htoken => ?_
    have hmem : token ∈ (Source.ofTree document tree).tokens.toList := by simp [hsplit, htoken]
    have := hlexed.nonempty token hmem
    have := hearlier token htoken
    have := Source.token_inside_or_apart hwf htree hbrace (by omega) (by omega) hmem
    rw [← Bool.decide_and]
    exact decide_eq_decide.2 (by omega)

end RecordSource

/-- A class whose body opens with a brace has its head end at the body if and only if a token
stands before the body and no opening brace stands between the first such token and the body. -/
theorem Record.head_endsAt_body_iff {hasErrors : Bool} {id : RecordId}
    {definition : RecordSource} {record : Record} {opening : Tree}
    (hwf : tree.WellFormed document.text)
    (hdefines : (definitions document tree)[id]? = some definition)
    (hreads : (TranslationUnit.ofTree document tree hasErrors).records[id]? = some record)
    (hfirst : definition.body.children.head? = some opening)
    (hopening : (Source.ofTree document tree).HasToken .lBrace opening) :
    (∃ head, record.head (Source.ofTree document tree) = .ok head ∧
        head.EndsAt (Source.ofTree document tree) definition.body) ↔
      ∃ key rest, definition.headTokens (Source.ofTree document tree) = key :: rest ∧
        ∀ token ∈ rest, token.kind ≠ .lBrace := by
  have hlexed := Source.lexed_ofTree hwf
  obtain ⟨brace, hbrace, hkind, hstart, hstop⟩ := hopening
  obtain ⟨hbody, after, htokens⟩ := RecordSource.tokensFrom_eq hwf (List.mem_of_getElem? hdefines)
    hfirst hbrace hstart hstop
  have hrecord : record.start = definition.tree.root.start := by
    obtain ⟨found, isDynamic, hfound, rfl⟩ := TranslationUnit.exists_definition hreads
    obtain rfl : definition = found := Option.some.inj (hdefines.symm.trans hfound)
    rfl
  have hordered : (definition.headTokens (Source.ofTree document tree) ++
      brace :: after).Pairwise Token.Before := by
    rw [← htokens, hlexed.tokensFrom_eq_filter]
    exact hlexed.pairwise.filter _
  have hwalk : ∀ first rest,
      definition.headTokens (Source.ofTree document tree) ++ brace :: after = first :: rest →
      record.head (Source.ofTree document tree) = ClassHead.ofTokens first rest := by
    intro first rest heq
    rw [Record.head, hrecord, htokens, heq]
  cases hkeys : definition.headTokens (Source.ofTree document tree) with
  | nil =>
    refine iff_of_false ?_ (by simp)
    rintro ⟨head, hhead, hends⟩
    obtain rfl : head.brace = brace := Option.some.inj (hends.opens.symm.trans hbody)
    -- The walk does not look at the token it starts from, so it goes past the brace.
    rw [hkeys, List.nil_append] at hwalk hordered
    rw [hwalk _ _ rfl] at hhead
    obtain ⟨-, before, rest, hsplit, -⟩ := ClassHead.ofTokens_eq_ok hhead
    have hafter : head.brace ∈ (head.brace :: after).tail := by
      rw [hsplit]
      cases before <;> simp
    have : head.brace.stop ≤ head.brace.start := (List.pairwise_cons.1 hordered).1 _ hafter
    have := hlexed.nonempty head.brace hbrace
    omega
  | cons key keys =>
    rw [hkeys, List.cons_append] at hwalk hordered
    have hnew : brace ∉ keys := by
      intro hmem
      have : brace.stop ≤ brace.start :=
        (List.pairwise_append.1 (List.pairwise_cons.1 hordered).2).2.2 _ hmem _ List.mem_cons_self
      have := hlexed.nonempty brace hbrace
      omega
    calc (∃ head, record.head (Source.ofTree document tree) = .ok head ∧
          head.EndsAt (Source.ofTree document tree) definition.body)
        ↔ ∃ head, record.head (Source.ofTree document tree) = .ok head ∧ head.brace = brace :=
          exists_congr fun head => and_congr_right fun hhead =>
            ⟨fun hends => Option.some.inj (hends.opens.symm.trans hbody),
              fun heq => ⟨heq ▸ hbody, (Record.head_eq_ok hhead).2⟩⟩
      _ ↔ ∀ token ∈ keys, token.kind ≠ .lBrace := by
          rw [hwalk _ _ rfl]
          exact ClassHead.ofTokens_brace_iff hkind hnew key after
      _ ↔ _ := by simp

/-! ## A brace in an alignment -/

/-- A class with an initializer list in its head. -/
def alignedClass : Document where
  text := "class alignas(sizeof(int\x7b1\x7d)) C \x7b int y; \x7d;".toList

/-- The body of the class in `alignedClass`. -/
def alignedClassBody : Tree :=
  .node ⟨.other, some .body, 32, 42, true, false⟩
    [.terminal 32 33,
      .node ⟨.fieldDeclaration, none, 34, 40, true, false⟩
        [.node ⟨.primitiveType, some .type, 34, 37, true, false⟩ [],
          .node ⟨.fieldIdentifier, some .declarator, 38, 39, true, false⟩ [], .terminal 39 40],
      .terminal 41 42]

/-- The alignment of the class in `alignedClass`. -/
def alignedClassAlignment : Tree :=
  .node ⟨.other, none, 6, 29, true, false⟩
    [.terminal 6 13, .terminal 13 14,
      .node ⟨.other, none, 14, 28, true, false⟩
        [.terminal 14 20, .terminal 20 21,
          .node ⟨.other, some .other, 21, 27, true, false⟩
            [.node ⟨.primitiveType, some .type, 21, 24, true, false⟩ [],
              .node ⟨.other, some .other, 24, 27, true, false⟩
                [.terminal 24 25, .node ⟨.numberLiteral, none, 25, 26, true, false⟩ [],
                  .terminal 26 27]],
          .terminal 27 28],
      .terminal 28 29]

/-- The class in `alignedClass`. -/
def alignedClassDefinition : RecordSource where
  tree := .node ⟨.classSpecifier, none, 0, 42, true, false⟩
    [.terminal 0 5, alignedClassAlignment,
      .node ⟨.typeIdentifier, some .name, 30, 31, true, false⟩ [], alignedClassBody]
  body := alignedClassBody
  scope := []
  name := "C"

/-- The tree of `alignedClass`. -/
def alignedClassTree : Tree :=
  .node ⟨.other, none, 0, 43, true, false⟩ [alignedClassDefinition.tree, .terminal 42 43]

/-- The walk ends inside of the alignment, and not at the body. -/
theorem Record.head_endsAt_body_alignedClass :
    ∃ record, (TranslationUnit.ofTree alignedClass alignedClassTree false).records[0]? =
        some record ∧
      (record.head (Source.ofTree alignedClass alignedClassTree)).map
        (fun head => (head.last.start, head.brace.start)) = .ok (21, 24) ∧
      ¬ ∃ head, record.head (Source.ofTree alignedClass alignedClassTree) = .ok head ∧
        head.EndsAt (Source.ofTree alignedClass alignedClassTree) alignedClassBody := by
  have hrun : ((TranslationUnit.ofTree alignedClass alignedClassTree false).records[0]?.map
      fun record => (record.head (Source.ofTree alignedClass alignedClassTree)).map
        fun head => (head.last.start, head.brace.start)) = some (.ok (21, 24)) := by
    decide +kernel
  obtain ⟨record, hrecord, hhead⟩ := Option.map_eq_some_iff.1 hrun
  have hbrace : ∃ token ∈ (alignedClassDefinition.headTokens
      (Source.ofTree alignedClass alignedClassTree)).tail, token.kind = .lBrace := by
    decide +kernel
  have hdefines : (definitions alignedClass alignedClassTree)[0]? =
      some alignedClassDefinition := rfl
  refine ⟨record, hrecord, hhead, (Record.head_endsAt_body_iff (by decide +kernel) hdefines hrecord
    rfl (by decide +kernel)).not.2 ?_⟩
  rintro ⟨key, rest, hkeys, hnone⟩
  rw [hkeys] at hbrace
  obtain ⟨token, htoken, hkind⟩ := hbrace
  exact hnone token htoken hkind

end ClassEdit
