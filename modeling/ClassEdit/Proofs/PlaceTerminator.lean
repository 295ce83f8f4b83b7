import ClassEdit.Proofs.PlaceBounds

/-!
# Places after a terminator

After member functions the search for a place goes on over the semicolons that follow the last of
them, for a bounded number of steps, and the place is then pulled back to the start of a line. It
never gets between the member function and the semicolon that ends it, nor past anything else.

## Main definitions

* `EndsFirstRun`: an entry ends the first run of entries with a property.
* `SkipRun`: the runs of the loop over semicolons, with their steps counted.

## Main statements

* `SkipRun.steps_le`, `exists_skipRun_iff`: the loop has a run within its budget, and its answer is
  where the run stops.
* `exists_offsetAfterMember`, `stop_le_offset_of_semi`: there is a place after a member, and it is
  past the semicolon that ends the member.
* `findPublicPlace_after_terminator`: a place does not separate a member function from its
  terminator.
-/

namespace ClassEdit

/-! ## The first run of public member functions -/

/-- `a` ends the first run of entries with the property. -/
def EndsFirstRun {α : Type} (holds : α → Bool) (l : List α) (a : α) : Prop :=
  ∃ front run rest, l = front ++ run ++ a :: rest ∧ (∀ b ∈ front, holds b = false) ∧
    (∀ b ∈ run, holds b = true) ∧ holds a = true ∧ ∀ b ∈ rest.head?, holds b = false

theorem Record.endsFirstRun_of_lastPublicMethod? {record : Record} {method : Method}
    (h : record.lastPublicMethod? = some method) :
    EndsFirstRun Method.isExplicitPublic record.methods method := by
  rw [lastPublicMethod?] at h
  obtain ⟨run, hrun⟩ := List.getLast?_eq_some_iff.1 h
  have hpublic : ∀ m ∈ run ++ [method], m.isExplicitPublic = true := by
    intro m hm
    rw [← hrun] at hm
    exact List.mem_takeWhile_imp hm
  refine ⟨record.methods.takeWhile fun m => !m.isExplicitPublic, run,
    (record.methods.dropWhile fun m => !m.isExplicitPublic).dropWhile Method.isExplicitPublic,
    ?_, ?_, fun m hm => hpublic m (by simp [hm]), hpublic method (by simp), ?_⟩
  · rw [List.append_assoc, List.append_cons, ← hrun, List.takeWhile_append_dropWhile,
      List.takeWhile_append_dropWhile]
  · intro m hm
    simpa using List.mem_takeWhile_imp hm
  · intro m hm
    have := List.head?_dropWhile_not Method.isExplicitPublic
      (record.methods.dropWhile fun m => !m.isExplicitPublic)
    rwa [hm] at this

theorem Record.exists_lastPublicMethod? {record : Record} {method : Method}
    (hmethod : method ∈ record.methods) (hpublic : method.isExplicitPublic = true) :
    ∃ last, record.lastPublicMethod? = some last := by
  have hne : (record.methods.dropWhile fun m => !m.isExplicitPublic) ≠ [] := by
    rw [Ne, List.dropWhile_eq_nil_iff]
    intro hall
    simpa [hpublic] using hall method hmethod
  obtain ⟨first, rest, hfirst⟩ := List.exists_cons_of_ne_nil hne
  have hholds : first.isExplicitPublic = true := by
    have := List.head?_dropWhile_not (fun m => !m.isExplicitPublic) record.methods
    simpa [hfirst] using this
  rw [lastPublicMethod?, hfirst, List.takeWhile_cons_of_pos hholds]
  exact ⟨_, List.getLast?_eq_some_getLast (by simp)⟩

/-! ## The loop over semicolons -/

/-- The loop over the semicolons after a member, from the one at `offset` on, looks for a further
token `steps` times and ends at `stop`. It ends when its budget is spent, when there is no further
token, and at a token that is no semicolon. -/
inductive SkipRun : (budget offset : Nat) → List Token → (steps stop : Nat) → Prop where
  | spent {offset : Nat} {tokens : List Token} : SkipRun 0 offset tokens 0 offset
  | ended {budget offset : Nat} : SkipRun (budget + 1) offset [] 1 offset
  | halted {budget offset : Nat} {token : Token} {rest : List Token} (hkind : token.kind ≠ .semi) :
      SkipRun (budget + 1) offset (token :: rest) 1 token.start
  | passed {budget offset steps stop : Nat} {token : Token} {rest : List Token}
      (hkind : token.kind = .semi) (hrest : SkipRun budget token.start rest steps stop) :
      SkipRun (budget + 1) offset (token :: rest) (steps + 1) stop

namespace SkipRun

variable {budget offset steps stop : Nat} {tokens : List Token}

theorem steps_le (h : SkipRun budget offset tokens steps stop) : steps ≤ budget := by
  induction h with
  | spent => exact Nat.le_refl 0
  | ended | halted => omega
  | passed _ _ ih => omega

theorem stop_eq (h : SkipRun budget offset tokens steps stop) :
    stop = skipRow budget offset tokens := by
  induction h with
  | spent | ended => rfl
  | halted hkind => rw [skipRow, if_neg hkind]
  | passed hkind _ ih => rw [skipRow, if_pos hkind, ih]

/-- A run that may look for a token, and finds one, ends at a token that it has found. -/
theorem exists_stop (h : SkipRun budget offset tokens steps stop) (hbudget : budget ≠ 0)
    (htokens : tokens ≠ []) : ∃ token ∈ tokens, stop = token.start := by
  induction h with
  | spent => exact absurd rfl hbudget
  | ended => exact absurd rfl htokens
  | halted => exact ⟨_, List.mem_cons_self, rfl⟩
  | @passed budget _ _ _ token rest _ hrest ih =>
    by_cases hgoes : budget ≠ 0 ∧ rest ≠ []
    · obtain ⟨last, hlast, hstop⟩ := ih hgoes.1 hgoes.2
      exact ⟨last, List.mem_cons_of_mem _ hlast, hstop⟩
    · refine ⟨token, List.mem_cons_self, ?_⟩
      cases hrest with
      | spent | ended => rfl
      | halted | passed => simp at hgoes

end SkipRun

/-- The answer of the loop is where its run stops. -/
theorem exists_skipRun_iff {budget offset stop : Nat} {tokens : List Token} :
    (∃ steps, SkipRun budget offset tokens steps stop) ↔
      stop = skipRow budget offset tokens := by
  constructor
  · rintro ⟨steps, h⟩
    exact h.stop_eq
  · rintro rfl
    fun_induction skipRow budget offset tokens with
    | case1 offset tokens => exact ⟨0, .spent⟩
    | case2 budget offset => exact ⟨1, .ended⟩
    | case3 budget offset token rest hkind ih =>
      obtain ⟨steps, h⟩ := ih
      exact ⟨steps + 1, .passed hkind h⟩
    | case4 budget offset token rest hkind => exact ⟨1, .halted hkind⟩

/-! ## The offset after a member -/

section Member

variable {source : Source} {before after : List Token} {last : Token}

/-- There is always an offset after a member, since tokens begin between characters. -/
theorem exists_offsetAfterMember (hlexed : source.Lexed)
    (hsplit : source.tokens.toList = before ++ last :: after) :
    ∃ offset, offsetAfterMember source.text source last.start = .ok offset := by
  cases after with
  | nil => exact ⟨_, offsetAfterMember_of_nil hlexed.toInOrder _ hsplit⟩
  | cons first rest =>
    rw [offsetAfterMember_of_cons hlexed.toInOrder _ hsplit]
    obtain ⟨skipped, next, later, hnext, -, hstop⟩ := tokenAfterMember_spec first rest
    have hmem : next ∈ first :: rest := by simp [hnext]
    have hle : first.start ≤ next.start := by
      obtain rfl | hmem := List.mem_cons.1 hmem
      · exact Nat.le_refl _
      · have hfirst : source.tokens.toList = (before ++ [last]) ++ first :: rest := by
          simp [hsplit]
        have := hlexed.stop_le_start hfirst hmem
        have := hlexed.nonempty first (by simp [hsplit])
        omega
    have hnextStart : Text.IsBoundary source.text next.start :=
      hlexed.isBoundary_start (by simp [hsplit, hmem])
    obtain ⟨between, hbetween⟩ :=
      (hlexed.isBoundary_start (by simp [hsplit])).exists_slice? hnextStart hle
    rw [← hstop] at hbetween
    simp only [lineAfter, hbetween]
    cases Text.newlineOffset? between with
    | some newline => exact ⟨_, rfl⟩
    | none => exact ⟨_, rfl⟩

/-- The offset is past a semicolon that follows the member, if that is not the last token. -/
theorem stop_le_offset_of_semi (hlexed : source.Lexed) {first : Token} {rest : List Token}
    {offset : Nat} (hsplit : source.tokens.toList = before ++ last :: first :: rest)
    (hkind : first.kind = .semi) (hrest : rest ≠ [])
    (h : offsetAfterMember source.text source last.start = .ok offset) : first.stop ≤ offset := by
  obtain ⟨hnil, -⟩ | ⟨_, _, heq, rfl⟩ := offsetAfterMember_eq_ok hlexed hsplit h
  · cases hnil
  obtain ⟨rfl, rfl⟩ := List.cons_eq_cons.1 heq
  have hfirst : source.tokens.toList = (before ++ [last]) ++ first :: rest := by simp [hsplit]
  have hstop : first.stop ≤ tokenAfterMember first rest := by
    obtain ⟨steps, hrun⟩ := exists_skipRun_iff.2 (rfl : _ =
      skipRow maxSkippedSemicolons first.start rest)
    obtain ⟨next, hnext, heq⟩ := hrun.exists_stop (by decide) hrest
    rw [tokenAfterMember, if_pos hkind, heq]
    exact hlexed.stop_le_start hfirst hnext
  unfold Text.nextLine
  split
  case h_1 newline hnewline =>
    -- The semicolon itself is no newline, so the line ends after it.
    obtain ⟨part, hpart, hmark⟩ := hlexed.text first (by simp [hsplit])
    obtain rfl : part = [';'] := hmark _ (by rw [hkind]; rfl)
    have := Text.le_lineEnd?_of_slice? hpart (by decide) hnewline
    split_ifs <;> omega
  case h_2 => exact hstop

end Member

/-! ## The place -/

variable {document : Document} {tree : Tree} {hasErrors : Bool} {id : RecordId}
  {definition : RecordSource} {record : Record}

/-- A class with a public member function has a place after the first run of such functions. Only
semicolons are between the last token of the run and the place, and one that follows that token is
passed as a whole. The loop over the semicolons makes no more than 1000 steps, and the place is at
the token where it stops or at the start of a line before it. It looks for each token from the one
before it, and so goes along the row of tokens. -/
theorem findPublicPlace_after_terminator
    (h : IsCompleteClass document tree hasErrors id definition record) {method : Method}
    (hmethod : method ∈ record.methods) (hpublic : method.isExplicitPublic = true) :
    ∃ chainEnd place before last after,
      EndsFirstRun Method.isExplicitPublic record.methods chainEnd ∧
      findPublicPlace document.text record (Source.ofTree document tree) = .ok place ∧
      (Source.ofTree document tree).tokens.toList = before ++ last :: after ∧
      last.start = chainEnd.last ∧
      (∀ token ∈ after, token.start < place.offset → token.kind = .semi) ∧
      ∀ first rest, after = first :: rest → first.kind = .semi → first.stop ≤ place.offset ∧
        ∃ steps stop, SkipRun maxSkippedSemicolons first.start rest steps stop ∧ steps ≤ 1000 ∧
          stop = skipSemicolons (Source.ofTree document tree) maxSkippedSemicolons first.start ∧
          place.offset = Text.nextLine document.text first.start stop stop := by
  obtain ⟨chainEnd, hlastPublic⟩ := Record.exists_lastPublicMethod? hmethod hpublic
  obtain ⟨t, before, last, after, ht, hsplit, hlast, -, hstop, -⟩ :=
    h.exists_declaration hlastPublic
  obtain ⟨offset, hoffset⟩ := exists_offsetAfterMember h.lexed hsplit
  have hplace : findPublicPlace document.text record (Source.ofTree document tree) =
      .ok ⟨offset, false⟩ := by
    simp only [findPublicPlace, hlastPublic, hlast]
    rw [show offsetAfterMember document.text (Source.ofTree document tree) last.start = .ok offset
      from hoffset]
    rfl
  refine ⟨chainEnd, ⟨offset, false⟩, before, last, after,
    Record.endsFirstRun_of_lastPublicMethod? hlastPublic, hplace, hsplit, hlast.symm, ?_, ?_⟩
  · intro token htoken hlt
    by_contra hkind
    exact Nat.not_le.2 hlt (offset_le_of_member h.lexed hsplit hoffset htoken hkind)
  · rintro first rest rfl hkind
    -- The closing brace is no semicolon, so the loop has a token to look at.
    have hrest : rest ≠ [] := by
      rintro rfl
      obtain ⟨brace, hbrace, hclosing, -⟩ := h.exists_closing_after ht hsplit hstop
      obtain rfl := List.mem_singleton.1 hbrace
      simp [hkind] at hclosing
    refine ⟨stop_le_offset_of_semi h.lexed hsplit hkind hrest hoffset, ?_⟩
    have hfirst := hsplit.trans (List.append_cons before last (first :: rest))
    have hskip := skipSemicolons_eq_skipRow h.lexed.toInOrder hfirst maxSkippedSemicolons
    obtain ⟨steps, hrun⟩ := exists_skipRun_iff.2 hskip
    refine ⟨steps, _, hrun, hrun.steps_le, rfl, ?_⟩
    obtain ⟨hnil, -⟩ | ⟨_, _, heq, heqOffset⟩ := offsetAfterMember_eq_ok h.lexed hsplit hoffset
    · cases hnil
    · obtain ⟨rfl, rfl⟩ := List.cons_eq_cons.1 heq
      rw [tokenAfterMember, if_pos hkind, ← hskip] at heqOffset
      exact heqOffset

/-! ## Semicolons on several lines -/

/-- A class with a member function and semicolons after it, on two lines and around a comment. -/
def scatteredSemicolons : Document where
  text := "struct S \x7b\n  void a(); ; // one\n  ; int x;\n\x7d;\n".toList

/-- The body of the class in `scatteredSemicolons`. -/
def scatteredSemicolonsBody : Tree :=
  .node ⟨.other, some .body, 9, 44, true, false⟩
    [.terminal 9 10,
      .node ⟨.fieldDeclaration, none, 13, 22, true, false⟩
        [.node ⟨.primitiveType, some .type, 13, 17, true, false⟩ [],
          .node ⟨.functionDeclarator, some .declarator, 18, 21, true, false⟩
            [.node ⟨.fieldIdentifier, some .declarator, 18, 19, true, false⟩ [],
              .node ⟨.other, some .parameters, 19, 21, true, false⟩
                [.terminal 19 20, .terminal 20 21]],
          .terminal 21 22],
      .terminal 23 24, .node ⟨.comment, none, 25, 31, true, false⟩ [], .terminal 34 35,
      .node ⟨.fieldDeclaration, none, 36, 42, true, false⟩
        [.node ⟨.primitiveType, some .type, 36, 39, true, false⟩ [],
          .node ⟨.fieldIdentifier, some .declarator, 40, 41, true, false⟩ [],
          .terminal 41 42],
      .terminal 43 44]

/-- The class in `scatteredSemicolons`. -/
def scatteredSemicolonsDefinition : RecordSource where
  tree := .node ⟨.structSpecifier, none, 0, 44, true, false⟩
    [.terminal 0 6, .node ⟨.typeIdentifier, some .name, 7, 8, true, false⟩ [],
      scatteredSemicolonsBody]
  body := scatteredSemicolonsBody
  scope := []
  name := "S"

/-- The tree of `scatteredSemicolons`. -/
def scatteredSemicolonsTree : Tree :=
  .node ⟨.other, none, 0, 46, true, false⟩ [scatteredSemicolonsDefinition.tree, .terminal 44 45]

/-- The place is at the start of the second line of semicolons. -/
theorem findPublicPlace_scatteredSemicolons :
    ∃ record method, IsCompleteClass scatteredSemicolons scatteredSemicolonsTree false 0
        scatteredSemicolonsDefinition record ∧
      method ∈ record.methods ∧ method.isExplicitPublic = true ∧
      findPublicPlace scatteredSemicolons.text record
        (Source.ofTree scatteredSemicolons scatteredSemicolonsTree) = .ok ⟨32, false⟩ ∧
      ∃ chainEnd place before last after,
        EndsFirstRun Method.isExplicitPublic record.methods chainEnd ∧
        findPublicPlace scatteredSemicolons.text record
          (Source.ofTree scatteredSemicolons scatteredSemicolonsTree) = .ok place ∧
        (Source.ofTree scatteredSemicolons scatteredSemicolonsTree).tokens.toList =
          before ++ last :: after ∧
        last.start = chainEnd.last ∧
        (∀ token ∈ after, token.start < place.offset → token.kind = .semi) ∧
        ∀ first rest, after = first :: rest → first.kind = .semi → first.stop ≤ place.offset ∧
          ∃ steps stop, SkipRun maxSkippedSemicolons first.start rest steps stop ∧ steps ≤ 1000 ∧
            stop = skipSemicolons (Source.ofTree scatteredSemicolons scatteredSemicolonsTree)
              maxSkippedSemicolons first.start ∧
            place.offset = Text.nextLine scatteredSemicolons.text first.start stop stop := by
  have hrun : ((TranslationUnit.ofTree scatteredSemicolons scatteredSemicolonsTree
      false).records[0]?.map fun record => (record.methods.any Method.isExplicitPublic,
        findPublicPlace scatteredSemicolons.text record
          (Source.ofTree scatteredSemicolons scatteredSemicolonsTree))) =
      some (true, .ok ⟨32, false⟩) := by
    decide +kernel
  obtain ⟨record, hrecord, hfound⟩ := Option.map_eq_some_iff.1 hrun
  obtain ⟨hany, hplace⟩ := Prod.mk.inj hfound
  obtain ⟨method, hmethod, hpublic⟩ := List.any_eq_true.1 hany
  have hcomplete : IsCompleteClass scatteredSemicolons scatteredSemicolonsTree false 0
      scatteredSemicolonsDefinition record := ⟨by decide +kernel, rfl, by decide +kernel, hrecord⟩
  exact ⟨record, method, hcomplete, hmethod, hpublic, hplace,
    findPublicPlace_after_terminator hcomplete hmethod hpublic⟩

end ClassEdit
