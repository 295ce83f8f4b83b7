import ClassEdit.Proofs.CompleteClass

/-!
# The access at a place

New public members go where the body gives public access, or bring a label with them. This holds
for a place after a member function and for one after the opening brace. A place after a label is
found in the text and not in the tree, and it is moved on to the next line: it is public only if
the label is one of the body and the rest of its line has no other label.

## Main definitions

* `RecordSource.LabelsAreTokens`: each label of a body is one word of the text.
* `RecordSource.KeepsPublic`: a label found in the text makes an offset public.

## Main statements

* `accessAt_of_member`, `accessAt_of_brace`: the access at two kinds of places.
* `LabelMatch.IsIn.access_eq_pub`: a label of the body that was found in the text is public.
* `accessAt_eq_pub_iff_keepsPublic`: the access at the third kind of places.
* `findPublicPlace_isPublic_iff`: when a place is public.
-/

namespace ClassEdit

/-- A list whose entries satisfy `p` up to some entry is divided there. -/
theorem filter_eq_append_of_pairwise {α : Type} {p : α → Bool} {l : List α}
    (h : l.Pairwise fun a b => p b = true → p a = true) (q : α → Bool) :
    l.filter q = l.filter (fun a => p a && q a) ++ l.filter (fun a => !p a && q a) := by
  induction l with
  | nil => rfl
  | cons a l ih =>
    obtain ⟨hhead, htail⟩ := List.pairwise_cons.1 h
    cases ha : p a with
    | true => cases hq : q a <;> simp [ha, hq, ih htail]
    | false =>
      have hrest : ∀ b ∈ l, p b = false := by
        intro b hb
        by_contra hpb
        simp [hhead b hb (by simpa using hpb)] at ha
      have hnone : l.filter (fun a => p a && q a) = [] :=
        List.filter_eq_nil_iff.2 fun b hb => by simp [hrest b hb]
      cases hq : q a <;> simp [ha, hq, ih htail, hnone]

namespace RecordSource

/-- Each label of the body is one word of the text, which is how the grammar makes labels. -/
def LabelsAreTokens (r : RecordSource) (source : Source) : Prop :=
  ∀ l ∈ r.labels source, ∃ token ∈ source.tokens.toList,
    token.start = l.tree.root.start ∧ token.stop = l.tree.root.stop

instance (r : RecordSource) (source : Source) : Decidable (r.LabelsAreTokens source) :=
  inferInstanceAs (Decidable (∀ l ∈ r.labels source, ∃ token ∈ source.tokens.toList,
    token.start = l.tree.root.start ∧ token.stop = l.tree.root.stop))

/-- The labels of the body after `start` that end at `offset` or before. -/
def labelsAfter (r : RecordSource) (source : Source) (start offset : Nat) : List AccessLabel :=
  (r.labels source).filter fun l => start < l.tree.root.start && l.tree.root.stop ≤ offset

/-- The label that was found in the text makes the offset public: the last label between the two is
public. If there is none, then the label itself is one of the body, or the body is public there
without it. -/
def KeepsPublic (r : RecordSource) (source : Source) (label : LabelMatch) (offset : Nat) : Prop :=
  match (r.labelsAfter source label.start offset).getLast? with
  | some l => l.access = .pub
  | none => (∃ l ∈ r.labels source, l.tree.root.start = label.start) ∨
      r.accessAt source label.start = .pub

/-- The labels up to an offset decide the access there. -/
theorem accessAt_of_split {r : RecordSource} {source : Source} {before later : List AccessLabel}
    {offset : Nat} (hsplit : r.labels source = before ++ later)
    (hbefore : ∀ l ∈ before, l.tree.root.stop ≤ offset)
    (hlater : ∀ l ∈ later, offset < l.tree.root.stop) :
    r.accessAt source offset = accessAfter r.key.defaultAccess before := by
  rw [accessAt, hsplit, List.filter_append, List.filter_eq_self.2, List.filter_eq_nil_iff.2,
    List.append_nil]
  · intro l hl
    simpa using hlater l hl
  · intro l hl
    simpa using hbefore l hl

end RecordSource

variable {document : Document} {tree : Tree} {hasErrors : Bool} {id : RecordId}
  {definition : RecordSource} {record : Record} {place : PublicPlace}

/-! ## After a member or a brace -/

/-- The members after a public member function are public. -/
theorem accessAt_of_member (h : IsCompleteClass document tree hasErrors id definition record)
    (hlabels : definition.LabelsAreTokens (Source.ofTree document tree)) {method : Method}
    {offset : Nat} (hmethod : record.lastPublicMethod? = some method)
    (hoffset : offsetAfterMember document.text (Source.ofTree document tree) method.last =
      .ok offset) :
    definition.accessAt (Source.ofTree document tree) offset = .pub := by
  obtain ⟨t, before, last, after, ht, hsplit, hlast, hstart, hstop, -⟩ :=
    h.exists_declaration hmethod
  rw [hlast] at hoffset
  have hle := (h.offset_of_member hsplit hoffset).1
  obtain ⟨_, _, -, -, -, -, hread⟩ := h.exists_braces
  obtain ⟨earlier, later, heq, hearlier, hlater, haccess, -⟩ := hread.members _ ht
  rw [RecordSource.accessAt_of_split heq, ← haccess]
  · intro l hl
    have : l.tree.root.stop ≤ t.root.start := hearlier l hl
    omega
  · intro l hl
    -- A label that the offset is past would be one of the semicolons after the member.
    by_contra hpast
    have hmem : l ∈ definition.labels (Source.ofTree document tree) := by simp [heq, hl]
    have hafter : t.root.stop ≤ l.tree.root.start := hlater l hl
    obtain ⟨token, htoken, htstart, htstop⟩ := hlabels l hmem
    have hsemi := semi_of_stop_le_offset h.lexed hsplit hoffset htoken (by omega) (by omega)
    obtain ⟨part, hpart, hword⟩ := RecordSource.exists_text_of_mem_labels hmem
    obtain ⟨text, htext, hmark⟩ := h.lexed.text token htoken
    rw [htstart, htstop, hpart] at htext
    rw [Option.some.inj htext, hmark [';'] (by rw [hsemi]; rfl)] at hword
    exact l.access.toList_word_ne.2 hword.symm

/-- Up to the place after the opening brace there is no label. -/
theorem accessAt_of_brace (h : IsCompleteClass document tree hasErrors id definition record)
    {head : ClassHead} {offset : Nat}
    (hhead : record.head (Source.ofTree document tree) = .ok head)
    (hoffset : offsetAfterBrace document.text head.brace = .ok offset) :
    definition.accessAt (Source.ofTree document tree) offset = definition.key.defaultAccess := by
  obtain ⟨found, _, hfound, -, -, -, hread⟩ := h.exists_braces
  obtain rfl := Except.ok.inj (hhead.symm.trans hfound)
  -- All that lies between the brace and the offset is blank.
  obtain ⟨before, blanks, after, htext, hbefore, hafter, hblank⟩ : ∃ before blanks after,
      document.text = before ++ blanks ++ after ∧ Text.byteLength before = head.brace.stop ∧
        Text.byteLength (before ++ blanks) = offset ∧ ∀ c ∈ blanks, Text.isBlank c = true := by
    obtain ⟨hstop, rfl | ⟨newline, ⟨before, blanks, after, htext, hbefore, rfl, -, hblank⟩, rfl⟩⟩ :=
      offsetAfterBrace_eq_ok hoffset
    · obtain ⟨before, after, htext, hbefore⟩ := Text.isBoundary_iff.1 hstop
      exact ⟨before, [], after, by simpa using htext, hbefore, by simpa using hbefore, by simp⟩
    · refine ⟨before, blanks ++ ['\n'], after, by simpa using htext, hbefore, ?_, ?_⟩
      · simp [Text.utf8Size_newline, Nat.add_assoc]
      · simpa [or_imp, forall_and, Text.isBlank_newline] using hblank
  refine @RecordSource.accessAt_of_split definition _ [] _ offset rfl (by simp) fun l hl => ?_
  by_contra hpast
  obtain ⟨hin, -, -⟩ := hread.inside l hl
  obtain ⟨part, hpart, hword⟩ := RecordSource.exists_text_of_mem_labels hl
  have hpart : Text.slice? document.text l.tree.root.start l.tree.root.stop = some part := hpart
  rw [htext] at hpart
  have hwithin := Text.infix_of_slice? hpart (by omega) (by omega)
  rw [Text.trim_eq_nil_iff.2 fun c hc => hblank c (hwithin.subset hc)] at hword
  exact l.access.toList_word_ne.1 hword.symm

/-! ## After a label -/

/-- What is trimmed to a keyword and starts like a public label is the word `public`, and it ends
before the colon of the label. -/
theorem pub_of_append_eq {access : Access} {part blanks rest after : List Char}
    (hword : Text.trim part = access.word.toList) (hblanks : ∀ c ∈ blanks, Text.isBlank c = true)
    (heq : part ++ rest = "public".toList ++ blanks ++ ':' :: after) :
    access = .pub ∧ Text.byteLength part ≤ Text.byteLength ("public".toList ++ blanks) := by
  obtain ⟨front, back, hpart, hfront, hback⟩ := Text.exists_eq_append_trim part
  rw [hword] at hpart
  -- The label starts with a letter, so no blanks are in front.
  obtain rfl : front = [] := by
    cases front with
    | nil => rfl
    | cons c front =>
      rw [hpart] at heq
      have hc : c = 'p' := (List.cons_eq_cons.1 heq).1
      have := hfront c List.mem_cons_self
      rw [hc] at this
      exact absurd this (by decide)
  subst hpart
  cases access with
  | priv => simp [Access.word] at heq
  | prot => simp [Access.word] at heq
  | pub =>
    refine ⟨rfl, ?_⟩
    have heq : back ++ rest = blanks ++ ':' :: after := by simpa [Access.word] using heq
    suffices Text.byteLength back ≤ Text.byteLength blanks by simpa [Access.word] using this
    obtain ⟨mid, rfl, -⟩ | ⟨mid, rfl, hmid⟩ := List.append_eq_append_iff.1 heq
    · simp
    · cases mid with
      | nil => simp
      | cons c mid =>
        obtain ⟨rfl, -⟩ := List.cons_eq_cons.1 hmid
        exact absurd (hback ':' (by simp)) (by decide)

/-- A label of the body that starts where a label was found in the text is public, and not longer
than the one found. -/
theorem LabelMatch.IsIn.access_eq_pub {source : Source} {label : LabelMatch} {l : AccessLabel}
    (h : label.IsIn source.text) (hl : l ∈ definition.labels source)
    (hstart : l.tree.root.start = label.start) :
    l.access = .pub ∧ l.tree.root.stop ≤ label.stop := by
  obtain ⟨before, blanks, htext, hblanks, hbefore, hstop⟩ := h
  obtain ⟨part, hpart, hword⟩ := RecordSource.exists_text_of_mem_labels hl
  obtain ⟨xs, rest, htext', hxs, hlen⟩ := Text.slice?_eq_some_iff.1 hpart
  have heq : xs ++ (part ++ rest) =
      before ++ ("public".toList ++ blanks ++ ':' :: label.after) := by
    rw [htext] at htext'
    simpa using htext'.symm
  obtain ⟨mid, hmid, hrest⟩ := Text.append_inj_of_le heq (by omega)
  obtain rfl : mid = [] := by
    rw [← Text.byteLength_eq_zero]
    rw [hmid, Text.byteLength_append] at hbefore
    omega
  obtain ⟨hpub, hle⟩ := pub_of_append_eq hword hblanks hrest
  refine ⟨hpub, ?_⟩
  simp at hle hstop
  omega

/-- The labels up to an offset are those before a position, the one that starts there and those
after it. -/
theorem filter_labels_eq {labels : List AccessLabel} {start offset : Nat}
    (hordered : labels.Pairwise fun a b => a.tree.Before b.tree)
    (hbounds : ∀ l ∈ labels, l.tree.root.start < l.tree.root.stop)
    (hapart : ∀ l ∈ labels, l.tree.root.start < start → l.tree.root.stop ≤ start)
    (hhere : ∀ l ∈ labels, l.tree.root.start = start → l.tree.root.stop ≤ offset)
    (hle : start ≤ offset) :
    labels.filter (·.tree.root.stop ≤ offset) =
      labels.filter (·.tree.root.stop ≤ start) ++ (labels.filter (·.tree.root.start = start) ++
        labels.filter fun l => start < l.tree.root.start && l.tree.root.stop ≤ offset) := by
  have hstops : labels.Pairwise fun a b =>
      decide (b.tree.root.stop ≤ start) = true → decide (a.tree.root.stop ≤ start) = true := by
    refine hordered.imp_of_mem fun {a b} _ hb hab hstop => ?_
    have := hbounds b hb
    unfold Tree.Before at hab
    simp at hstop ⊢
    omega
  have hstarts : labels.Pairwise fun a b =>
      decide (b.tree.root.start ≤ start) = true → decide (a.tree.root.start ≤ start) = true := by
    refine hordered.imp_of_mem fun {a b} ha _ hab hstart => ?_
    have := hbounds a ha
    unfold Tree.Before at hab
    simp at hstart ⊢
    omega
  rw [filter_eq_append_of_pairwise hstops (·.tree.root.stop ≤ offset),
    filter_eq_append_of_pairwise hstarts
      fun l => !decide (l.tree.root.stop ≤ start) && decide (l.tree.root.stop ≤ offset)]
  congr 1
  · refine List.filter_congr fun l hl => ?_
    rw [Bool.eq_iff_iff]
    simp
    omega
  congr 1
  · refine List.filter_congr fun l hl => ?_
    have := hapart l hl
    have := hbounds l hl
    have := hhere l hl
    rw [Bool.eq_iff_iff]
    simp
    omega
  · refine List.filter_congr fun l hl => ?_
    have := hbounds l hl
    rw [Bool.eq_iff_iff]
    simp
    omega

/-- After a label that was found in the text an offset is public if the label keeps it so. -/
theorem accessAt_eq_pub_iff_keepsPublic
    (h : IsCompleteClass document tree hasErrors id definition record)
    (hlabels : definition.LabelsAreTokens (Source.ofTree document tree)) {label : LabelMatch}
    {offset : Nat} (hin : label.IsIn document.text)
    (htoken : ∃ token ∈ (Source.ofTree document tree).tokens.toList, token.start = label.start)
    (hoffset : label.stop ≤ offset) :
    definition.accessAt (Source.ofTree document tree) offset = .pub ↔
      definition.KeepsPublic (Source.ofTree document tree) label offset := by
  obtain ⟨_, _, -, -, -, -, hread⟩ := h.exists_braces
  obtain ⟨first, hfirst, hstart⟩ := htoken
  have hlt := hin.start_lt_stop
  have hbounds : ∀ l ∈ definition.labels (Source.ofTree document tree),
      l.tree.root.start < l.tree.root.stop := by
    intro l hl
    obtain ⟨token, htoken, htstart, htstop⟩ := hlabels l hl
    have := h.lexed.nonempty token htoken
    omega
  have hapart : ∀ l ∈ definition.labels (Source.ofTree document tree),
      l.tree.root.start < label.start → l.tree.root.stop ≤ label.start := by
    intro l hl hbefore
    obtain ⟨token, htoken, htstart, htstop⟩ := hlabels l hl
    rw [← hstart, ← htstop]
    exact h.lexed.stop_le_start_of_lt htoken hfirst (by omega)
  have hhere : ∀ l ∈ definition.labels (Source.ofTree document tree),
      l.tree.root.start = label.start → l.tree.root.stop ≤ offset :=
    fun l hl heq => (hin.access_eq_pub hl heq).2.trans hoffset
  have hpublic : ∀ l ∈ (definition.labels (Source.ofTree document tree)).filter
      (·.tree.root.start = label.start), l.access = .pub := by
    intro l hl
    obtain ⟨hl, hstart⟩ := List.mem_filter.1 hl
    exact (hin.access_eq_pub hl (by simpa using hstart)).1
  rw [RecordSource.accessAt, filter_labels_eq hread.ordered hbounds hapart hhere (by omega),
    accessAfter_append, accessAfter_append, accessAfter_eq_iff, ← RecordSource.labelsAfter,
    RecordSource.KeepsPublic]
  cases (definition.labelsAfter (Source.ofTree document tree) label.start offset).getLast? with
  | some l => exact Iff.rfl
  | none =>
    simp only [accessAfter_eq_iff_of_forall hpublic, ne_eq, List.filter_eq_nil_iff]
    simp [RecordSource.accessAt]

/-! ## The place -/

/-- A place is public, or the members bring a label with them, unless it was found by a label that
does not keep it public. -/
theorem findPublicPlace_isPublic_iff
    (h : IsCompleteClass document tree hasErrors id definition record)
    (hlabels : definition.LabelsAreTokens (Source.ofTree document tree))
    (hplace : findPublicPlace document.text record (Source.ofTree document tree) = .ok place) :
    (place.needsLabel = true ∨
        definition.accessAt (Source.ofTree document tree) place.offset = .pub) ↔
      ∀ head label, record.lastPublicMethod? = none →
        record.head (Source.ofTree document tree) = .ok head →
        (publicLabels document.text).find?
          (isLabelOf record (Source.ofTree document tree) head.brace) = some label →
        definition.KeepsPublic (Source.ofTree document tree) label place.offset := by
  obtain ⟨method, hmethod, hoffset, -⟩ | ⟨hmethod, head, hhead, ⟨label, hlabel, rfl⟩ |
    ⟨hlabel, hoffset, hflag⟩⟩ := findPublicPlace_eq_ok hplace
  · have hpublic := accessAt_of_member h hlabels hmethod hoffset
    simp [hpublic, hmethod]
  · have hin := isIn_of_mem_publicLabels (List.mem_of_find?_eq_some hlabel)
    have hoffset : label.stop ≤ offsetAfterLabel record label := by
      rw [hin.offsetAfterLabel_eq]
      exact Text.le_nextLine (Nat.le_refl _) (Nat.le_refl _)
    have hkeeps := accessAt_eq_pub_iff_keepsPublic h hlabels hin
      (of_isLabelOf (List.find?_some hlabel)).2 hoffset
    simp only [Bool.false_eq_true, false_or, hkeeps]
    constructor
    · intro hpublic found other _ hfound hother
      obtain rfl := Except.ok.inj (hhead.symm.trans hfound)
      obtain rfl := Option.some.inj (hlabel.symm.trans hother)
      exact hpublic
    · intro hall
      exact hall head label hmethod hhead hlabel
  · have haccess := accessAt_of_brace h hhead hoffset
    have hpublic : place.needsLabel = true ∨
        definition.accessAt (Source.ofTree document tree) place.offset = .pub := by
      rw [hflag, haccess, h.key_eq]
      cases definition.key <;> decide
    refine iff_of_true hpublic fun found other _ hfound hother => ?_
    obtain rfl := Except.ok.inj (hhead.symm.trans hfound)
    simp [hlabel] at hother

/-! ## A line with two labels -/

/-- A class whose public label has a private one on its line. -/
def twoLabels : Document where
  text := "class A \x7b\npublic: int x; private:\n  int y;\n\x7d;\n".toList

/-- The body of the class in `twoLabels`. -/
def twoLabelsBody : Tree :=
  .node ⟨.other, some .body, 8, 44, true, false⟩
    [.terminal 8 9, .node ⟨.accessSpecifier, none, 10, 16, true, false⟩ [.terminal 10 16],
      .node ⟨.colon, none, 16, 17, false, false⟩ [],
      .node ⟨.fieldDeclaration, none, 18, 24, true, false⟩
        [.node ⟨.primitiveType, some .type, 18, 21, true, false⟩ [],
          .node ⟨.fieldIdentifier, some .declarator, 22, 23, true, false⟩ [], .terminal 23 24],
      .node ⟨.accessSpecifier, none, 25, 32, true, false⟩ [.terminal 25 32],
      .node ⟨.colon, none, 32, 33, false, false⟩ [],
      .node ⟨.fieldDeclaration, none, 36, 42, true, false⟩
        [.node ⟨.primitiveType, some .type, 36, 39, true, false⟩ [],
          .node ⟨.fieldIdentifier, some .declarator, 40, 41, true, false⟩ [], .terminal 41 42],
      .terminal 43 44]

/-- The class in `twoLabels`. -/
def twoLabelsDefinition : RecordSource where
  tree := .node ⟨.classSpecifier, none, 0, 44, true, false⟩
    [.terminal 0 5, .node ⟨.typeIdentifier, some .name, 6, 7, true, false⟩ [], twoLabelsBody]
  body := twoLabelsBody
  scope := []
  name := "A"

/-- The tree of `twoLabels`. -/
def twoLabelsTree : Tree :=
  .node ⟨.other, none, 0, 46, true, false⟩ [twoLabelsDefinition.tree, .terminal 44 45]

/-- The place is after the private label: the label that was found does not keep it public. -/
theorem findPublicPlace_twoLabels :
    ∃ record, IsCompleteClass twoLabels twoLabelsTree false 0 twoLabelsDefinition record ∧
      twoLabelsDefinition.LabelsAreTokens (Source.ofTree twoLabels twoLabelsTree) ∧
      findPublicPlace twoLabels.text record (Source.ofTree twoLabels twoLabelsTree) =
        .ok ⟨34, false⟩ ∧
      twoLabelsDefinition.accessAt (Source.ofTree twoLabels twoLabelsTree) 34 = .priv ∧
      ¬ ∀ head label, record.lastPublicMethod? = none →
        record.head (Source.ofTree twoLabels twoLabelsTree) = .ok head →
        (publicLabels twoLabels.text).find?
          (isLabelOf record (Source.ofTree twoLabels twoLabelsTree) head.brace) = some label →
        twoLabelsDefinition.KeepsPublic (Source.ofTree twoLabels twoLabelsTree) label 34 := by
  have hrun : ((TranslationUnit.ofTree twoLabels twoLabelsTree false).records[0]?.map fun record =>
      findPublicPlace twoLabels.text record (Source.ofTree twoLabels twoLabelsTree)) =
      some (.ok ⟨34, false⟩) := by decide +kernel
  obtain ⟨record, hrecord, hplace⟩ := Option.map_eq_some_iff.1 hrun
  have hcomplete : IsCompleteClass twoLabels twoLabelsTree false 0 twoLabelsDefinition record :=
    ⟨by decide +kernel, rfl, by decide +kernel, hrecord⟩
  have hlabels : twoLabelsDefinition.LabelsAreTokens (Source.ofTree twoLabels twoLabelsTree) := by
    decide +kernel
  have haccess : twoLabelsDefinition.accessAt (Source.ofTree twoLabels twoLabelsTree) 34 =
      .priv := by decide +kernel
  refine ⟨record, hcomplete, hlabels, hplace, haccess, fun hkeeps => ?_⟩
  have hpublic := (findPublicPlace_isPublic_iff hcomplete hlabels hplace).2 hkeeps
  simp [haccess] at hpublic

end ClassEdit
