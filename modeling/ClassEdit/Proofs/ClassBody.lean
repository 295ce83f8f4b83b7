import ClassEdit.Edit.PublicPlace
import ClassEdit.Proofs.Definitions
import ClassEdit.Proofs.TokenOrder

/-!
# Class bodies

A body is read from left to right: a label sets the access of all members after it. Since the nodes
of a body follow each other in the text, the access of a member is the one of the last label before
it, and all other labels stand after the member.

## Main definitions

* `labelsIn`: the access labels of a body.
* `RecordSource.accessAt`: the access that applies at an offset of a body.
* `RecordSource.IsComplete`: the definition has a head, and a body between its braces.

## Main statements

* `reading_of_block`: members and labels in the order of the text.
* `Context.tokenBounds_spec`: the last token of a declaration.
* `exists_member_of_lastPublicMethod?`: the declaration of a member function.
-/

namespace ClassEdit

/-! ## Labels -/

/-- What a node does for the reading of the body it stands in. -/
inductive BodyRole where
  /-- Sets the access of what follows. -/
  | label
  /-- Declares members. -/
  | declaration
  /-- Is read as if its children stood in its place. -/
  | block
  | other

/-- What the tree does for the reading of the body it stands in. -/
def Tree.bodyRole (t : Tree) : BodyRole :=
  if t.root.isNamed then
    match t.kind with
    | .accessSpecifier => .label
    | .fieldDeclaration | .declaration | .functionDefinition => .declaration
    | .preprocIf | .preprocIfdef | .preprocElse | .preprocElif | .preprocElifdef => .block
    | _ => .other
  else .other

/-- An access label of a class and the access it stands for. -/
structure AccessLabel where
  tree : Tree
  access : Access

mutual

/-- The access labels among the children of a tree, in order. -/
def labelsIn (label : Tree → Option Access) : Tree → List AccessLabel
  | .node _ children => labelsInAll label children

/-- The access labels among some trees, those inside of conditional blocks included. -/
def labelsInAll (label : Tree → Option Access) : List Tree → List AccessLabel
  | [] => []
  | t :: ts =>
    match t.bodyRole with
    | .label => (label t).toList.map (⟨t, ·⟩) ++ labelsInAll label ts
    | .block => labelsIn label t ++ labelsInAll label ts
    | .declaration | .other => labelsInAll label ts

end

/-- The access that applies after some labels. -/
def accessAfter (access : Access) (labels : List AccessLabel) : Access :=
  (labels.getLast?.map (·.access)).getD access

@[simp] theorem accessAfter_nil (access : Access) : accessAfter access [] = access := rfl

@[simp] theorem accessAfter_append (access : Access) (xs ys : List AccessLabel) :
    accessAfter access (xs ++ ys) = accessAfter (accessAfter access xs) ys := by
  rcases List.eq_nil_or_concat ys with rfl | ⟨ys, y, rfl⟩
  · simp
  · simp [accessAfter, ← List.append_assoc]

theorem accessAfter_eq_iff {access new : Access} {labels : List AccessLabel} :
    accessAfter access labels = new ↔
      match labels.getLast? with
      | some l => l.access = new
      | none => access = new := by
  cases h : labels.getLast? <;> simp [accessAfter, h]

theorem accessAfter_eq_iff_of_forall {access new : Access} {labels : List AccessLabel}
    (h : ∀ l ∈ labels, l.access = new) :
    accessAfter access labels = new ↔ labels ≠ [] ∨ access = new := by
  obtain rfl | ⟨front, last, rfl⟩ := List.eq_nil_or_concat labels
  · simp
  · simp [accessAfter, h last (by simp)]

theorem label_of_mem_labelsInAll {label : Tree → Option Access} {l : AccessLabel} {ts : List Tree}
    (hts : ∀ t ∈ ts, l ∈ labelsIn label t → label l.tree = some l.access)
    (h : l ∈ labelsInAll label ts) : label l.tree = some l.access := by
  induction ts with
  | nil => simp [labelsInAll] at h
  | cons t ts ih =>
    obtain ⟨htree, hts⟩ := List.forall_mem_cons.1 hts
    rw [labelsInAll] at h
    cases hrole : t.bodyRole with
    | label =>
      simp only [hrole, List.mem_append, List.mem_map, Option.mem_toList] at h
      obtain ⟨access, haccess, rfl⟩ | h := h
      · exact haccess
      · exact ih hts h
    | block =>
      simp only [hrole, List.mem_append] at h
      exact h.elim htree (ih hts)
    | declaration | other =>
      simp only [hrole] at h
      exact ih hts h

/-- A label stands for the access that it has. -/
theorem label_of_mem_labelsIn {label : Tree → Option Access} {l : AccessLabel} {t : Tree}
    (h : l ∈ labelsIn label t) : label l.tree = some l.access := by
  induction t using Tree.induction with
  | step root children ih =>
    rw [labelsIn] at h
    exact label_of_mem_labelsInAll ih h

theorem labelsInAll_concat {label : Tree → Option Access} {last : Tree}
    (hlast : last.bodyRole = .other) (ts : List Tree) :
    labelsInAll label (ts ++ [last]) = labelsInAll label ts := by
  induction ts with
  | nil => simp [labelsInAll, hlast]
  | cons t ts ih => rw [List.cons_append, labelsInAll, labelsInAll, ih]

/-! ## Reading a body -/

theorem readMembers_cons {α : Type} (label : Tree → Option Access)
    (members : Access → Tree → List α) (access : Access) (t : Tree) (ts : List Tree) :
    readMembers label members access (t :: ts) =
      match t.bodyRole with
      | .label => readMembers label members ((label t).getD access) ts
      | .declaration =>
        (members access t ++ (readMembers label members access ts).1,
          (readMembers label members access ts).2)
      | .block =>
        ((readBlock label members access t).1 ++
            (readMembers label members (readBlock label members access t).2 ts).1,
          (readMembers label members (readBlock label members access t).2 ts).2)
      | .other => readMembers label members access ts := by
  rw [readMembers, Tree.bodyRole]
  split_ifs
  · cases t.kind <;> rfl
  · rfl

theorem readMembers_concat {α : Type} {label : Tree → Option Access}
    {members : Access → Tree → List α} {access : Access} {last : Tree}
    (hlast : last.bodyRole = .other) (ts : List Tree) :
    readMembers label members access (ts ++ [last]) = readMembers label members access ts := by
  induction ts generalizing access with
  | nil => rw [List.nil_append, readMembers_cons, hlast]
  | cons t ts ih => simp only [List.cons_append, readMembers_cons, ih]

/-- What a reading of part of a body from `access` on finds between `low` and `high`: labels in
order, and members that each have the access of the labels before it. -/
structure Reading (access : Access) (low high : Nat) (labels : List AccessLabel)
    (result : List (Access × Tree) × Access) : Prop where
  ordered : labels.Pairwise fun a b => a.tree.Before b.tree
  inside : ∀ l ∈ labels, low ≤ l.tree.root.start ∧ l.tree.root.start ≤ l.tree.root.stop ∧
    l.tree.root.stop ≤ high
  after : result.2 = accessAfter access labels
  members : ∀ m ∈ result.1, ∃ before later, labels = before ++ later ∧
    (∀ l ∈ before, l.tree.Before m.2) ∧ (∀ l ∈ later, m.2.Before l.tree) ∧
    m.1 = accessAfter access before ∧ low ≤ m.2.root.start ∧ m.2.root.stop ≤ high

namespace Reading

variable {access : Access} {low mid high : Nat} {xs ys : List AccessLabel}
  {r r' : List (Access × Tree) × Access}

theorem empty (access : Access) (low high : Nat) : Reading access low high [] ([], access) where
  ordered := .nil
  inside := by simp
  after := rfl
  members := by simp

theorem widen {low' high' : Nat} (h : Reading access low high xs r) (hlow : low' ≤ low)
    (hhigh : high ≤ high') : Reading access low' high' xs r where
  ordered := h.ordered
  inside := fun l hl => by
    obtain ⟨hstart, hle, hstop⟩ := h.inside l hl
    exact ⟨hlow.trans hstart, hle, hstop.trans hhigh⟩
  after := h.after
  members := fun m hm => by
    obtain ⟨before, later, hsplit, hbefore, hlater, haccess, hstart, hstop⟩ := h.members m hm
    exact ⟨before, later, hsplit, hbefore, hlater, haccess, hlow.trans hstart, hstop.trans hhigh⟩

/-- One reading after the other. -/
theorem append (h : Reading access low mid xs r) (h' : Reading r.2 mid high ys r')
    (hlow : low ≤ mid) (hhigh : mid ≤ high) :
    Reading access low high (xs ++ ys) (r.1 ++ r'.1, r'.2) where
  ordered := by
    refine List.pairwise_append.2 ⟨h.ordered, h'.ordered, fun a ha b hb => ?_⟩
    exact (h.inside a ha).2.2.trans (h'.inside b hb).1
  inside := fun l hl => by
    obtain hl | hl := List.mem_append.1 hl
    · exact (h.widen (Nat.le_refl _) hhigh).inside l hl
    · exact (h'.widen hlow (Nat.le_refl _)).inside l hl
  after := by rw [accessAfter_append, ← h.after, h'.after]
  members := fun m hm => by
    obtain hm | hm := List.mem_append.1 hm
    · obtain ⟨before, later, rfl, hbefore, hlater, haccess, hstart, hstop⟩ := h.members m hm
      refine ⟨before, later ++ ys, by simp, hbefore, fun l hl => ?_, haccess, hstart,
        hstop.trans hhigh⟩
      obtain hl | hl := List.mem_append.1 hl
      · exact hlater l hl
      · exact hstop.trans (h'.inside l hl).1
    · obtain ⟨before, later, rfl, hbefore, hlater, haccess, hstart, hstop⟩ := h'.members m hm
      refine ⟨xs ++ before, later, by simp, fun l hl => ?_, hlater, ?_, hlow.trans hstart, hstop⟩
      · obtain hl | hl := List.mem_append.1 hl
        · exact (h.inside l hl).2.2.trans hstart
        · exact hbefore l hl
      · rw [accessAfter_append, ← h.after, haccess]

theorem label (t : Tree) (access new : Access) (ht : t.root.start ≤ t.root.stop) :
    Reading access t.root.start t.root.stop [⟨t, new⟩] ([], new) where
  ordered := List.pairwise_singleton _ _
  inside := fun l hl => by
    obtain rfl := List.mem_singleton.1 hl
    exact ⟨Nat.le_refl _, ht, Nat.le_refl _⟩
  after := rfl
  members := by simp

theorem member (t : Tree) (access : Access) :
    Reading access t.root.start t.root.stop [] ([(access, t)], access) where
  ordered := .nil
  inside := by simp
  after := rfl
  members := fun m hm => by
    obtain rfl := List.mem_singleton.1 hm
    exact ⟨[], [], rfl, by simp, by simp, rfl, Nat.le_refl _, Nat.le_refl _⟩

end Reading

variable {text : List Char} {label : Tree → Option Access}

/-- A row is read tree by tree. -/
theorem reading_of_row {ts : List Tree} {access : Access} {low high : Nat}
    (hts : ∀ t ∈ ts, ∀ access, t.WellFormed text →
      Reading access t.root.start t.root.stop (labelsIn label t)
        (readBlock label (fun access t => [(access, t)]) access t))
    (h : Tree.RowWellFormed text low high ts) :
    Reading access low high (labelsInAll label ts)
      (readMembers label (fun access t => [(access, t)]) access ts) := by
  induction ts generalizing access low with
  | nil => simpa only [labelsInAll, readMembers] using Reading.empty access low high
  | cons t ts ih =>
    rw [Tree.RowWellFormed] at h
    obtain ⟨hlow, ht, hrow⟩ := h
    obtain ⟨htree, hts⟩ := List.forall_mem_cons.1 hts
    have hle := ht.start_le_stop
    have hhigh : t.root.stop ≤ high := (Tree.rowWellFormed_iff.1 hrow).1
    have hrest := fun access => @ih access t.root.stop hts hrow
    -- Whatever the first tree contributes is followed by what the others do.
    have hstep : ∀ {xs r}, Reading access t.root.start t.root.stop xs r →
        Reading access low high (xs ++ labelsInAll label ts)
          (r.1 ++ (readMembers label (fun access t => [(access, t)]) r.2 ts).1,
            (readMembers label (fun access t => [(access, t)]) r.2 ts).2) :=
      fun hfirst => (hfirst.append (hrest _) hle hhigh).widen hlow (Nat.le_refl _)
    have hskip := hstep (Reading.empty access t.root.start t.root.stop)
    rw [labelsInAll, readMembers_cons]
    cases t.bodyRole with
    | label =>
      cases hlabel : label t with
      | none => simpa [hlabel] using hskip
      | some new => simpa [hlabel] using hstep (Reading.label t access new hle)
    | declaration => simpa using hstep (Reading.member t access)
    | block => simpa using hstep (htree access ht)
    | other => simpa using hskip

/-- Members and labels of a block are in the order of the text. -/
theorem reading_of_block {t : Tree} {access : Access} (h : t.WellFormed text) :
    Reading access t.root.start t.root.stop (labelsIn label t)
      (readBlock label (fun access t => [(access, t)]) access t) := by
  induction t using Tree.induction generalizing access with
  | step root children ih =>
    rw [labelsIn, readBlock]
    exact reading_of_row (fun c hc access hwf => ih c hc hwf) h.row

section Members

variable {α : Type} (members : Access → Tree → List α)

theorem readMembers_eq_flatMap {ts : List Tree} {access : Access}
    (hts : ∀ t ∈ ts, ∀ access, readBlock label members access t =
      ((readBlock label (fun access t => [(access, t)]) access t).1.flatMap
        (fun m => members m.1 m.2),
        (readBlock label (fun access t => [(access, t)]) access t).2)) :
    readMembers label members access ts =
      ((readMembers label (fun access t => [(access, t)]) access ts).1.flatMap
        (fun m => members m.1 m.2),
        (readMembers label (fun access t => [(access, t)]) access ts).2) := by
  induction ts generalizing access with
  | nil => simp [readMembers]
  | cons t ts ih =>
    obtain ⟨htree, hts⟩ := List.forall_mem_cons.1 hts
    rw [readMembers_cons, readMembers_cons]
    cases t.bodyRole with
    | label => exact ih hts
    | declaration => simp [ih hts]
    | block => simp [htree, ih hts]
    | other => exact ih hts

/-- The members of a block are those of its declarations, each read with its access. -/
theorem readBlock_eq_flatMap (access : Access) (t : Tree) :
    readBlock label members access t =
      ((readBlock label (fun access t => [(access, t)]) access t).1.flatMap
        (fun m => members m.1 m.2),
        (readBlock label (fun access t => [(access, t)]) access t).2) := by
  induction t using Tree.induction generalizing access with
  | step root children ih =>
    rw [readBlock, readBlock]
    exact readMembers_eq_flatMap members fun c hc access => ih c hc access

end Members

/-! ## Definitions -/

/-- The tree is covered by one token, of the given kind. -/
def Source.HasToken (s : Source) (kind : TokenKind) (t : Tree) : Prop :=
  ∃ token ∈ s.tokens.toList, token.kind = kind ∧ token.start = t.root.start ∧
    token.stop = t.root.stop

instance (s : Source) (kind : TokenKind) (t : Tree) : Decidable (s.HasToken kind t) :=
  inferInstanceAs (Decidable (∃ token ∈ s.tokens.toList, token.kind = kind ∧
    token.start = t.root.start ∧ token.stop = t.root.stop))

theorem Source.Lexed.kind_eq_of_hasToken {s : Source} (h : s.Lexed) {kind kind' : TokenKind}
    {t : Tree} (ht : s.HasToken kind t) (ht' : s.HasToken kind' t) : kind = kind' := by
  obtain ⟨a, ha, rfl, hastart, hastop⟩ := ht
  obtain ⟨b, hb, rfl, hbstart, hbstop⟩ := ht'
  have := h.nonempty a ha
  obtain rfl | hab | hba := h.eq_or_before ha hb
  · rfl
  all_goals omega

theorem Access.toList_word_ne (access : Access) :
    access.word.toList ≠ [] ∧ access.word.toList ≠ Text.trim [';'] := by
  cases access <;> decide

theorem Access.eq_word_of_ofWord? {word : String} {access : Access}
    (h : Access.ofWord? word = some access) : word = access.word := by
  unfold Access.ofWord? at h
  split at h
  case h_1 | h_2 | h_3 =>
    obtain rfl := Option.some.inj h
    rfl
  case h_4 => cases h

namespace RecordSource

/-- The access that a node stands for as a label. -/
def labelOf (source : Source) (t : Tree) : Option Access :=
  Access.ofWord? (Text.trimmed (source.textOf t))

/-- The access labels of the body. -/
def labels (r : RecordSource) (source : Source) : List AccessLabel :=
  labelsIn (labelOf source) r.body

/-- The declarations of the body, each with its access. -/
def members (r : RecordSource) (source : Source) : List (Access × Tree) :=
  (readBlock (labelOf source) (fun access t => [(access, t)]) r.key.defaultAccess r.body).1

/-- The member functions of one declaration of the body. -/
def methodsOf (r : RecordSource) (source : Source) (names : Names) (id : RecordId)
    (access : Access) (t : Tree) : List Method :=
  (t.childrenIn .declarator).filterMap
    (readMethod? ⟨source, names, r.name :: r.scope⟩ id r access t)

/-- The access that applies at an offset of the body: that of the last label that ends there or
before, or else that of the class-key. -/
def accessAt (r : RecordSource) (source : Source) (offset : Nat) : Access :=
  accessAfter r.key.defaultAccess ((r.labels source).filter (·.tree.root.stop ≤ offset))

/-- The definition has a token before its body, the body goes from one brace to the other, and
every declaration of member functions has a token. -/
structure IsComplete (r : RecordSource) (source : Source) (names : Names) (id : RecordId) :
    Prop where
  head : ∃ token ∈ source.tokens.toList,
    r.tree.root.start ≤ token.start ∧ token.stop ≤ r.body.root.start
  opening : ∃ brace ∈ r.body.children.head?, brace.root.isNamed = false ∧
    source.HasToken .lBrace brace
  closing : ∃ brace ∈ r.body.children.getLast?, brace.root.isNamed = false ∧
    source.HasToken .rBrace brace
  declared : ∀ m ∈ r.members source, r.methodsOf source names id m.1 m.2 ≠ [] →
    source.tokensIn m.2.range ≠ []

variable {r : RecordSource} {source : Source} {names : Names} {id : RecordId}

instance : Decidable (r.IsComplete source names id) :=
  decidable_of_iff
    ((∃ token ∈ source.tokens.toList,
        r.tree.root.start ≤ token.start ∧ token.stop ≤ r.body.root.start) ∧
      (∃ brace ∈ r.body.children.head?, brace.root.isNamed = false ∧
        source.HasToken .lBrace brace) ∧
      (∃ brace ∈ r.body.children.getLast?, brace.root.isNamed = false ∧
        source.HasToken .rBrace brace) ∧
      ∀ m ∈ r.members source, r.methodsOf source names id m.1 m.2 ≠ [] →
        source.tokensIn m.2.range ≠ [])
    ⟨fun ⟨head, opening, closing, declared⟩ => ⟨head, opening, closing, declared⟩,
      fun h => ⟨h.head, h.opening, h.closing, h.declared⟩⟩

/-- A label is a keyword between blanks. -/
theorem exists_text_of_mem_labels {l : AccessLabel} (h : l ∈ r.labels source) :
    ∃ part, Text.slice? source.text l.tree.root.start l.tree.root.stop = some part ∧
      Text.trim part = l.access.word.toList := by
  have hword := Access.eq_word_of_ofWord? (label_of_mem_labelsIn h)
  have htext : source.textOf l.tree = String.ofList
      ((Text.slice? source.text l.tree.root.start l.tree.root.stop).getD []) := rfl
  rw [htext, Text.trimmed, String.toList_ofList] at hword
  cases hpart : Text.slice? source.text l.tree.root.start l.tree.root.stop with
  | some part =>
    refine ⟨part, rfl, ?_⟩
    rw [← hword, String.toList_ofList, hpart]
    rfl
  | none =>
    rw [hpart] at hword
    exact absurd (congrArg String.toList hword.symm) l.access.toList_word_ne.1

theorem readMethods_eq_flatMap :
    r.readMethods source names id =
      (r.members source).flatMap fun m => r.methodsOf source names id m.1 m.2 :=
  congrArg Prod.fst (readBlock_eq_flatMap (r.methodsOf source names id) r.key.defaultAccess r.body)

/-- The children of a complete body are its braces and the row between them, in which all labels and
members stand. -/
theorem IsComplete.exists_braces {text : List Char} (h : r.IsComplete source names id)
    (hlexed : source.Lexed) (hbody : r.body.WellFormed text) :
    ∃ opening row closing, r.body.children = opening :: (row ++ [closing]) ∧
      source.HasToken .lBrace opening ∧ source.HasToken .rBrace closing ∧
      Reading r.key.defaultAccess opening.root.stop closing.root.start (r.labels source)
        (readBlock (labelOf source) (fun access t => [(access, t)]) r.key.defaultAccess
          r.body) := by
  obtain ⟨opening, hopening, hnamed, hfirst⟩ := h.opening
  obtain ⟨closing, hclosing, hnamed', hlast⟩ := h.closing
  obtain ⟨rest, hrest⟩ := List.head?_eq_some_iff.1 hopening
  have hne : rest ≠ [] := by
    rintro rfl
    obtain rfl : opening = closing := by simpa [hrest] using hclosing
    exact absurd (hlexed.kind_eq_of_hasToken hfirst hlast) (by decide)
  obtain ⟨row, hrow⟩ : ∃ row, rest = row ++ [closing] := by
    refine List.getLast?_eq_some_iff.1 ?_
    rwa [hrest, List.getLast?_cons_of_ne_nil hne] at hclosing
  subst hrow
  refine ⟨opening, row, closing, hrest, hfirst, hlast, ?_⟩
  obtain ⟨-, hpair, hall⟩ := Tree.rowWellFormed_iff.1 hbody.row
  rw [hrest, List.pairwise_cons, List.pairwise_append] at hpair
  obtain ⟨hafter, hpair, -, hbefore⟩ := hpair
  have hwf : Tree.RowWellFormed text opening.root.stop closing.root.start row := by
    refine Tree.rowWellFormed_iff.2 ⟨hafter closing (by simp), hpair, fun t ht => ?_⟩
    exact ⟨(hall t (by simp [hrest, ht])).1, hafter t (by simp [ht]),
      hbefore t ht closing (by simp)⟩
  have hother : opening.bodyRole = .other := by simp [Tree.bodyRole, hnamed]
  have hother' : closing.bodyRole = .other := by simp [Tree.bodyRole, hnamed']
  have hread := @reading_of_row text (labelOf source) _ r.key.defaultAccess _ _
    (fun t _ access hwf => reading_of_block hwf) hwf
  rw [labels]
  cases hr : r.body with
  | node root children =>
    simp only [hr, Tree.children] at hrest
    rw [labelsIn, readBlock, hrest, labelsInAll, readMembers_cons, hother]
    simpa only [labelsInAll_concat hother', readMembers_concat hother'] using hread

end RecordSource

/-! ## Member functions -/

namespace Context

/-- The last token of a declaration is the last one that is no semicolon, or else the first one. -/
theorem exists_last (ctx : Context) (t : Tree) (hne : ctx.source.tokensIn t.range ≠ []) :
    ∃ xs last ys, ctx.source.tokensIn t.range = xs ++ last :: ys ∧
      (ctx.tokenBounds t).2 = last.start ∧ ∀ token ∈ ys, token.kind = .semi := by
  cases hfind : (ctx.source.tokensIn t.range).reverse.find? (·.kind ≠ .semi) with
  | some last =>
    obtain ⟨hkind, xs, ys, hsplit, hsemi⟩ := List.find?_eq_some_iff_append.1 hfind
    refine ⟨ys.reverse, last, xs.reverse, ?_, ?_, ?_⟩
    · rw [List.reverse_eq_iff.1 hsplit]
      simp
    · rw [tokenBounds, hfind]
      rfl
    · intro token htoken
      simpa using hsemi token (List.mem_reverse.1 htoken)
  | none =>
    obtain ⟨first, rest, hfirst⟩ := List.exists_cons_of_ne_nil hne
    refine ⟨[], first, rest, hfirst, ?_, ?_⟩
    · rw [tokenBounds, hfind]
      simp [hfirst]
    · intro token htoken
      have := List.find?_eq_none.1 hfind token (by simp [hfirst, htoken])
      simpa using this

/-- The last token of a declaration that holds tokens: what follows it there is semicolons. -/
theorem tokenBounds_spec (ctx : Context) (t : Tree) (h : ctx.source.Lexed)
    (hne : ctx.source.tokensIn t.range ≠ []) :
    ∃ before last after, ctx.source.tokens.toList = before ++ last :: after ∧
      (ctx.tokenBounds t).2 = last.start ∧ t.root.start ≤ last.start ∧
      last.start < t.root.stop ∧
      ∀ token ∈ after, token.start < t.root.stop → token.kind = .semi := by
  obtain ⟨xs, last, ys, hsplit, hbounds, hsemi⟩ := ctx.exists_last t hne
  have hmem : ∀ token, token ∈ xs ++ last :: ys ↔ token ∈ ctx.source.tokens.toList ∧
      t.root.start ≤ token.start ∧ token.start < t.root.stop :=
    fun token => hsplit ▸ h.mem_tokensIn_iff
  have hordered := h.pairwise_tokensIn t
  rw [hsplit] at hordered
  obtain ⟨hlast, hstart, hstop⟩ := (hmem last).1 (by simp)
  obtain ⟨before, after, hall⟩ := List.append_of_mem hlast
  refine ⟨before, last, after, hall, hbounds, hstart, hstop, fun token htoken hlt => ?_⟩
  have hafter := h.stop_le_start hall htoken
  have hnonempty := h.nonempty last hlast
  have htoken : token ∈ ctx.source.tokens.toList := by simp [hall, htoken]
  obtain hin | hin := List.mem_append.1 ((hmem token).2 ⟨htoken, by omega, hlt⟩)
  · have : token.stop ≤ last.start :=
      (List.pairwise_append.1 hordered).2.2 token hin last List.mem_cons_self
    have := h.nonempty token htoken
    omega
  · obtain rfl | hin := List.mem_cons.1 hin
    · omega
    · exact hsemi token hin

end Context

theorem Record.lastPublicMethod?_eq_some {record : Record} {method : Method}
    (h : record.lastPublicMethod? = some method) :
    method ∈ record.methods ∧ method.access = .pub ∧ method.isImplicit = false := by
  have hmem := List.mem_of_getLast? h
  have hpublic := List.mem_takeWhile_imp hmem
  refine ⟨List.dropWhile_subset _ (List.takeWhile_subset _ hmem), ?_⟩
  simpa [Method.isExplicitPublic] using hpublic

/-- The members that the language declares differ in their signatures only. -/
theorem Record.exists_of_mem_implicitMethods {record : Record} {method : Method}
    (h : method ∈ record.implicitMethods) :
    ∃ name returnType params kind, (name = "operator=" ∨ name = "~" ++ record.name) ∧
      method = record.implicitMethod name returnType params kind := by
  have hone : ∀ {present : Bool} {x : Method}, method ∈ (if present then [] else [x]) →
      method = x := by
    intro present x hx
    split_ifs at hx
    · cases hx
    · exact List.mem_singleton.1 hx
  unfold implicitMethods at h
  simp only [List.mem_append] at h
  obtain (h | h) | h := h
  · exact ⟨_, _, _, _, .inl rfl, hone h⟩
  · exact ⟨_, _, _, _, .inl rfl, hone h⟩
  · exact ⟨_, _, _, _, .inr rfl, hone h⟩

theorem Record.isImplicit_of_mem_implicitMethods {record : Record} {method : Method}
    (h : method ∈ record.implicitMethods) : method.isImplicit = true := by
  obtain ⟨_, _, _, _, -, rfl⟩ := Record.exists_of_mem_implicitMethods h
  rfl

theorem Context.last_of_readFunction? {ctx : Context} {t declarator : Tree} {qualifier : String}
    {signature : Signature} (h : ctx.readFunction? t declarator qualifier = some signature) :
    signature.function.last = (ctx.tokenBounds t).2 := by
  obtain ⟨parts, -, h⟩ := Option.bind_eq_some_iff.1 h
  obtain rfl := Option.some.inj h
  rfl

theorem readMethod?_eq_some {ctx : Context} {id : RecordId} {r : RecordSource} {access : Access}
    {t declarator : Tree} {method : Method}
    (h : readMethod? ctx id r access t declarator = some method) :
    method.access = access ∧ method.last = (ctx.tokenBounds t).2 := by
  obtain ⟨signature, hsignature, h⟩ := Option.bind_eq_some_iff.1 h
  simp only [Option.ite_none_left_eq_some, Option.some.injEq] at h
  obtain ⟨-, rfl⟩ := h
  exact ⟨rfl, ctx.last_of_readFunction? hsignature⟩

/-- The public member function after which new ones go is declared in the body. -/
theorem exists_member_of_lastPublicMethod? {definition : RecordSource} {source : Source}
    {names : Names} {id : RecordId} {bases : List BaseSpecifier} {isDynamic : Bool}
    {method : Method}
    (h : ((definition.read source names id bases).complete isDynamic).lastPublicMethod? =
      some method) :
    ∃ t, (Access.pub, t) ∈ definition.members source ∧
      definition.methodsOf source names id .pub t ≠ [] ∧
      method.last =
        (Context.tokenBounds ⟨source, names, definition.name :: definition.scope⟩ t).2 := by
  obtain ⟨hmem, hpublic, hexplicit⟩ := Record.lastPublicMethod?_eq_some h
  have hread : method ∈ definition.readMethods source names id := by
    obtain hmem | hmem := List.mem_append.1 hmem
    · exact hmem
    · split_ifs at hmem
      · simp [Record.isImplicit_of_mem_implicitMethods hmem] at hexplicit
      · cases hmem
  rw [RecordSource.readMethods_eq_flatMap] at hread
  obtain ⟨⟨access, t⟩, hmember, hmethod⟩ := List.mem_flatMap.1 hread
  obtain ⟨declarator, -, hdeclared⟩ := List.mem_filterMap.1 hmethod
  obtain ⟨rfl, hlast⟩ := readMethod?_eq_some hdeclared
  rw [hpublic] at hmember hmethod
  exact ⟨t, hmember, List.ne_nil_of_mem hmethod, hlast⟩

end ClassEdit
