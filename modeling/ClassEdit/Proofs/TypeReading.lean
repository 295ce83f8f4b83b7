import ClassEdit.Proofs.LayerReading

/-!
# Reading types back

A type can be read back from its spelling. The lexemes are gone through from the left: the
qualifiers and the name of the leaf, the list in angle brackets if it is a template, then the
sigils, the group in parentheses and the suffixes of the declarator. What comes next is decided by
one lexeme, except that a parenthesis starts a group if a sigil comes after it and a parameter list
if not. Two readable types whose spellings go on with the end of a list or of the text are the same
as written, or their lexemes differ before that.

## Main definitions

* `goesOn`, `opensGroup`: what a declarator goes on with.
* `Layer.IsRow`: rows of layers as readable types have them.
* `Layer.RowReadsBack`, `CType.LeafReadsBack`: what is written like the layers, or the leaf, is the
  same.

## Main statements

* `arrange_cancel`: the layers of a declarator are read back.
* `CType.IsReadable.readsBack`: readable types are read back.
* `CType.spell_eq_iff_asWritten_eq`: equal spellings are those of the same written type.
-/

namespace ClassEdit

/-! ## Declarators -/

/-- Whether a rest goes on with a suffix, or with a sigil, if it goes on with a layer. -/
def goesOn (rest : List (List Char)) : Option Bool :=
  rest.head?.bind fun first =>
    if first = ['*'] ∨ first = ['&'] then some false
    else if first = ['['] ∨ first = ['('] then some true
    else none

/-- Whether a rest starts with a group in parentheses. -/
def opensGroup (rest : List (List Char)) : Bool :=
  rest.head? = some ['('] && goesOn rest.tail = some false

theorem goesOn_of_startsIn {rest : List (List Char)} (h : StartsIn typeStops rest) :
    goesOn rest = none := by
  cases rest with
  | nil => rfl
  | cons first rest =>
    rw [startsIn_cons] at h
    revert first
    simp [typeStops, goesOn]

theorem IsWord.goesOn_cons {word : String} (h : IsWord word) (rest : List (List Char)) :
    goesOn (word.toList :: rest) = none := by
  have hmarks : ∀ c ∈ ['*', '&', '[', '('], word.toList ≠ [c] := by
    intro c hc
    apply h.toList_ne
    simp only [List.mem_cons, List.not_mem_nil, or_false] at hc
    obtain rfl | rfl | rfl | rfl := hc <;> decide
  simp_all [goesOn]

theorem endsQualifiers_of_goesOn {rest : List (List Char)} {isSuffix : Bool}
    (h : goesOn rest = some isSuffix) : EndsQualifiers rest := by
  intro word hword
  constructor <;> rintro rfl <;> simp_all [goesOn]

theorem endsQualifiers_of_startsIn {rest : List (List Char)} (h : StartsIn typeStops rest) :
    EndsQualifiers rest := by
  intro word hword
  have hmem := h word hword
  constructor <;> rintro rfl <;> simp [typeStops] at hmem

namespace Layer

/-- Rows of layers as readable types have them. -/
structure IsRow (layers : List Layer) : Prop where
  readable : ∀ layer ∈ layers, layer.IsReadable
  chain : layers.IsChain fun a b => a.isReference = true → b.isReference = false

theorem IsRow.of_append_right {left right : List Layer} (h : IsRow (left ++ right)) :
    IsRow right where
  readable layer hlayer := h.readable layer (by simp [hlayer])
  chain := (List.isChain_append.1 h.chain).2.1

theorem IsRow.tail {layer : Layer} {layers : List Layer} (h : IsRow (layer :: layers)) :
    IsRow layers :=
  @of_append_right [layer] layers h

theorem goesOn_reading_append {layer : Layer} (h : layer.IsReadable) (rest : List (List Char)) :
    goesOn (layer.reading ++ rest) = some layer.isSuffix := by
  obtain ⟨tail, htail⟩ := exists_reading_eq h
  rw [htail]
  cases layer <;> simp [goesOn, opening, isSuffix]

theorem endsBefore_of_isSuffix {layer : Layer} (h : layer.isSuffix = true)
    (rest : List (List Char)) : layer.EndsBefore rest := by
  cases layer with
  | pointer | reference => cases h
  | array | function => trivial

/-- A parameter list is not taken for a group. -/
theorem opensGroup_reading_append {layer : Layer} (h : layer.IsReadable)
    (hsuffix : layer.isSuffix = true) (rest : List (List Char)) :
    opensGroup (layer.reading ++ rest) = false := by
  cases layer with
  | pointer | reference => cases hsuffix
  | array => simp [opensGroup, reading_array h]
  | function params isVariadic =>
    rw [reading_function]
    cases params with
    | nil => cases isVariadic <;> simp [opensGroup, goesOn, typeEntries, dots]
    | cons t params =>
      obtain ⟨word, tail, hword, hreading⟩ := (h t (by simp)).exists_word
      simp [opensGroup, typeEntries, intercalate_cons, hreading, hword.goesOn_cons]

end Layer

section

variable {layers : List Layer} {rest : List (List Char)}

theorem goesOn_arrangeGroup (hlayers : ∀ layer ∈ layers, layer.IsReadable)
    (hrest : goesOn rest = some true) :
    goesOn (arrangeGroup Layer.reading [] layers ++ rest) = some true := by
  induction layers generalizing rest with
  | nil => exact hrest
  | cons layer outer ih =>
    rw [arrangeGroup]
    split
    case isTrue hsuffix =>
      rw [List.append_assoc]
      apply ih fun layer hlayer => hlayers layer (by simp [hlayer])
      rw [Layer.goesOn_reading_append (hlayers layer (by simp)), hsuffix]
    case isFalse => simp [goesOn]

/-- What a declarator starts with tells what its innermost layer is. -/
theorem goesOn_arrange (hlayers : ∀ layer ∈ layers, layer.IsReadable)
    (hrest : StartsIn typeStops rest) :
    goesOn (arrange Layer.reading [] layers ++ rest) = layers.head?.map Layer.isSuffix := by
  cases layers with
  | nil => exact goesOn_of_startsIn hrest
  | cons layer outer =>
    have hlayer := Layer.goesOn_reading_append (hlayers layer (by simp))
    rw [arrange]
    split
    case isTrue hsuffix =>
      have houter := (List.forall_mem_cons.1 hlayers).2
      rw [List.append_assoc,
        goesOn_arrangeGroup houter ((hlayer rest).trans (congrArg some hsuffix))]
      simp [hsuffix]
    case isFalse => rw [List.append_assoc, hlayer]; rfl

/-- What comes before a suffix starts with a group if there is a sigil further out. -/
theorem opensGroup_arrangeGroup (hlayers : ∀ layer ∈ layers, layer.IsReadable)
    (hrest : opensGroup rest = false) :
    opensGroup (arrangeGroup Layer.reading [] layers ++ rest) = layers.any (!·.isSuffix) := by
  induction layers generalizing rest with
  | nil => exact hrest
  | cons layer outer ih =>
    have hlayer := hlayers layer (by simp)
    rw [arrangeGroup]
    split
    case isTrue hsuffix =>
      rw [List.append_assoc, ih (fun layer hlayer => hlayers layer (by simp [hlayer]))
        (Layer.opensGroup_reading_append hlayer hsuffix rest)]
      simp [hsuffix]
    case isFalse hsuffix =>
      have hsigil : layer.isSuffix = false := by simpa using hsuffix
      simp [opensGroup, Layer.goesOn_reading_append hlayer, hsigil]

/-- A sigil ends before what is outside of it. -/
theorem endsBefore_arrange {layer : Layer} (hrow : Layer.IsRow (layer :: layers))
    (hrest : StartsIn typeStops rest) :
    layer.EndsBefore (arrange Layer.reading [] layers ++ rest) := by
  have hgoesOn := goesOn_arrange hrow.tail.readable hrest
  cases layer with
  | pointer =>
    cases layers with
    | nil => exact endsQualifiers_of_startsIn hrest
    | cons next outer => exact endsQualifiers_of_goesOn hgoesOn
  | reference =>
    intro hhead
    have hsigil : goesOn (arrange Layer.reading [] layers ++ rest) = some false := by
      rw [goesOn, hhead]
      rfl
    rw [hsigil] at hgoesOn
    cases layers with
    | nil => cases hgoesOn
    | cons next outer =>
      have hnext : next.isReference = false := (List.isChain_cons_cons.1 hrow.chain).1 rfl
      cases next with
      | pointer => simp [arrange, Layer.isSuffix, Layer.reading_pointer] at hhead
      | reference => cases hnext
      | array | function => cases hgoesOn
  | array | function => trivial

theorem arrangeGroup_append_suffixes {suffixes : List Layer}
    (hsuffixes : ∀ layer ∈ suffixes, layer.isSuffix = true) (layers : List Layer) :
    arrangeGroup Layer.reading [] (suffixes ++ layers) =
      arrangeGroup Layer.reading [] layers ++ suffixes.reverse.flatMap Layer.reading := by
  induction suffixes with
  | nil => simp
  | cons layer suffixes ih =>
    rw [List.cons_append, arrangeGroup, if_pos (hsuffixes layer (by simp)),
      ih fun layer hlayer => hsuffixes layer (by simp [hlayer])]
    simp

end

/-- A row of suffixes is read back if each of them is. -/
theorem suffixes_cancel {layers layers' : List Layer} {rest rest' : List (List Char)}
    (hback : ∀ layer ∈ layers, layer.ReadsBack)
    (hlayers : ∀ layer ∈ layers, layer.IsReadable ∧ layer.isSuffix = true)
    (hlayers' : ∀ layer ∈ layers', layer.IsReadable ∧ layer.isSuffix = true)
    (hrest : StartsIn typeStops rest) (hrest' : StartsIn typeStops rest')
    (h : layers.flatMap Layer.reading ++ rest = layers'.flatMap Layer.reading ++ rest') :
    layers.map Layer.asWritten = layers'.map Layer.asWritten ∧ rest = rest' := by
  have hends : ∀ {layer : Layer} {layers : List Layer} {rest rest' : List (List Char)},
      layer.IsReadable → StartsIn typeStops rest' →
        (layer :: layers).flatMap Layer.reading ++ rest ≠ rest' := by
    rintro layer layers rest _ hlayer hstops rfl
    rw [List.flatMap_cons, List.append_assoc] at hstops
    have hgoesOn := goesOn_of_startsIn hstops
    rw [Layer.goesOn_reading_append hlayer] at hgoesOn
    cases hgoesOn
  induction layers generalizing layers' with
  | nil =>
    cases layers' with
    | nil => exact ⟨rfl, h⟩
    | cons layer' layers' => exact absurd h.symm (hends (hlayers' layer' (by simp)).1 hrest)
  | cons layer layers ih =>
    cases layers' with
    | nil => exact absurd h (hends (hlayers layer (by simp)).1 hrest')
    | cons layer' layers' =>
      rw [List.flatMap_cons, List.flatMap_cons, List.append_assoc, List.append_assoc] at h
      obtain ⟨hreadable, hsuffix⟩ := hlayers layer (by simp)
      obtain ⟨hreadable', hsuffix'⟩ := hlayers' layer' (by simp)
      obtain ⟨hwritten, htail⟩ := hback layer (by simp) hreadable'
        (Layer.endsBefore_of_isSuffix hsuffix _) (Layer.endsBefore_of_isSuffix hsuffix' _) h
      obtain ⟨hmap, rfl⟩ := ih (fun u hu => hback u (by simp [hu]))
        (fun u hu => hlayers u (by simp [hu])) (fun u hu => hlayers' u (by simp [hu])) htail
      exact ⟨by rw [List.map_cons, List.map_cons, hwritten, hmap], rfl⟩

/-- What is arranged like the layers, up to a stop, are the same layers as written. -/
def Layer.RowReadsBack (layers : List Layer) : Prop :=
  ∀ ⦃layers' : List Layer⦄ ⦃rest rest' : List (List Char)⦄, IsRow layers' →
    StartsIn typeStops rest → StartsIn typeStops rest' →
      arrange reading [] layers ++ rest = arrange reading [] layers' ++ rest' →
        layers.map asWritten = layers'.map asWritten ∧ rest = rest'

/-- The suffixes of a declarator are the layers up to the first sigil. -/
theorem exists_suffixes (layers : List Layer) :
    ∃ suffixes inner, layers = suffixes ++ inner ∧
      (∀ layer ∈ suffixes, layer.isSuffix = true) ∧
      ∀ layer ∈ inner.head?, layer.isSuffix = false := by
  induction layers with
  | nil => exact ⟨[], [], rfl, by simp, by simp⟩
  | cons layer layers ih =>
    obtain ⟨suffixes, inner, rfl, hsuffixes, hinner⟩ := ih
    cases hlayer : layer.isSuffix with
    | true => exact ⟨layer :: suffixes, inner, rfl, by simpa [hlayer] using hsuffixes, hinner⟩
    | false => exact ⟨[], layer :: (suffixes ++ inner), rfl, by simp, by simpa using hlayer⟩

theorem any_sigil_append {suffixes inner : List Layer}
    (hsuffixes : ∀ layer ∈ suffixes, layer.isSuffix = true)
    (hsigil : ∀ layer ∈ inner.head?, layer.isSuffix = false) :
    (suffixes ++ inner).any (!·.isSuffix) = !inner.isEmpty := by
  have hnone : suffixes.any (!·.isSuffix) = false := by simpa using hsuffixes
  cases inner with
  | nil => simpa using hnone
  | cons layer outer => simp [hsigil layer rfl]

theorem arrangeGroup_sigil {layer : Layer} (h : layer.isSuffix = false) (outer : List Layer) :
    arrangeGroup Layer.reading [] (layer :: outer) =
      ['('] :: (arrange Layer.reading [] (layer :: outer) ++ [[')']]) := by
  simp [arrangeGroup, arrange, h]

/-- What comes before a suffix is read back if what is in its group is. -/
theorem arrangeGroup_cancel {suffixes inner layers' : List Layer} {rest rest' : List (List Char)}
    (hinner : Layer.RowReadsBack inner) (hsigil : ∀ layer ∈ inner.head?, layer.isSuffix = false)
    (hback : ∀ layer ∈ suffixes, layer.ReadsBack)
    (hsuffixes : ∀ layer ∈ suffixes, layer.isSuffix = true)
    (hrow : Layer.IsRow (suffixes ++ inner)) (hrow' : Layer.IsRow layers')
    (hrest : StartsIn typeStops rest) (hrest' : StartsIn typeStops rest')
    (h : arrangeGroup Layer.reading [] (suffixes ++ inner) ++ rest =
      arrangeGroup Layer.reading [] layers' ++ rest') :
    (suffixes ++ inner).map Layer.asWritten = layers'.map Layer.asWritten ∧ rest = rest' := by
  obtain ⟨suffixes', inner', rfl, hsuffixes', hsigil'⟩ := exists_suffixes layers'
  have hstops : ∀ {rest : List (List Char)}, StartsIn typeStops rest → opensGroup rest = false := by
    intro rest hrest
    cases rest with
    | nil => rfl
    | cons first rest =>
      rw [startsIn_cons] at hrest
      revert first
      simp [typeStops, opensGroup]
  have hgroups : (!inner.isEmpty) = !inner'.isEmpty := by
    rw [← any_sigil_append hsuffixes hsigil, ← any_sigil_append hsuffixes' hsigil',
      ← opensGroup_arrangeGroup hrow.readable (hstops hrest), h,
      opensGroup_arrangeGroup hrow'.readable (hstops hrest')]
  have hrows : ∀ {rest rest' : List (List Char)}, StartsIn typeStops rest →
      StartsIn typeStops rest' →
        suffixes.reverse.flatMap Layer.reading ++ rest =
          suffixes'.reverse.flatMap Layer.reading ++ rest' →
        suffixes.map Layer.asWritten = suffixes'.map Layer.asWritten ∧ rest = rest' := by
    intro rest rest' hrest hrest' h
    obtain ⟨hmap, rfl⟩ := suffixes_cancel (by simpa using hback)
      (fun layer hlayer => ⟨hrow.readable layer (by simp_all), hsuffixes layer (by simp_all)⟩)
      (fun layer hlayer => ⟨hrow'.readable layer (by simp_all), hsuffixes' layer (by simp_all)⟩)
      hrest hrest' h
    exact ⟨by simpa using hmap, rfl⟩
  rw [arrangeGroup_append_suffixes hsuffixes, arrangeGroup_append_suffixes hsuffixes'] at h
  cases inner with
  | nil =>
    cases inner' with
    | nil =>
      obtain ⟨hmap, rfl⟩ := hrows hrest hrest' (by simpa [arrangeGroup] using h)
      exact ⟨by simpa using hmap, rfl⟩
    | cons => cases hgroups
  | cons layer outer =>
    cases inner' with
    | nil => cases hgroups
    | cons layer' outer' =>
      rw [arrangeGroup_sigil (hsigil layer rfl), arrangeGroup_sigil (hsigil' layer' rfl)] at h
      have hinside : arrange Layer.reading [] (layer :: outer) ++
            [')'] :: (suffixes.reverse.flatMap Layer.reading ++ rest) =
          arrange Layer.reading [] (layer' :: outer') ++
            [')'] :: (suffixes'.reverse.flatMap Layer.reading ++ rest') := by
        simpa using h
      have hclose : [')'] ∈ typeStops := by simp [typeStops]
      obtain ⟨hmap, hafter⟩ := hinner hrow'.of_append_right (startsIn_cons.2 hclose)
        (startsIn_cons.2 hclose) hinside
      obtain ⟨hmap', rfl⟩ := hrows hrest hrest' (List.cons.inj hafter).2
      exact ⟨by rw [List.map_append, List.map_append, hmap, hmap'], rfl⟩

/-- Declarators are read back if their layers are. The induction is on the number of layers, since
what is in a group are the layers outside of all suffixes. -/
theorem arrange_cancel {layers : List Layer} (hrow : Layer.IsRow layers)
    (hback : ∀ layer ∈ layers, layer.ReadsBack) : Layer.RowReadsBack layers := by
  induction hlength : layers.length using Nat.strong_induction_on generalizing layers with
  | _ length ih =>
  intro layers' rest rest' hrow' hrest hrest' h
  have hfirst : layers.head?.map Layer.isSuffix = layers'.head?.map Layer.isSuffix := by
    rw [← goesOn_arrange hrow.readable hrest, h, goesOn_arrange hrow'.readable hrest']
  cases layers with
  | nil =>
    cases layers' with
    | nil => exact ⟨rfl, h⟩
    | cons => cases hfirst
  | cons layer outer =>
    cases layers' with
    | nil => cases hfirst
    | cons layer' outer' =>
      have hkind : layer.isSuffix = layer'.isSuffix := by simpa using hfirst
      cases hlayer : layer.isSuffix with
      | false =>
        rw [arrange, arrange, ← hkind, hlayer, if_neg Bool.false_ne_true, if_neg Bool.false_ne_true,
          List.append_assoc, List.append_assoc] at h
        obtain ⟨hwritten, houter⟩ := hback layer (by simp) (hrow'.readable layer' (by simp))
          (endsBefore_arrange hrow hrest) (endsBefore_arrange hrow' hrest') h
        obtain ⟨hmap, rfl⟩ := ih outer.length (by simp [← hlength]) hrow.tail
          (fun layer hlayer => hback layer (by simp [hlayer])) rfl hrow'.tail hrest hrest' houter
        exact ⟨by rw [List.map_cons, List.map_cons, hwritten, hmap], rfl⟩
      | true =>
        -- with a suffix in front it makes no difference whether another one comes after
        have hgroup : ∀ {layer : Layer} (outer : List Layer), layer.isSuffix = true →
            arrange Layer.reading [] (layer :: outer) =
              arrangeGroup Layer.reading [] (layer :: outer) := by
          intro layer outer hlayer
          rw [arrange, arrangeGroup, if_pos hlayer, if_pos hlayer]
        rw [hgroup outer hlayer, hgroup outer' (hkind ▸ hlayer)] at h
        obtain ⟨suffixes, inner, hsplit, hsuffixes, hsigil⟩ := exists_suffixes (layer :: outer)
        have hshorter : inner.length < length := by
          cases suffixes with
          | nil =>
            obtain rfl : layer :: outer = inner := hsplit
            rw [hsigil layer rfl] at hlayer
            cases hlayer
          | cons =>
            rw [← hlength, hsplit, List.length_append, List.length_cons]
            omega
        rw [hsplit] at h hrow hback ⊢
        have hinner := ih inner.length hshorter hrow.of_append_right
          (fun layer hlayer => hback layer (by simp [hlayer])) rfl
        exact arrangeGroup_cancel hinner hsigil (fun layer hlayer => hback layer (by simp [hlayer]))
          hsuffixes hrow hrow' hrest hrest' h

/-! ## Types -/

namespace CType

/-- What is written like the leaf is the same leaf as written. -/
def LeafReadsBack (leaf : CType) : Prop :=
  ∀ ⦃t' : CType⦄ ⦃rest rest' : List (List Char)⦄, t'.IsReadable → rest.head? ≠ some ['<'] →
    rest'.head? ≠ some ['<'] → leaf.reading ++ rest = t'.leaf.reading ++ rest' →
      leaf.asWritten = t'.leaf.asWritten ∧ rest = rest'

theorem endsQualifiers_name {name : TypeName} (h : name.IsReadable) (rest : List (List Char)) :
    EndsQualifiers (name.written.toList :: rest) := by
  rintro word ⟨⟩
  exact ⟨fun hconst => h.2.1 (String.toList_inj.1 hconst),
    fun hvolatile => h.2.2 (String.toList_inj.1 hvolatile)⟩

/-- The leaf of a readable type starts with its qualifiers and its name. -/
theorem named_cancel {cv cv' : Cv} {name name' : TypeName} (hname : name.IsReadable)
    (hname' : name'.IsReadable) {rest rest' : List (List Char)}
    (h : cv.reading ++ name.written.toList :: rest = cv'.reading ++ name'.written.toList :: rest') :
    cv = cv' ∧ name.asWritten = name'.asWritten ∧ rest = rest' := by
  obtain ⟨rfl, htail⟩ := Cv.reading_cancel (endsQualifiers_name hname rest)
    (endsQualifiers_name hname' rest') h
  obtain ⟨hwritten, rfl⟩ := List.cons.inj htail
  refine ⟨rfl, ?_, rfl⟩
  rw [TypeName.asWritten, TypeName.asWritten, String.toList_inj.1 hwritten]

theorem leafReadsBack_named (cv : Cv) {name : TypeName} (hname : name.IsReadable) :
    (named cv name).LeafReadsBack := by
  intro t' rest rest' hreadable hrest hrest' h
  rw [reading_named cv hname] at h
  obtain ⟨cv', name', hname', hleaf | ⟨types', -, hleaf⟩⟩ := hreadable.leaf_cases
  · rw [hleaf, reading_named cv' hname'] at h
    obtain ⟨rfl, hwritten, rfl⟩ := named_cancel hname hname' (by simpa using h)
    exact ⟨by rw [hleaf, asWritten, asWritten, hwritten], rfl⟩
  · rw [hleaf, reading_template cv' hname'] at h
    obtain ⟨-, -, rfl⟩ := named_cancel hname hname' (by simpa using h)
    exact absurd rfl hrest

theorem leafReadsBack_template (cv : Cv) {name : TypeName} (hname : name.IsReadable)
    {types : List CType} (hback : ∀ t ∈ types, t.ReadsBack)
    (htypes : ∀ t ∈ types, t.IsReadable) :
    (template cv name (types.map .type)).LeafReadsBack := by
  intro t' rest rest' hreadable hrest hrest' h
  rw [reading_template cv hname] at h
  obtain ⟨cv', name', hname', hleaf | ⟨types', htypes', hleaf⟩⟩ := hreadable.leaf_cases
  · rw [hleaf, reading_named cv' hname'] at h
    obtain ⟨-, -, rfl⟩ := named_cancel hname hname' (by simpa using h)
    exact absurd rfl hrest'
  · rw [hleaf, reading_template cv' hname'] at h
    obtain ⟨rfl, hwritten, harguments⟩ := named_cancel hname hname' (by simpa using h)
    obtain ⟨hmap, -, rfl⟩ := typeEntries_cancel hback htypes htypes' (.inr rfl)
      (List.cons.inj harguments).2
    refine ⟨?_, rfl⟩
    rw [hleaf, asWritten, asWritten, hwritten, TemplateArgument.asWrittenAll_types,
      TemplateArgument.asWrittenAll_types, hmap]

namespace IsReadable

variable {t t' : CType}

theorem isRow_layers (h : t.IsReadable) : Layer.IsRow t.layers :=
  ⟨h.isReadable_of_mem_layers, h.isChain_layers⟩

/-- A type is read back if its leaf and its layers are. -/
theorem readsBack_of_parts (h : t.IsReadable) (hleaf : t.leaf.LeafReadsBack)
    (hlayers : ∀ layer ∈ t.layers, layer.ReadsBack) : t.ReadsBack := by
  intro t' rest rest' h' hrest hrest' htexts
  have hangle : ∀ {t : CType} {rest : List (List Char)}, t.IsReadable → StartsIn typeStops rest →
      (arrange Layer.reading [] t.layers ++ rest).head? ≠ some ['<'] := by
    intro t rest h hrest hhead
    have hgoesOn : t.layers.head?.map Layer.isSuffix = none := by
      rw [← goesOn_arrange h.isRow_layers.readable hrest, goesOn, hhead]
      rfl
    have hnil : t.layers = [] := List.head?_eq_none_iff.1 (Option.map_eq_none_iff.1 hgoesOn)
    rw [hnil] at hhead
    exact absurd (hrest _ hhead) (by simp [typeStops])
  rw [reading_eq, reading_eq t', List.append_assoc, List.append_assoc] at htexts
  obtain ⟨hleafWritten, hrests⟩ := hleaf h' (hangle h hrest) (hangle h' hrest') htexts
  obtain ⟨hmap, rfl⟩ := arrange_cancel h.isRow_layers hlayers h'.isRow_layers hrest hrest' hrests
  exact ⟨by rw [h.asWritten_eq_foldl, h'.asWritten_eq_foldl, hleafWritten, hmap], rfl⟩

/-- The leaf and the layers of a readable type are read back. -/
theorem parts_readBack (h : t.IsReadable) :
    t.leaf.LeafReadsBack ∧ ∀ layer ∈ t.layers, layer.ReadsBack := by
  induction h with
  | named cv hname => exact ⟨leafReadsBack_named cv hname, by simp [layers]⟩
  | template cv hname htypes ih =>
    have hback := fun t ht => (htypes t ht).readsBack_of_parts (ih t ht).1 (ih t ht).2
    exact ⟨leafReadsBack_template cv hname hback htypes, by simp [layers]⟩
  | pointer cv _ ih =>
    refine ⟨ih.1, List.forall_mem_append.2 ⟨ih.2, ?_⟩⟩
    simpa using Layer.readsBack_pointer cv
  | reference kind _ _ ih =>
    refine ⟨ih.1, List.forall_mem_append.2 ⟨ih.2, ?_⟩⟩
    simpa using Layer.readsBack_reference kind
  | array _ hsize ih =>
    refine ⟨ih.1, List.forall_mem_append.2 ⟨ih.2, ?_⟩⟩
    simpa using Layer.readsBack_array hsize
  | function _ hparams isVariadic ih ihparams =>
    have hback := fun t ht => (hparams t ht).readsBack_of_parts (ihparams t ht).1 (ihparams t ht).2
    refine ⟨ih.1, List.forall_mem_append.2 ⟨ih.2, ?_⟩⟩
    simpa using Layer.readsBack_function hback hparams isVariadic

theorem readsBack (h : t.IsReadable) : t.ReadsBack :=
  h.readsBack_of_parts h.parts_readBack.1 h.parts_readBack.2

end IsReadable

/-- Readable types have the same spelling exactly if they are the same as written. -/
theorem spell_eq_iff_asWritten_eq {t t' : CType} (h : t.IsReadable) (h' : t'.IsReadable) :
    t.spell .written = t'.spell .written ↔ t.asWritten = t'.asWritten := by
  constructor
  · intro hspell
    have hreading : t.reading ++ [] = t'.reading ++ [] := by rw [reading, hspell, reading]
    exact (h.readsBack h' (.nil _) (.nil _) hreading).1
  · intro hwritten
    rw [← t.spell_asWritten, hwritten, t'.spell_asWritten]

/-- A function that returns a pointer to an array, with `A` declared in the given scope. -/
def arrayPointerFunction (qualified : Option String) : CType :=
  function .plain (pointer .plain (array .plain (named .plain ⟨"A", qualified⟩) (some "3")))
    [reference .plain .rvalue
      (template ⟨true, false⟩ ⟨"b::B", none⟩ [.type (named .plain ⟨"A", qualified⟩)])] true

/-- A pointer to a function that returns an array. -/
def arrayFunctionPointer : CType :=
  pointer .plain (function .plain (array .plain (named .plain ⟨"A", none⟩) (some "3"))
    [reference .plain .rvalue
      (template ⟨true, false⟩ ⟨"b::B", none⟩ [.type (named .plain ⟨"A", none⟩)])] true)

theorem spell_eq_iff_asWritten_eq_arrayPointers :
    (arrayPointerFunction (some "n::A")).IsReadable ∧ (arrayPointerFunction none).IsReadable ∧
      arrayFunctionPointer.IsReadable ∧
      (arrayPointerFunction none).spell .written = "A (*(const b::B<A> &&, ...))[3]" ∧
      arrayFunctionPointer.spell .written = "A (*)(const b::B<A> &&, ...)[3]" ∧
      (arrayPointerFunction (some "n::A")).asWritten = (arrayPointerFunction none).asWritten ∧
      (arrayPointerFunction none).asWritten ≠ arrayFunctionPointer.asWritten := by
  have hword : IsWord "A" := by decide
  have hA : ∀ qualified, IsReadable (named .plain ⟨"A", qualified⟩) := fun _ =>
    .named _ ⟨hword, by simp, by simp⟩
  have hsize : ∀ text ∈ some "3", IsWord text := by
    rintro _ ⟨⟩
    decide
  have hparam : ∀ qualified, IsReadable (reference .plain .rvalue
      (template ⟨true, false⟩ ⟨"b::B", none⟩ ([named .plain ⟨"A", qualified⟩].map .type))) :=
    fun qualified => .reference _
      (.template _ ⟨by decide, by decide, by decide⟩ (by simpa using hA qualified)) rfl
  have hfunction : ∀ qualified, (arrayPointerFunction qualified).IsReadable := fun qualified =>
    .function (.pointer _ (.array (hA qualified) hsize)) (by simpa using hparam qualified) true
  have hpointer : arrayFunctionPointer.IsReadable :=
    .pointer _ (.function (.array (hA none) hsize) (by simpa using hparam none) true)
  have hspell : (arrayPointerFunction none).spell .written = "A (*(const b::B<A> &&, ...))[3]" := by
    decide +kernel
  have hspell' : arrayFunctionPointer.spell .written = "A (*)(const b::B<A> &&, ...)[3]" := by
    decide +kernel
  have hscope : (arrayPointerFunction (some "n::A")).spell .written =
      "A (*(const b::B<A> &&, ...))[3]" := by
    decide +kernel
  refine ⟨hfunction _, hfunction _, hpointer, hspell, hspell', ?_, fun hwritten => ?_⟩
  · exact (spell_eq_iff_asWritten_eq (hfunction _) (hfunction _)).1 (hscope.trans hspell.symm)
  · have heq := (spell_eq_iff_asWritten_eq (hfunction none) hpointer).2 hwritten
    rw [hspell, hspell'] at heq
    exact absurd heq (by decide)

end CType

end ClassEdit
