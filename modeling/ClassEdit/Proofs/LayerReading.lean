import ClassEdit.Proofs.SeparatedLists
import ClassEdit.Proofs.WrittenTypes

/-!
# Reading layers back

What is written like a layer of a type is that layer as written. A qualifier is told from a name,
a size from a bracket, and a list of types ends at the first closing mark if its types are read
back up to the marks that come after them.

## Main definitions

* `typeStops`: the lexemes that come after a type.
* `CType.ReadsBack`, `Layer.ReadsBack`: what is written like the type, or the layer, is the same.

## Main statements

* `Cv.reading_cancel`: qualifiers are read back.
* `typeEntries_cancel`: a list of types is read back if its types are.
* `Layer.readsBack_pointer`, `Layer.readsBack_reference`, `Layer.readsBack_array` and
  `Layer.readsBack_function`: layers are read back.
-/

namespace ClassEdit

/-- The lexemes that come after a type in a list. -/
def typeStops : List (List Char) :=
  [[','], [')'], ['>']]

/-- What is written like the type, up to a stop, is the same type as written. -/
def CType.ReadsBack (t : CType) : Prop :=
  ∀ ⦃t' : CType⦄ ⦃rest rest' : List (List Char)⦄, t'.IsReadable → StartsIn typeStops rest →
    StartsIn typeStops rest' → t.reading ++ rest = t'.reading ++ rest' →
      t.asWritten = t'.asWritten ∧ rest = rest'

/-! ## Qualifiers and words -/

/-- A rest that does not go on with a qualifier. -/
def EndsQualifiers (rest : List (List Char)) : Prop :=
  ∀ word ∈ rest.head?, word ≠ "const".toList ∧ word ≠ "volatile".toList

theorem Cv.reading_cancel {cv cv' : Cv} {rest rest' : List (List Char)}
    (hrest : EndsQualifiers rest) (hrest' : EndsQualifiers rest')
    (h : cv.reading ++ rest = cv'.reading ++ rest') : cv = cv' ∧ rest = rest' := by
  have hne : "const".toList ≠ "volatile".toList := by decide
  rw [reading, words, reading, words] at h
  unfold EndsQualifiers at hrest hrest'
  obtain ⟨isConst, isVolatile⟩ := cv
  obtain ⟨isConst', isVolatile'⟩ := cv'
  generalize "const" = const, "volatile" = volatile at *
  cases isConst <;> cases isVolatile <;> cases isConst' <;> cases isVolatile' <;> grind

theorem Cv.exists_word (cv : Cv) {word : String} (hword : IsWord word)
    (tail : List (List Char)) :
    ∃ first rest, IsWord first ∧ cv.reading ++ word.toList :: tail = first.toList :: rest := by
  rw [reading]
  cases hwords : cv.words with
  | nil => exact ⟨word, tail, hword, rfl⟩
  | cons first more =>
    have hfirst : first ∈ cv.words := by simp [hwords]
    exact ⟨first, _, isWord_of_mem_words hfirst, rfl⟩

/-- The leaf of a readable type has a name, and maybe arguments that are types. -/
theorem CType.IsReadable.leaf_cases {t : CType} (h : t.IsReadable) :
    ∃ cv name, TypeName.IsReadable name ∧ (t.leaf = CType.named cv name ∨
      ∃ types : List CType, (∀ u ∈ types, u.IsReadable) ∧
        t.leaf = CType.template cv name (types.map .type)) := by
  induction h with
  | named cv hname => exact ⟨cv, _, hname, .inl rfl⟩
  | template cv hname htypes => exact ⟨cv, _, hname, .inr ⟨_, htypes, rfl⟩⟩
  | pointer _ _ ih | reference _ _ _ ih | array _ _ ih | function _ _ _ ih => exact ih

/-- The lexemes of a readable type start with a word. -/
theorem CType.IsReadable.exists_word {t : CType} (h : t.IsReadable) :
    ∃ word tail, IsWord word ∧ t.reading = word.toList :: tail := by
  have hleaf : ∃ word tail, IsWord word ∧ t.leaf.reading = word.toList :: tail := by
    obtain ⟨cv, name, hname, hleaf | ⟨types, -, hleaf⟩⟩ := h.leaf_cases
    · rw [hleaf, reading_named cv hname]
      exact cv.exists_word hname.1 []
    · rw [hleaf, reading_template cv hname]
      exact cv.exists_word hname.1 _
  obtain ⟨word, tail, hword, hreading⟩ := hleaf
  exact ⟨word, _, hword, by rw [reading_eq, hreading]; rfl⟩

/-! ## Lists of types -/

section

variable {t t' : CType} {types types' : List CType} {isVariadic isVariadic' : Bool}

theorem CType.ReadsBack.separable (h : t.ReadsBack) (h' : t'.IsReadable) :
    Separable typeStops t.reading t'.reading := by
  intro rest rest' hrest hrest' htexts
  obtain ⟨-, rfl⟩ := h h' hrest hrest' htexts
  exact List.append_cancel_right htexts

theorem CType.IsReadable.reading_append_ne_dots (h : t.IsReadable) (rest rest' : List (List Char)) :
    t.reading ++ rest ≠ dots ++ rest' := by
  obtain ⟨word, tail, hword, hreading⟩ := h.exists_word
  have hne : word.toList ≠ ['.'] := hword.toList_ne (by decide)
  rw [hreading]
  exact fun htexts => hne (List.cons.inj htexts).1

/-- An entry does not start with a mark that closes a list. -/
theorem head?_of_mem_typeEntries (htypes : ∀ t ∈ types, t.IsReadable) {close : Char}
    (hclose : close ∈ Text.typeMarks) (hdot : close ≠ '.') {x : List (List Char)}
    (hx : x ∈ typeEntries types isVariadic) : x ≠ [] ∧ x.head? ≠ some [close] := by
  rw [typeEntries, List.mem_append] at hx
  obtain hx | hx := hx
  · obtain ⟨t, ht, rfl⟩ := List.mem_map.1 hx
    obtain ⟨word, tail, hword, hreading⟩ := (htypes t ht).exists_word
    have hne : word.toList ≠ [close] := hword.toList_ne hclose
    grind
  · grind [dots]

theorem separable_of_mem_typeEntries (hback : ∀ t ∈ types, t.ReadsBack)
    (htypes : ∀ t ∈ types, t.IsReadable) (htypes' : ∀ t ∈ types', t.IsReadable)
    {x y : List (List Char)} (hx : x ∈ typeEntries types isVariadic)
    (hy : y ∈ typeEntries types' isVariadic') : Separable typeStops x y := by
  have hcases : ∀ {x : List (List Char)} {types : List CType} {isVariadic : Bool},
      x ∈ typeEntries types isVariadic → (∃ t ∈ types, t.reading = x) ∨ x = dots := by
    intro x types isVariadic hx
    rw [typeEntries, List.mem_append, List.mem_map] at hx
    exact hx.imp_right (by grind)
  obtain ⟨t, ht, rfl⟩ | rfl := hcases hx
  · obtain ⟨t', ht', rfl⟩ | rfl := hcases hy
    · exact (hback t ht).separable (htypes' t' ht')
    · exact fun rest rest' _ _ htexts =>
        absurd htexts ((htypes t ht).reading_append_ne_dots rest rest')
  · obtain ⟨t', ht', rfl⟩ | rfl := hcases hy
    · exact fun rest rest' _ _ htexts =>
        absurd htexts.symm ((htypes' t' ht').reading_append_ne_dots rest' rest)
    · exact fun _ _ _ _ _ => rfl

/-- Lists of the same entries have the same types as written. -/
theorem asWritten_eq_of_typeEntries_eq (hback : ∀ t ∈ types, t.ReadsBack)
    (htypes : ∀ t ∈ types, t.IsReadable) (htypes' : ∀ t ∈ types', t.IsReadable)
    (h : typeEntries types isVariadic = typeEntries types' isVariadic') :
    types.map CType.asWritten = types'.map CType.asWritten ∧ isVariadic = isVariadic' := by
  have hnil : ∀ {t : CType} {types : List CType} {isVariadic isVariadic' : Bool}, t.IsReadable →
      typeEntries [] isVariadic ≠ typeEntries (t :: types) isVariadic' := by
    intro t types isVariadic isVariadic' ht h
    cases isVariadic with
    | false => cases h
    | true =>
      exact ht.reading_append_ne_dots [] [] (congrArg (· ++ []) (List.cons.inj h).1.symm)
  induction types generalizing types' with
  | nil =>
    cases types' with
    | nil => cases isVariadic <;> cases isVariadic' <;> simp [typeEntries] at h ⊢
    | cons t' types' => exact absurd h (hnil (htypes' t' (by simp)))
  | cons t types ih =>
    cases types' with
    | nil => exact absurd h.symm (hnil (htypes t (by simp)))
    | cons t' types' =>
      obtain ⟨hreading, hrest⟩ := List.cons.inj h
      have hwritten := (hback t (by simp) (htypes' t' (by simp)) (.nil _) (.nil _)
        (congrArg (· ++ []) hreading)).1
      obtain ⟨hmap, hvariadic⟩ := ih (fun u hu => hback u (by simp [hu]))
        (fun u hu => htypes u (by simp [hu])) (fun u hu => htypes' u (by simp [hu])) hrest
      exact ⟨by rw [List.map_cons, List.map_cons, hwritten, hmap], hvariadic⟩

/-- A list of types is read back if its types are. -/
theorem typeEntries_cancel (hback : ∀ t ∈ types, t.ReadsBack)
    (htypes : ∀ t ∈ types, t.IsReadable) (htypes' : ∀ t ∈ types', t.IsReadable) {close : Char}
    (hclose : close = ')' ∨ close = '>') {rest rest' : List (List Char)}
    (h : [[',']].intercalate (typeEntries types isVariadic) ++ [close] :: rest =
      [[',']].intercalate (typeEntries types' isVariadic') ++ [close] :: rest') :
    types.map CType.asWritten = types'.map CType.asWritten ∧ isVariadic = isVariadic' ∧
      rest = rest' := by
  have hmark : close ∈ Text.typeMarks ∧ close ≠ '.' ∧ [close] ∈ typeStops ∧ [','] ≠ [close] := by
    obtain rfl | rfl := hclose <;> decide
  obtain ⟨hmem, hdot, hstop, hne⟩ := hmark
  have hcomma : [','] ∈ typeStops := by simp [typeStops]
  obtain ⟨hentries, rfl⟩ := intercalate_cancel hcomma hstop hne
    (fun x hx => head?_of_mem_typeEntries htypes hmem hdot hx)
    (fun y hy => head?_of_mem_typeEntries htypes' hmem hdot hy)
    (fun x hx y hy => separable_of_mem_typeEntries hback htypes htypes' hx hy) h
  obtain ⟨hmap, hvariadic⟩ := asWritten_eq_of_typeEntries_eq hback htypes htypes' hentries
  exact ⟨hmap, hvariadic, rfl⟩

end

/-! ## Layers -/

namespace Layer

/-- A rest that the layer does not run on into. -/
def EndsBefore (rest : List (List Char)) : Layer → Prop
  | pointer _ => EndsQualifiers rest
  | reference _ => rest.head? ≠ some ['&']
  | array _ | function .. => True

/-- What is written like the layer is the same layer as written. -/
def ReadsBack (layer : Layer) : Prop :=
  ∀ ⦃layer' : Layer⦄ ⦃rest rest' : List (List Char)⦄, layer'.IsReadable →
    layer.EndsBefore rest → layer'.EndsBefore rest' →
      layer.reading ++ rest = layer'.reading ++ rest' →
        layer.asWritten = layer'.asWritten ∧ rest = rest'

/-- The lexeme that the layer starts with. -/
def opening : Layer → List Char
  | pointer _ => ['*']
  | reference _ => ['&']
  | array _ => ['[']
  | function .. => ['(']

theorem exists_reading_eq {layer : Layer} (h : layer.IsReadable) :
    ∃ tail, layer.reading = layer.opening :: tail := by
  cases layer with
  | pointer cv => exact ⟨_, reading_pointer cv⟩
  | reference kind => cases kind <;> exact ⟨_, reading_reference _⟩
  | array size => exact ⟨_, reading_array h⟩
  | function params isVariadic => exact ⟨_, reading_function params isVariadic⟩

theorem opening_eq (layer : Layer) {layer' : Layer} {rest rest' : List (List Char)}
    (h : layer.IsReadable) (h' : layer'.IsReadable)
    (hreading : layer.reading ++ rest = layer'.reading ++ rest') :
    layer.opening = layer'.opening := by
  obtain ⟨tail, htail⟩ := exists_reading_eq h
  obtain ⟨tail', htail'⟩ := exists_reading_eq h'
  rw [htail, htail'] at hreading
  exact (List.cons.inj hreading).1

theorem readsBack_pointer (cv : Cv) : (pointer cv).ReadsBack := by
  intro layer' rest rest' hreadable hrest hrest' h
  have hopening := opening_eq (pointer cv) trivial hreadable h
  cases layer' with
  | pointer cv' =>
    rw [reading_pointer, reading_pointer] at h
    obtain ⟨rfl, rfl⟩ := Cv.reading_cancel hrest hrest' (List.cons.inj h).2
    exact ⟨rfl, rfl⟩
  | reference | array | function => cases hopening

theorem readsBack_reference (kind : ValueKind) : (reference kind).ReadsBack := by
  intro layer' rest rest' hreadable hrest hrest' h
  have hopening := opening_eq (reference kind) trivial hreadable h
  cases layer' with
  | reference kind' =>
    rw [reading_reference, reading_reference] at h
    cases kind <;> cases kind' <;> simp [ValueKind.sigil] at h
    -- a reference that is shorter than the other one has the rest of it after it
    case lvalue.rvalue => exact absurd (by rw [h]; rfl) hrest
    case rvalue.lvalue => exact absurd (by rw [← h]; rfl) hrest'
    case lvalue.lvalue | rvalue.rvalue => exact ⟨rfl, h⟩
  | pointer | array | function => cases hopening

theorem readsBack_array {size : Option String} (hsize : ∀ text ∈ size, IsWord text) :
    (array size).ReadsBack := by
  intro layer' rest rest' hreadable _ _ h
  have hopening := opening_eq (array size) hsize hreadable h
  cases layer' with
  | array size' =>
    rw [reading_array hsize, reading_array hreadable] at h
    have hbracket : ∀ {text : String}, IsWord text → text.toList ≠ [']'] :=
      fun htext => htext.toList_ne (by decide)
    cases size with
    | none =>
      cases size' with
      | none => simpa using h
      | some text' => exact absurd (by simp_all) (hbracket (hreadable text' rfl))
    | some text =>
      cases size' with
      | none => exact absurd (by simp_all) (hbracket (hsize text rfl))
      | some text' => simpa [asWritten, String.toList_inj] using h
  | pointer | reference | function => cases hopening

theorem readsBack_function {params : List CType} (hback : ∀ t ∈ params, t.ReadsBack)
    (hparams : ∀ t ∈ params, t.IsReadable) (isVariadic : Bool) :
    (function params isVariadic).ReadsBack := by
  intro layer' rest rest' hreadable _ _ h
  have hopening := opening_eq (function params isVariadic) hparams hreadable h
  cases layer' with
  | function params' isVariadic' =>
    rw [reading_function, reading_function] at h
    have hlists : [[',']].intercalate (typeEntries params isVariadic) ++ [')'] :: rest =
        [[',']].intercalate (typeEntries params' isVariadic') ++ [')'] :: rest' := by
      simpa using h
    obtain ⟨hmap, rfl, rfl⟩ := typeEntries_cancel hback hparams hreadable (.inl rfl) hlists
    exact ⟨by rw [asWritten, asWritten, hmap], rfl⟩
  | pointer | reference | array => cases hopening

end Layer

end ClassEdit
