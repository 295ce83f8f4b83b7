import ClassEdit.Proofs.SeparatedLists
import ClassEdit.Types.Basic

/-!
# The text of a signature

A rendered member function shows its name, the texts of its parameters and whether there are more,
and then, each only if there is something to show, `const`, the ref-qualifier and the exception
specification. All of this can be told from the text if the parts do not run into the marks between
them.

## Main definitions

* `ShownSignature`: what is shown of a member function.
* `ShownSignature.text`: how it is shown.
* `ShownSignature.Apart`: two signatures with parts that can be told apart.

## Main statements

* `ShownSignature.qualifiers_cancel`: what is shown after the parameters.
* `ShownSignature.text_eq_iff`: signatures with parts that can be told apart are told apart.
-/

namespace ClassEdit

/-- What a rendered member function shows after its scope. -/
structure ShownSignature where
  name : List Char
  params : List (List Char)
  isVariadic : Bool
  isConst : Bool
  refQualifier : Option ValueKind
  /-- The exception specification with a space in front, if there is one. -/
  exception : List Char
deriving DecidableEq

/-- A fragment with a space in front, unless there is nothing to show. -/
def spaced (fragment : List Char) : List Char :=
  if fragment.isEmpty then [] else ' ' :: fragment

/-- A text that is empty, or a space and then something other than the given characters. -/
def StartsSpaced (others text : List Char) : Prop :=
  text = [] ∨ ∃ c rest, text = ' ' :: c :: rest ∧ c ∉ others

namespace ShownSignature

/-- The entries of the parameter list. -/
def entries (s : ShownSignature) : List (List Char) :=
  s.params ++ if s.isVariadic then ["...".toList] else []

/-- What is shown after the parameters. -/
def qualifiers (s : ShownSignature) : List Char :=
  spaced (if s.isConst then "const".toList else []) ++
    (spaced ((s.refQualifier.map ValueKind.sigil).getD "").toList ++ s.exception)

/-- How the signature is shown. -/
def text (s : ShownSignature) : List Char :=
  s.name ++ '(' :: ([',', ' '].intercalate s.entries ++ ')' :: s.qualifiers)

/-- A parameter starts with neither a closing parenthesis nor a dot, and an exception specification
is taken for neither `const` nor a ref-qualifier. -/
structure IsLegible (s : ShownSignature) : Prop where
  params : ∀ x ∈ s.params, ∃ c rest, x = c :: rest ∧ c ≠ ')' ∧ c ≠ '.'
  exception : StartsSpaced ['c', '&'] s.exception

/-- Neither name, followed by a parenthesis, starts the other one, and neither does a parameter,
followed by a comma or a closing parenthesis. -/
structure Apart (s t : ShownSignature) : Prop where
  left : s.IsLegible
  right : t.IsLegible
  name : Separable ['('] s.name t.name
  params : ∀ x ∈ s.params, ∀ y ∈ t.params, Separable [',', ')'] x y

end ShownSignature

/-! ## Qualifiers -/

theorem StartsSpaced.mono {others fewer text : List Char} (h : StartsSpaced others text)
    (hsubset : fewer ⊆ others) : StartsSpaced fewer text :=
  h.imp_right fun ⟨c, rest, htext, hc⟩ => ⟨c, rest, htext, fun hmem => hc (hsubset hmem)⟩

theorem const_cancel {isConst isConst' : Bool} {rest rest' : List Char}
    (hrest : StartsSpaced ['c'] rest) (hrest' : StartsSpaced ['c'] rest')
    (h : spaced (if isConst then "const".toList else []) ++ rest =
      spaced (if isConst' then "const".toList else []) ++ rest') :
    isConst = isConst' ∧ rest = rest' := by
  unfold StartsSpaced at hrest hrest'
  cases isConst <;> cases isConst' <;> simp [spaced] at h
  case false.false | true.true => exact ⟨rfl, h⟩
  case false.true | true.false => grind

theorem refQualifier_cancel {kind kind' : Option ValueKind} {rest rest' : List Char}
    (hrest : StartsSpaced ['&'] rest) (hrest' : StartsSpaced ['&'] rest')
    (h : spaced ((kind.map ValueKind.sigil).getD "").toList ++ rest =
      spaced ((kind'.map ValueKind.sigil).getD "").toList ++ rest') :
    kind = kind' ∧ rest = rest' := by
  unfold StartsSpaced at hrest hrest'
  obtain _ | _ | _ := kind <;> obtain _ | _ | _ := kind' <;>
    simp [spaced, ValueKind.sigil] at h <;> grind

namespace ShownSignature

variable {s t : ShownSignature}

/-- What comes after the parameters is told from the text. -/
theorem qualifiers_cancel (hs : s.IsLegible) (ht : t.IsLegible) (h : s.qualifiers = t.qualifiers) :
    s.isConst = t.isConst ∧ s.refQualifier = t.refQualifier ∧ s.exception = t.exception := by
  have hrest : ∀ {kind : Option ValueKind} {exception : List Char},
      StartsSpaced ['c', '&'] exception → StartsSpaced ['c']
        (spaced ((kind.map ValueKind.sigil).getD "").toList ++ exception) := by
    rintro (_ | _ | _) exception h
    · exact h.mono (by simp)
    · exact .inr ⟨'&', exception, by simp [spaced, ValueKind.sigil], by simp⟩
    · exact .inr ⟨'&', '&' :: exception, by simp [spaced, ValueKind.sigil], by simp⟩
  obtain ⟨hconst, hafter⟩ := const_cancel (hrest hs.exception) (hrest ht.exception) h
  obtain ⟨href, hexception⟩ := refQualifier_cancel (hs.exception.mono (by simp))
    (ht.exception.mono (by simp)) hafter
  exact ⟨hconst, href, hexception⟩

/-! ## Parameters -/

theorem exists_of_mem_entries (hs : s.IsLegible) {x : List Char} (hx : x ∈ s.entries) :
    (x ∈ s.params ∧ ∃ c rest, x = c :: rest ∧ c ≠ ')' ∧ c ≠ '.') ∨ x = "...".toList := by
  rw [entries, List.mem_append] at hx
  refine hx.imp (fun hx => ⟨hx, hs.params x hx⟩) fun hx => ?_
  split at hx
  · exact List.mem_singleton.1 hx
  · cases hx

theorem Apart.separable_of_mem_entries (h : s.Apart t) {x y : List Char} (hx : x ∈ s.entries)
    (hy : y ∈ t.entries) : Separable [',', ')'] x y := by
  intro rest rest' hrest hrest' htexts
  obtain ⟨hx, c, x, rfl, -, hc⟩ | rfl := exists_of_mem_entries h.left hx
  · obtain ⟨hy, -⟩ | rfl := exists_of_mem_entries h.right hy
    · exact h.params _ hx _ hy hrest hrest' htexts
    · exact absurd (List.cons.inj htexts).1 hc
  · obtain ⟨hy, c, y, rfl, -, hc⟩ | rfl := exists_of_mem_entries h.right hy
    · exact absurd (List.cons.inj htexts).1.symm hc
    · rfl

/-- The dots are no parameter, so they can be told from the entries. -/
theorem params_eq_of_entries_eq (hs : s.IsLegible) (ht : t.IsLegible)
    (h : s.entries = t.entries) : s.params = t.params ∧ s.isVariadic = t.isVariadic := by
  have hdots : ∀ {s : ShownSignature}, s.IsLegible → "...".toList ∉ s.params := by
    intro s hs hmem
    obtain ⟨c, rest, htext, -, hc⟩ := hs.params _ hmem
    exact hc (List.cons.inj htext).1.symm
  have hvariadic : ∀ {s : ShownSignature}, s.IsLegible →
      (s.isVariadic = true ↔ "...".toList ∈ s.entries) := by
    intro s hs
    have := hdots hs
    cases hs : s.isVariadic <;> simp_all [entries]
  have hflag : s.isVariadic = t.isVariadic := by
    rw [Bool.eq_iff_iff, hvariadic hs, hvariadic ht, h]
  rw [entries, entries, hflag] at h
  exact ⟨List.append_cancel_right h, hflag⟩

theorem head?_of_mem_entries (hs : s.IsLegible) {x : List Char} (hx : x ∈ s.entries) :
    x ≠ [] ∧ x.head? ≠ some ')' := by
  obtain ⟨-, c, x, rfl, hc, -⟩ | rfl := exists_of_mem_entries hs hx
  · exact ⟨List.cons_ne_nil c x, by simpa using hc⟩
  · decide

/-- Signatures with parts that can be told apart are shown the same only if they are. -/
theorem text_eq_iff (h : s.Apart t) : s.text = t.text ↔ s = t := by
  refine ⟨fun htext => ?_, fun heq => congrArg text heq⟩
  rw [text, text] at htext
  have hopen : ∀ rest : List Char, StartsIn ['('] ('(' :: rest) := fun rest =>
    startsIn_cons.2 List.mem_cons_self
  have hname : s.name = t.name := h.name (hopen _) (hopen _) htext
  rw [hname] at htext
  have hlists := (List.cons.inj (List.append_cancel_left htext)).2
  obtain ⟨hentries, hqualifiers⟩ := intercalate_cancel (by simp) (by simp) (by simp)
    (fun x hx => head?_of_mem_entries h.left hx) (fun y hy => head?_of_mem_entries h.right hy)
    (fun x hx y hy => h.separable_of_mem_entries hx hy) hlists
  obtain ⟨hparams, hvariadic⟩ := params_eq_of_entries_eq h.left h.right hentries
  obtain ⟨hconst, href, hexception⟩ := qualifiers_cancel h.left h.right hqualifiers
  obtain ⟨_, _, _, _, _, _⟩ := s
  obtain ⟨_, _, _, _, _, _⟩ := t
  simp_all

end ShownSignature

end ClassEdit
