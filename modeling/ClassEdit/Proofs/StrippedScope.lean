import ClassEdit.Proofs.SignatureText
import ClassEdit.Render.Overrides

/-!
# Texts without a scope

The scope of a class is deleted from a text wherever it starts a name. A scope is made up of
characters of names, so at any other character the text after it is gone through as if it stood
alone. Hence the parts of a signature are gone through one by one, and the parts without a `::`
stay as they are.

## Main definitions

* `IsScopeText`: the scope of a class as it stands in front of names.
* `ShownSignature.strip`: a signature without the scope.

## Main statements

* `stripScopeFrom_append_cons`: at a character that belongs to no name.
* `stripScopeFrom_of_not_isInfix`: a text in which the scope does not occur.
* `filter_stripScope`: characters that the scope has none of.
* `stripScopeFrom_text`: the text of a signature.
-/

namespace ClassEdit

/-- A scope in front of names: characters of names, with two colons at the end. -/
structure IsScopeText (scope : List Char) : Prop where
  continues : ∀ c ∈ scope, continuesName c = true
  colons : "::".toList <:+ scope

section

variable {scope : List Char} {before : Option Char} {c : Char} {cs ds : List Char}

theorem IsScopeText.ne_nil (h : IsScopeText scope) : scope ≠ [] := by
  rintro rfl
  exact absurd h.colons (by decide)

theorem IsScopeText.notMem (h : IsScopeText scope) (hc : continuesName c = false) : c ∉ scope := by
  intro hmem
  rw [h.continues c hmem] at hc
  cases hc

theorem Text.occursIn_of_isInfix {pattern : List Char} (h : pattern <:+: cs) :
    occursIn pattern cs = true := by
  induction cs with
  | nil => simp [occursIn, List.eq_nil_of_infix_nil h]
  | cons c cs ih =>
    rw [occursIn, Bool.or_eq_true, List.isPrefixOf_iff_prefix]
    exact (List.infix_cons_iff.1 h).imp_right ih

theorem isPrefixOf_of_not_isInfix {pattern : List Char} (h : ¬ pattern <:+: cs) :
    pattern.isPrefixOf cs = false := by
  rw [Bool.eq_false_iff]
  exact fun hbegins => h (List.isPrefixOf_iff_prefix.1 hbegins).isInfix

/-- What has two colons in a row does not occur in a text without them. -/
theorem not_isInfix_of_colons {pattern : List Char} (h : "::".toList <:+: pattern)
    (hcs : Text.occursIn "::".toList cs = false) : ¬ pattern <:+: cs := by
  intro hinfix
  rw [Text.occursIn_of_isInfix (h.trans hinfix)] at hcs
  cases hcs

theorem IsScopeText.not_isInfix (h : IsScopeText scope)
    (hcs : Text.occursIn "::".toList cs = false) : ¬ scope <:+: cs :=
  not_isInfix_of_colons h.colons.isInfix hcs

/-! ## Going through a text -/

/-- Whether an occurrence has been kept matters only inside of it. -/
theorem stripScopeFrom_zero (before : Option Char) (kept : Bool) (cs : List Char) :
    stripScopeFrom scope before 0 kept cs = stripScopeFrom scope before 0 true cs := by
  cases cs <;> simp [stripScopeFrom]

/-- What stands before a text matters only if a name goes on after it. -/
theorem stripScopeFrom_of_not_continuesName (h : before.any continuesName = false) :
    stripScopeFrom scope before 0 true cs = stripScope scope cs := by
  rw [stripScope]
  cases cs <;> simp [stripScopeFrom, h]

theorem isPrefixOf_append_cons (hc : c ∉ scope) :
    scope.isPrefixOf (cs ++ c :: ds) = scope.isPrefixOf cs := by
  induction scope generalizing cs with
  | nil => simp
  | cons s scope ih =>
    rw [List.mem_cons, not_or] at hc
    cases cs with
    | nil => simp [List.isPrefixOf, Ne.symm hc.1]
    | cons d cs => simp [List.isPrefixOf, ih hc.2]

/-- At a character that belongs to no name the text after it is gone through from its start. -/
theorem stripScopeFrom_append_cons (hscope : IsScopeText scope) (hc : continuesName c = false)
    {inside : Nat} (hinside : inside ≤ cs.length) (kept : Bool) :
    stripScopeFrom scope before inside kept (cs ++ c :: ds) =
      stripScopeFrom scope before inside kept cs ++ c :: stripScope scope ds := by
  induction cs generalizing before inside kept with
  | nil =>
    obtain rfl : inside = 0 := by simpa using hinside
    have hnil : scope.isPrefixOf [] = false := by
      obtain ⟨_, _, hcons⟩ := List.exists_cons_of_ne_nil hscope.ne_nil
      rw [hcons]
      rfl
    have hstart : scope.isPrefixOf (c :: ds) = false :=
      (@isPrefixOf_append_cons scope c [] ds (hscope.notMem hc)).trans hnil
    have hafter : stripScopeFrom scope (some c) 0 true ds = stripScope scope ds :=
      stripScopeFrom_of_not_continuesName (by simpa using hc)
    simp [stripScopeFrom, hstart, hafter]
  | cons d cs ih =>
    cases inside with
    | succ inside =>
      have hshorter : inside ≤ cs.length := by simpa using hinside
      rw [List.cons_append, stripScopeFrom, stripScopeFrom, ih hshorter]
      split <;> rfl
    | zero =>
      have hbegins := @isPrefixOf_append_cons scope c (d :: cs) ds (hscope.notMem hc)
      rw [List.cons_append] at hbegins
      rw [List.cons_append, stripScopeFrom, stripScopeFrom, hbegins]
      split
      case isTrue hstart =>
        have hlength := (List.isPrefixOf_iff_prefix.1 hstart).length_le
        have hrest : scope.length - 1 ≤ cs.length := by
          rw [List.length_cons] at hlength
          omega
        simp only [ih hrest]
        split <;> rfl
      case isFalse => rw [ih (Nat.zero_le _), List.cons_append]

theorem stripScope_append_cons (hscope : IsScopeText scope) (hc : continuesName c = false) :
    stripScope scope (cs ++ c :: ds) = stripScope scope cs ++ c :: stripScope scope ds :=
  stripScopeFrom_append_cons hscope hc (Nat.zero_le _) true

theorem stripScope_cons (hscope : IsScopeText scope) (hc : continuesName c = false) :
    stripScope scope (c :: ds) = c :: stripScope scope ds :=
  @stripScope_append_cons scope c [] ds hscope hc

/-- A text in which the scope does not occur stays as it is. -/
theorem stripScopeFrom_of_not_isInfix (h : ¬ scope <:+: cs) (before : Option Char) :
    stripScopeFrom scope before 0 true cs = cs := by
  induction cs generalizing before with
  | nil => rfl
  | cons c cs ih =>
    simp [stripScopeFrom, isPrefixOf_of_not_isInfix h, ih fun hinfix => h (List.infix_cons hinfix)]

/-- The same for a pattern that is replaced everywhere. -/
theorem Text.replaceFrom_of_not_isInfix {pattern replacement : List Char} (h : ¬ pattern <:+: cs) :
    replaceFrom pattern replacement 0 cs = cs := by
  induction cs with
  | nil => rfl
  | cons c cs ih =>
    simp [replaceFrom, isPrefixOf_of_not_isInfix h, ih fun hinfix => h (List.infix_cons hinfix)]

/-- What the scope has none of stays, and in its order. -/
theorem filter_stripScopeFrom {p : Char → Bool} (hscope : ∀ c ∈ scope, p c = false)
    (hne : scope ≠ []) {inside : Nat} {kept : Bool} (hinside : ∀ c ∈ cs.take inside, p c = false) :
    (stripScopeFrom scope before inside kept cs).filter p = cs.filter p := by
  induction cs generalizing before inside kept with
  | nil => rfl
  | cons d ds ih =>
    -- Deleted or not, a character of the scope is filtered out.
    have hskip : ∀ {kept inside}, p d = false → (∀ c ∈ ds.take inside, p c = false) →
        (if kept = true then d :: stripScopeFrom scope (some d) inside kept ds
          else stripScopeFrom scope (some d) inside kept ds).filter p = (d :: ds).filter p := by
      intro kept inside hd hds
      cases kept <;> simp [hd, ih hds]
    cases inside with
    | succ inside =>
      rw [List.take_succ_cons, List.forall_mem_cons] at hinside
      exact hskip hinside.1 hinside.2
    | zero =>
      rw [stripScopeFrom]
      split
      case isTrue hstart =>
        obtain ⟨rest, hrest⟩ := List.isPrefixOf_iff_prefix.1 hstart
        obtain ⟨e, es, rfl⟩ := List.exists_cons_of_ne_nil hne
        obtain ⟨rfl, rfl⟩ := List.cons_eq_cons.1 hrest
        obtain ⟨hd, hes⟩ := List.forall_mem_cons.1 hscope
        exact hskip hd fun c hc => hes c (by simpa using hc)
      case isFalse => rw [List.filter_cons, List.filter_cons, ih (by simp)]

theorem filter_stripScope {p : Char → Bool} (hscope : ∀ c ∈ scope, p c = false)
    (hne : scope ≠ []) : (stripScope scope cs).filter p = cs.filter p :=
  filter_stripScopeFrom hscope hne (by simp)

/-- Inside of a name nothing is deleted. -/
theorem stripScopeFrom_of_continuesName (hbefore : before.any continuesName = true)
    (hcs : ∀ c ∈ cs, continuesName c = true) (inside : Nat) :
    stripScopeFrom scope before inside true cs = cs := by
  induction cs generalizing before inside with
  | nil => rfl
  | cons d ds ih =>
    obtain ⟨hd, hds⟩ := List.forall_mem_cons.1 hcs
    have hrest : ∀ inside, stripScopeFrom scope (some d) inside true ds = ds := ih hd hds
    cases inside <;> simp [stripScopeFrom, hbefore, hrest]

/-- A scope in front of a text is deleted. -/
theorem stripScope_scope_append (hscope : IsScopeText scope) (cs : List Char) :
    ∃ before, Option.any continuesName before = true ∧
      stripScope scope (scope ++ cs) = stripScopeFrom scope before 0 true cs := by
  have hinside : ∀ (inside : List Char) (before : Option Char),
      before.any continuesName = true → (∀ c ∈ inside, continuesName c = true) →
      ∃ after, Option.any continuesName after = true ∧
        stripScopeFrom scope before inside.length false (inside ++ cs) =
          stripScopeFrom scope after 0 true cs := by
    intro inside
    induction inside with
    | nil => exact fun before hbefore _ => ⟨before, hbefore, stripScopeFrom_zero before false cs⟩
    | cons d inside ih =>
      intro before _ hinside
      obtain ⟨hd, hinside⟩ := List.forall_mem_cons.1 hinside
      exact ih (some d) hd hinside
  obtain ⟨d, rest, rfl⟩ := List.exists_cons_of_ne_nil hscope.ne_nil
  obtain ⟨hd, hrest⟩ := List.forall_mem_cons.1 hscope.continues
  obtain ⟨after, hafter, hstrip⟩ := hinside rest (some d) hd hrest
  have hstart : (d :: rest).isPrefixOf (d :: (rest ++ cs)) = true :=
    List.isPrefixOf_iff_prefix.2 (List.prefix_append (d :: rest) cs)
  refine ⟨after, hafter, ?_⟩
  rw [List.cons_append, stripScope, stripScopeFrom, if_pos hstart, List.length_cons,
    Nat.add_sub_cancel]
  simpa using hstrip

end

/-! ## Signatures -/

/-- A signature without the scope in front of the names of its parameters and of its exception
specification. -/
def ShownSignature.strip (scope : List Char) (s : ShownSignature) : ShownSignature :=
  { s with params := s.params.map (stripScope scope), exception := stripScope scope s.exception }

section

variable {scope : List Char} (hscope : IsScopeText scope)

include hscope

theorem stripScope_intercalate (entries : List (List Char)) :
    stripScope scope ([',', ' '].intercalate entries) =
      [',', ' '].intercalate (entries.map (stripScope scope)) := by
  have hspace : continuesName ' ' = false := by decide
  induction entries with
  | nil => rfl
  | cons x entries ih =>
    cases entries with
    | nil => simp
    | cons y entries =>
      have hsplit : ∀ tail : List Char, x ++ [',', ' '] ++ tail = x ++ ',' :: ' ' :: tail := by
        simp
      rw [List.intercalate_cons_cons, hsplit, stripScope_append_cons hscope (by decide),
        stripScope_cons hscope hspace, ih, List.map_cons, List.map_cons, List.map_cons,
        List.intercalate_cons_cons, List.append_assoc]
      rfl

/-- A fragment without two colons in a row stays as it is in front of others. -/
theorem stripScope_spaced_append {fragment rest : List Char}
    (hfragment : Text.occursIn "::".toList fragment = false) (hrest : StartsIn [' '] rest) :
    stripScope scope (spaced fragment ++ rest) = spaced fragment ++ stripScope scope rest := by
  have hspace : continuesName ' ' = false := by decide
  have hkept : stripScope scope (fragment ++ rest) = fragment ++ stripScope scope rest := by
    have hfragment := stripScopeFrom_of_not_isInfix (hscope.not_isInfix hfragment) none
    cases rest with
    | nil => rw [List.append_nil]; exact hfragment.trans (List.append_nil _).symm
    | cons c rest =>
      obtain rfl : c = ' ' := List.mem_singleton.1 (startsIn_cons.1 hrest)
      rw [stripScope_append_cons hscope hspace, stripScope_cons hscope hspace, stripScope,
        hfragment]
  rw [spaced]
  split
  · rfl
  · rw [List.cons_append, stripScope_cons hscope hspace, hkept, List.cons_append]

theorem stripScope_qualifiers (s : ShownSignature) (hexception : StartsIn [' '] s.exception) :
    stripScope scope s.qualifiers = (s.strip scope).qualifiers := by
  have hspaced : ∀ (fragment : List Char) {rest : List Char}, StartsIn [' '] rest →
      StartsIn [' '] (spaced fragment ++ rest) := by
    intro fragment rest hrest
    rw [spaced]
    split
    · exact hrest
    · exact startsIn_cons.2 List.mem_cons_self
  have hconst : Text.occursIn "::".toList (if s.isConst then "const".toList else []) = false := by
    cases s.isConst <;> decide
  have href : Text.occursIn "::".toList ((s.refQualifier.map ValueKind.sigil).getD "").toList =
      false := by
    obtain _ | _ | _ := s.refQualifier <;> decide
  rw [ShownSignature.qualifiers, stripScope_spaced_append hscope hconst (hspaced _ hexception),
    stripScope_spaced_append hscope href hexception]
  rfl

/-- In the text of a signature after its scope, the scope is deleted from the parameters and the
exception specification. -/
theorem stripScopeFrom_text (s : ShownSignature) (hname : Text.occursIn "::".toList s.name = false)
    (hexception : StartsIn [' '] s.exception) (before : Option Char) :
    stripScopeFrom scope before 0 true s.text = (s.strip scope).text := by
  have hentries : s.entries.map (stripScope scope) = (s.strip scope).entries := by
    have hdots : stripScope scope "...".toList = "...".toList :=
      stripScopeFrom_of_not_isInfix (hscope.not_isInfix (by decide)) none
    rw [ShownSignature.entries, ShownSignature.entries, ShownSignature.strip, List.map_append]
    cases s.isVariadic
    · rfl
    · rw [if_pos rfl, List.map_singleton, hdots]
  rw [ShownSignature.text, stripScopeFrom_append_cons hscope (by decide) (Nat.zero_le _),
    stripScopeFrom_of_not_isInfix (hscope.not_isInfix hname),
    stripScope_append_cons hscope (by decide), stripScope_intercalate hscope, hentries,
    stripScope_qualifiers hscope s hexception]
  rfl

end

end ClassEdit
