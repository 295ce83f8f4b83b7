import ClassEdit.Proofs.Splice
import ClassEdit.Proofs.TokenOrder
import ClassEdit.Text.Document

/-!
# The table of lines

A line starts at the start of a document or after a newline. A newline is one byte, and no byte of
another character is equal to it. So the newlines before an offset are counted in the bytes before
it, also for an offset that lies inside of a character or past the end.

## Main definitions

* `Text.newlineByte`: the byte of a newline.

## Main statements

* `Document.count_newlineByte_take`: the newlines among the first bytes are those that end there.
* `partitionPoint_eq_length_filter`: bisection counts the entries that satisfy its condition.
* `Document.line?_eq_getElem?`: the lines are the parts of the text between newlines.
* `Document.lineTable_spec`: lines, columns and line starts of a document.
-/

namespace ClassEdit

namespace Text

/-- The byte of a newline. -/
def newlineByte : UInt8 := 10

/-- Only a newline has the byte of a newline. -/
theorem newlineByte_notMem_utf8EncodeChar {c : Char} (hc : c ≠ '\n') :
    newlineByte ∉ String.utf8EncodeChar c := by
  have hval : c.val.toNat ≠ 10 := fun h => hc (Char.ext (UInt32.toNat_inj.1 h))
  have hbyte : newlineByte.toNat = 10 := rfl
  intro hmem
  rw [String.utf8EncodeChar] at hmem
  -- all bytes of a character above ASCII are at least 128
  split_ifs at hmem <;>
    simp only [List.mem_cons, List.not_mem_nil, or_false, ← UInt8.toNat_inj, hbyte,
      UInt8.toNat_ofNat'] at hmem <;>
    omega

end Text

/-! ## Newlines -/

namespace Document

variable {n k : Nat} {cs : List Char}

theorem bounds_of_mem_newlineEnds {stop : Nat} (h : stop ∈ newlineEnds n cs) :
    n < stop ∧ stop ≤ n + Text.byteLength cs := by
  induction cs generalizing n with
  | nil => simp [newlineEnds] at h
  | cons c cs ih =>
    have := c.utf8Size_pos
    grind [newlineEnds, Text.byteLength_cons]

theorem pairwise_newlineEnds (n : Nat) (cs : List Char) : (newlineEnds n cs).Pairwise (· < ·) := by
  induction cs generalizing n with
  | nil => exact List.Pairwise.nil
  | cons c cs ih =>
    rw [newlineEnds]
    split
    · exact List.pairwise_cons.2 ⟨fun stop hstop => (bounds_of_mem_newlineEnds hstop).1, ih _⟩
    · exact ih _

theorem length_newlineEnds_le (n : Nat) (cs : List Char) :
    (newlineEnds n cs).length ≤ Text.byteLength cs := by
  induction cs generalizing n with
  | nil => exact Nat.le_refl _
  | cons c cs ih =>
    have := c.utf8Size_pos
    grind [newlineEnds, Text.byteLength_cons]

/-- The newlines among the first `k` bytes of a text at `n` are those that end up to `n + k`. -/
theorem count_newlineByte_take (n k : Nat) (cs : List Char) :
    ((Text.bytes cs).take k).count Text.newlineByte =
      ((newlineEnds n cs).filter (· ≤ n + k)).length := by
  induction cs generalizing n k with
  | nil => simp [Text.bytes, newlineEnds]
  | cons c cs ih =>
    have hrest : (newlineEnds (n + c.utf8Size) cs).filter (· ≤ n + c.utf8Size + (k - c.utf8Size)) =
        (newlineEnds (n + c.utf8Size) cs).filter (· ≤ n + k) := by
      refine List.filter_congr fun stop hstop => decide_eq_decide.2 ?_
      have := (bounds_of_mem_newlineEnds hstop).1
      omega
    rw [Text.bytes_cons, List.take_append, List.count_append, String.length_utf8EncodeChar,
      ih (n + c.utf8Size), hrest]
    by_cases hc : c = '\n'
    · subst hc
      have hbyte : String.utf8EncodeChar '\n' = [Text.newlineByte] := rfl
      rw [hbyte, newlineEnds, if_pos rfl, Text.utf8Size_newline]
      cases k with
      | zero => simp
      | succ k => simp [Nat.add_comm]
    · have hnone : ((String.utf8EncodeChar c).take k).count Text.newlineByte = 0 :=
        List.count_eq_zero.2 fun hmem =>
          Text.newlineByte_notMem_utf8EncodeChar hc (List.mem_of_mem_take hmem)
      rw [hnone, newlineEnds, if_neg hc, Nat.zero_add]

end Document

/-! ## Bisection -/

theorem bisect_le {holds : Nat → Bool} {low high : Nat} (h : low ≤ high) :
    bisect holds low high ≤ high := by
  fun_induction bisect holds low high with
  | case1 low high hlt mid hmid ih => exact ih (by omega)
  | case2 low high hlt mid hmid ih => exact (ih (by omega)).trans (by omega)
  | case3 low high hge => exact h

/-- Bisection counts the entries that satisfy the condition. -/
theorem partitionPoint_eq_length_filter {α : Type} {holds : α → Bool} {table : Array α}
    (h : table.toList.Pairwise fun a b => holds b = true → holds a = true) :
    partitionPoint holds table = (table.toList.filter holds).length := by
  have hle : partitionPoint holds table ≤ table.size := bisect_le (Nat.zero_le _)
  rw [← (partitionPoint_spec h).1, List.length_take, Array.length_toList]
  omega

/-! ## Increasing tables -/

section Increasing

variable {front back : List Nat} {a bound : Nat}

/-- In an increasing table the entries up to one of them are that one and those before it. -/
theorem filter_le_eq_append (h : (front ++ a :: back).Pairwise (· < ·)) :
    (front ++ a :: back).filter (· ≤ a) = front ++ [a] := by
  obtain ⟨-, hback, hfront⟩ := List.pairwise_append.1 h
  rw [List.filter_append, List.filter_cons_of_pos (by simp), List.filter_eq_self.2,
    List.filter_eq_nil_iff.2]
  · intro b hb
    have := (List.pairwise_cons.1 hback).1 b hb
    simp
    omega
  · intro b hb
    have := hfront b hb a List.mem_cons_self
    simp
    omega

/-- An entry is within a bound if more entries are than come before it. -/
theorem le_of_length_lt_length_filter (h : (front ++ a :: back).Pairwise (· < ·))
    (hlt : front.length < ((front ++ a :: back).filter (· ≤ bound)).length) : a ≤ bound := by
  by_contra hgt
  have hnone : (a :: back).filter (· ≤ bound) = [] := by
    refine List.filter_eq_nil_iff.2 fun b hb => ?_
    have hback := (List.pairwise_cons.1 (List.pairwise_append.1 h).2.1).1 b
    grind
  rw [List.filter_append, hnone, List.append_nil] at hlt
  have := List.length_filter_le (· ≤ bound) front
  omega

end Increasing

namespace Document

variable (d : Document)

/-! ## Line starts -/

theorem toList_lineStarts : d.lineStarts.toList = 0 :: newlineEnds 0 d.text :=
  List.toList_toArray

theorem pairwise_lineStarts : d.lineStarts.toList.Pairwise (· < ·) := by
  rw [toList_lineStarts]
  exact List.pairwise_cons.2
    ⟨fun start hstart => (bounds_of_mem_newlineEnds hstart).1, pairwise_newlineEnds 0 d.text⟩

theorem length_lineStarts : d.lineStarts.toList.length = d.lineCount :=
  Array.length_toList

theorem lineStart?_succ (index : Nat) : d.lineStart? (index + 1) = d.lineStarts.toList[index]? := by
  rw [Array.getElem?_toList]
  rfl

theorem lineStart?_eq_some_iff {number start : Nat} : d.lineStart? number = some start ↔
    ∃ index, number = index + 1 ∧ d.lineStarts.toList[index]? = some start := by
  cases number with
  | zero => simp [lineStart?]
  | succ index => simp [lineStart?_succ]

/-- The lines are numbered from one on. -/
theorem isSome_lineStart?_iff (number : Nat) :
    (d.lineStart? number).isSome ↔ 1 ≤ number ∧ number ≤ d.lineCount := by
  cases number with
  | zero => simp [lineStart?]
  | succ index =>
    rw [lineStart?_succ, Option.isSome_iff_ne_none, Ne, List.getElem?_eq_none_iff,
      length_lineStarts]
    omega

theorem lineStart?_lt_lineStart? {number later start next : Nat} (hlt : number < later)
    (hstart : d.lineStart? number = some start) (hnext : d.lineStart? later = some next) :
    start < next := by
  obtain ⟨i, rfl, hi⟩ := d.lineStart?_eq_some_iff.1 hstart
  obtain ⟨j, rfl, hj⟩ := d.lineStart?_eq_some_iff.1 hnext
  obtain ⟨hilt, rfl⟩ := List.getElem?_eq_some_iff.1 hi
  obtain ⟨hjlt, rfl⟩ := List.getElem?_eq_some_iff.1 hj
  exact List.pairwise_iff_getElem.1 d.pairwise_lineStarts i j hilt hjlt (by omega)

theorem lineStart?_le_length {number start : Nat} (h : d.lineStart? number = some start) :
    start ≤ d.length := by
  obtain ⟨index, -, hindex⟩ := d.lineStart?_eq_some_iff.1 h
  have hmem := List.mem_of_getElem? hindex
  rw [toList_lineStarts, List.mem_cons] at hmem
  obtain rfl | hmem := hmem
  · exact Nat.zero_le _
  · exact (bounds_of_mem_newlineEnds hmem).2.trans (by rw [Nat.zero_add, length])

theorem lineCount_le_length : d.lineCount ≤ d.length + 1 := by
  rw [← length_lineStarts, toList_lineStarts, List.length_cons]
  exact Nat.succ_le_succ (length_newlineEnds_le 0 d.text)

/-- The lines that start at most at an offset are the line of the offset and those before it. -/
theorem lineColumn_fst (offset : Nat) :
    (d.lineColumn offset).1 + 1 = (d.lineStarts.toList.filter (· ≤ offset)).length := by
  have hmono : d.lineStarts.toList.Pairwise fun a b =>
      decide (b ≤ offset) = true → decide (a ≤ offset) = true := by
    refine d.pairwise_lineStarts.imp fun {a b} hlt hb => ?_
    rw [decide_eq_true_eq] at hb ⊢
    omega
  have hfirst : 0 < (d.lineStarts.toList.filter (· ≤ offset)).length := by
    rw [toList_lineStarts, List.filter_cons_of_pos (by simp)]
    exact Nat.succ_pos _
  rw [lineColumn, partitionPoint_eq_length_filter hmono]
  omega

/-- The line of an offset has as many lines before it as there are newlines. -/
theorem lineColumn_fst_eq_count (offset : Nat) : (d.lineColumn offset).1 =
    ((Text.bytes d.text).take offset).count Text.newlineByte := by
  have hline := d.lineColumn_fst offset
  rw [toList_lineStarts, List.filter_cons_of_pos (by simp), List.length_cons] at hline
  rw [count_newlineByte_take 0, Nat.zero_add]
  omega

/-- The line of an offset starts at the last entry of the table up to the offset, which is on the
same line. -/
theorem exists_lineStart? (offset : Nat) : ∃ start,
    d.lineStart? ((d.lineColumn offset).1 + 1) = some start ∧
      start + (d.lineColumn offset).2 = offset ∧
      (d.lineColumn start).1 = (d.lineColumn offset).1 := by
  have hline := d.lineColumn_fst offset
  have hlt : (d.lineColumn offset).1 < d.lineStarts.toList.length := by
    have := List.length_filter_le (· ≤ offset) d.lineStarts.toList
    omega
  obtain ⟨front, start, back, hsplit, hfront⟩ : ∃ front start back,
      d.lineStarts.toList = front ++ start :: back ∧ front.length = (d.lineColumn offset).1 := by
    have hsplit := List.take_append_drop (d.lineColumn offset).1 d.lineStarts.toList
    rw [List.drop_eq_getElem_cons hlt] at hsplit
    exact ⟨_, _, _, hsplit.symm, List.length_take_of_le (Nat.le_of_lt hlt)⟩
  have hstart : d.lineStarts.toList[(d.lineColumn offset).1]? = some start := by
    rw [hsplit, ← hfront, List.getElem?_append_right (Nat.le_refl _), Nat.sub_self]
    rfl
  have hcolumn : (d.lineColumn offset).2 = offset - start := by
    have hdef : (d.lineColumn offset).2 =
        offset - d.lineStarts.getD (d.lineColumn offset).1 0 := rfl
    rw [hdef, Array.getD_eq_getD_getElem?, ← Array.getElem?_toList, hstart, Option.getD_some]
  have hincreasing := d.pairwise_lineStarts
  have hsame := d.lineColumn_fst start
  rw [hsplit] at hline hincreasing hsame
  have hle : start ≤ offset := le_of_length_lt_length_filter hincreasing (by omega)
  rw [filter_le_eq_append hincreasing, List.length_append, List.length_singleton] at hsame
  exact ⟨start, (d.lineStart?_succ _).trans hstart, by omega, by omega⟩

/-- There is no newline between the start of a line and an offset on the line. -/
theorem newlineByte_notMem_of_lineColumn_eq {start offset : Nat} (hle : start ≤ offset)
    (h : (d.lineColumn start).1 = (d.lineColumn offset).1) :
    Text.newlineByte ∉ ((Text.bytes d.text).take offset).drop start := by
  have hparts := List.take_append_drop start ((Text.bytes d.text).take offset)
  rw [List.take_take, Nat.min_eq_left hle] at hparts
  have hcount := congrArg (List.count Text.newlineByte) hparts
  rw [List.count_append, ← lineColumn_fst_eq_count, ← lineColumn_fst_eq_count] at hcount
  exact List.count_eq_zero.1 (by omega)

/-! ## Lines -/

/-- A text is a line without a newline, or such a line, a newline and a text. -/
theorem lines_induction {motive : List Char → Prop} (last : ∀ line, '\n' ∉ line → motive line)
    (newline : ∀ line rest, '\n' ∉ line → motive rest → motive (line ++ '\n' :: rest))
    (cs : List Char) : motive cs := by
  have hline : ∀ {line : List Char}, (∀ c ∈ line, (c == '\n') = false) → '\n' ∉ line :=
    fun h hmem => Bool.noConfusion (h '\n' hmem)
  induction cs using Text.parts_induction (· == '\n') with
  | last line h => exact last line (hline h)
  | next line c rest h hc ih => exact eq_of_beq hc ▸ newline line rest (hline h) ih

theorem newlineEnds_of_notMem {line : List Char} (h : '\n' ∉ line) (n : Nat) :
    newlineEnds n line = [] := by
  induction line generalizing n with
  | nil => rfl
  | cons c line ih => grind [newlineEnds]

theorem newlineEnds_append_newline {line : List Char} (h : '\n' ∉ line) (n : Nat)
    (rest : List Char) : newlineEnds n (line ++ '\n' :: rest) =
      (n + Text.byteLength (line ++ ['\n'])) ::
        newlineEnds (n + Text.byteLength (line ++ ['\n'])) rest := by
  induction line generalizing n with
  | nil => simp [newlineEnds]
  | cons c line ih => grind [newlineEnds, Text.byteLength_cons]

theorem dropNewlines_of_notMem {line : List Char} (h : '\n' ∉ line) : dropNewlines line = line := by
  rw [dropNewlines, List.dropWhile_eq_self_iff.2, List.reverse_reverse]
  intro hlt
  have := List.getElem_mem hlt
  grind

/-- Only the newline that ends a line is dropped. -/
theorem dropNewlines_append_newline {line : List Char} (h : '\n' ∉ line) :
    dropNewlines (line ++ ['\n']) = line := by
  rw [dropNewlines, List.reverse_append, List.reverse_singleton, List.singleton_append,
    List.dropWhile_cons_of_pos (by simp)]
  exact dropNewlines_of_notMem h

/-- The lines of a text that starts after another one, looked up in their table. -/
theorem slice?_lines (cs before : List Char) (index : Nat) :
    let starts := Text.byteLength before :: newlineEnds (Text.byteLength before) cs
    (starts[index]?.bind fun start =>
      (Text.slice? (before ++ cs) start
        (starts[index + 1]?.getD (Text.byteLength (before ++ cs)))).map dropNewlines) =
      (cs.splitOn '\n')[index]? := by
  induction cs using lines_induction generalizing before index with
  | last line hline =>
    have hslice : Text.slice? (before ++ line) (Text.byteLength before)
        (Text.byteLength (before ++ line)) = some line :=
      Text.slice?_eq_some_iff.2 ⟨before, [], by simp, rfl, by simp⟩
    rw [newlineEnds_of_notMem hline, List.splitOn, List.splitOnP_eq_singleton (by grind)]
    cases index with
    | zero => simp [-Text.byteLength_append, hslice, dropNewlines_of_notMem hline]
    | succ index => simp
  | newline line rest hline ih =>
    have hslice : Text.slice? (before ++ (line ++ '\n' :: rest)) (Text.byteLength before)
        (Text.byteLength before + Text.byteLength (line ++ ['\n'])) = some (line ++ ['\n']) :=
      Text.slice?_eq_some_iff.2 ⟨before, rest, by simp, rfl, rfl⟩
    rw [newlineEnds_append_newline hline, List.splitOn,
      List.splitOnP_append_cons_of_forall_mem (by grind) _ (by simp)]
    cases index with
    | zero => simp [-Text.byteLength_append, hslice, dropNewlines_append_newline hline]
    | succ index =>
      have hrest := ih (before ++ (line ++ ['\n'])) index
      simpa [List.splitOn] using hrest

/-- The lines are the parts of the text between newlines. -/
theorem line?_eq_getElem? (index : Nat) : d.line? index = (d.text.splitOn '\n')[index]? := by
  have hlines := slice?_lines d.text [] index
  rw [Text.byteLength_nil, List.nil_append, ← toList_lineStarts] at hlines
  simp only [Array.getElem?_toList, ← Array.getD_eq_getD_getElem?] at hlines
  rw [← hlines, line?]
  simp only [Option.bind_eq_bind, Option.map_eq_bind]
  rfl

theorem lineCount_eq_length_splitOn : d.lineCount = (d.text.splitOn '\n').length := by
  have hlength : ∀ (cs : List Char) (n : Nat),
      (newlineEnds n cs).length + 1 = (cs.splitOn '\n').length := by
    intro cs
    induction cs using lines_induction with
    | last line hline =>
      intro n
      rw [newlineEnds_of_notMem hline, List.splitOn, List.splitOnP_eq_singleton (by grind)]
      rfl
    | newline line rest hline ih =>
      intro n
      rw [newlineEnds_append_newline hline, List.splitOn,
        List.splitOnP_append_cons_of_forall_mem (by grind) _ (by simp), List.length_cons,
        List.length_cons, ih, List.splitOn]
  rw [← length_lineStarts, toList_lineStarts, List.length_cons, hlength]

/-- Every line has a text, and together these are the parts between newlines. -/
theorem map_line?_range :
    (List.range d.lineCount).map d.line? = (d.text.splitOn '\n').map some := by
  refine List.ext_getElem (by simp [lineCount_eq_length_splitOn]) fun index _ hindex => ?_
  rw [List.length_map] at hindex
  simp [line?_eq_getElem?, hindex]

/-- An offset is on the line with as many newlines before it as there are in the text before the
offset, and its column is the distance from the start of that line, without a newline between them.
The lines have increasing starts and are numbered without gaps. With newlines between them they are
the text. All numbers are bounded by the length of the text, or for the lines by one more. -/
theorem lineTable_spec :
    (∀ offset, ∃ start,
      (d.lineColumn offset).1 = ((Text.bytes d.text).take offset).count Text.newlineByte ∧
      d.lineStart? ((d.lineColumn offset).1 + 1) = some start ∧
      start + (d.lineColumn offset).2 = offset ∧
      Text.newlineByte ∉ ((Text.bytes d.text).take offset).drop start) ∧
    (∀ number, (d.lineStart? number).isSome ↔ 1 ≤ number ∧ number ≤ d.lineCount) ∧
    (∀ number later start next, number < later → d.lineStart? number = some start →
      d.lineStart? later = some next → start < next) ∧
    (∃ lines, (List.range d.lineCount).map d.line? = lines.map some ∧
      ['\n'].intercalate lines = d.text) ∧
    d.lineCount ≤ d.length + 1 ∧ ∀ number start, d.lineStart? number = some start →
      start ≤ d.length := by
  refine ⟨fun offset => ?_, d.isSome_lineStart?_iff, fun _ _ _ _ => d.lineStart?_lt_lineStart?,
    ⟨_, d.map_line?_range, List.intercalate_splitOn '\n'⟩, d.lineCount_le_length,
    fun _ _ => d.lineStart?_le_length⟩
  obtain ⟨start, hstart, hcolumn, hsame⟩ := d.exists_lineStart? offset
  exact ⟨start, d.lineColumn_fst_eq_count offset, hstart, hcolumn,
    d.newlineByte_notMem_of_lineColumn_eq (by omega) hsame⟩

/-- Two newlines in a row, a character of two bytes and a newline at the end. -/
def blankLine : Document where
  text := "a\n\nxé\n".toList

theorem lineTable_spec_blankLine :
    (blankLine.lineColumn 5).1 = 2 ∧ blankLine.lineCount = 4 ∧
    blankLine.lineStart? 3 = some 3 ∧ blankLine.lineStart? 4 = some 7 ∧ 3 < 7 ∧
    ∃ lines, (List.range 4).map blankLine.line? = lines.map some ∧
      ['\n'].intercalate lines = blankLine.text := by
  obtain ⟨hoffset, -, hincreasing, hlines, -⟩ := lineTable_spec blankLine
  obtain ⟨start, hline, -⟩ := hoffset 5
  have hthird : blankLine.lineStart? 3 = some 3 := by decide
  have hfourth : blankLine.lineStart? 4 = some 7 := by decide
  have hcount : ((Text.bytes blankLine.text).take 5).count Text.newlineByte = 2 := by decide
  exact ⟨hline.trans hcount, by decide, hthird, hfourth,
    hincreasing 3 4 3 7 (by decide) hthird hfourth, hlines⟩

end Document

end ClassEdit
