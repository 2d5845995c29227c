import Mathlib.Algebra.GroupWithZero.Nat
import OneBit.Proofs.Text.Lines
import OneBit.Proofs.Text.Position
import OneBit.SyntaxError
/-!
# Offsets and positions

A text cut at its line feeds is a grid: each offset of the text, its end included, is a line and a
column, and each column of a line, the one behind its last character included, is an offset.  Both
ways go through one form of an offset, the ended lines before it and a number of characters of its
own line.
-/

namespace OneBit.Text

variable {text line line' : List Char} {before after before' after' : List (List Char)}
  {count offset offset' : Nat}

/-! ## The grid of a text -/

/-- The characters before a line: those of the lines before it, and a line feed for each. -/
def lineOffset (text : List Char) (number : Nat) : Nat :=
  (((splitAt '\n' text).take (number - 1)).map fun line => line.length + 1).sum

namespace Position

/-- A line of the text, and a column of it or the one behind its last character. -/
structure Within (text : List Char) (p : Position) : Prop where
  line_pos : 1 ≤ p.line
  line_le : p.line ≤ (splitAt '\n' text).length
  column_pos : 1 ≤ p.column
  column_le : ∀ line ∈ (splitAt '\n' text)[p.line - 1]?, p.column ≤ line.length + 1

end Position

/-! ## Lines before and characters of the line -/

theorem eq_of_splitAt (h : splitAt '\n' text = before ++ line :: after) :
    text = endLines before ++ joinLines (line :: after) := by
  rw [← joinLines_append_cons, ← h, joinLines_splitAt]

theorem exists_joinLines_cons (line : List Char) (after : List (List Char)) :
    ∃ tail, joinLines (line :: after) = line ++ tail := by
  cases after with
  | nil => exact ⟨[], by rw [joinLines_singleton, List.append_nil]⟩
  | cons next after => exact ⟨_, joinLines_cons_cons line next after⟩

theorem length_endLines (lines : List (List Char)) :
    (endLines lines).length = (lines.map fun line => line.length + 1).sum := by
  rw [endLines, List.length_flatMap]
  simp only [List.length_append, List.length_singleton]

theorem lineOffset_of_splitAt (h : splitAt '\n' text = before ++ line :: after) :
    lineOffset text (before.length + 1) = (endLines before).length := by
  rw [lineOffset, h, Nat.add_sub_cancel, List.take_left, length_endLines]

theorem stops_reverse_endLines (lines : List (List Char)) :
    Stops (· ≠ '\n') (endLines lines).reverse := by
  rcases List.eq_nil_or_concat lines with rfl | ⟨lines, last, rfl⟩
  · exact stops_nil
  · simp [endLines]

/-- So many characters of a line are so many columns. -/
theorem ofOffset_of_splitAt (h : splitAt '\n' text = before ++ line :: after)
    (hcount : count ≤ line.length) :
    Position.ofOffset text ((endLines before).length + count : Nat) =
      ⟨before.length + 1, count + 1⟩ := by
  have hbefore : ∀ l ∈ before, '\n' ∉ l := by
    intro l hl
    have hmem : l ∈ splitAt '\n' text := h ▸ List.mem_append_left _ hl
    exact notMem_of_mem_splitAt hmem
  have hline : '\n' ∉ line := by
    have hmem : line ∈ splitAt '\n' text := h ▸ List.mem_append_right _ List.mem_cons_self
    exact notMem_of_mem_splitAt hmem
  have htake : '\n' ∉ line.take count := fun hmem => hline (List.mem_of_mem_take hmem)
  obtain ⟨tail, htail⟩ := exists_joinLines_cons line after
  have htext : text = endLines before ++ line.take count ++ (line.drop count ++ tail) := by
    rw [eq_of_splitAt h, htail, List.append_assoc, ← List.append_assoc (line.take count),
      List.take_append_drop]
  have hlength : (endLines before).length + count =
      (endLines before ++ line.take count).length := by
    rw [List.length_append, List.length_take_of_le hcount]
  have hlong : Longest (· ≠ '\n') (line.take count).reverse (endLines before).reverse := by
    refine ⟨fun c hc => decide_eq_true fun hfeed => ?_, stops_reverse_endLines before⟩
    exact htake (hfeed ▸ List.mem_reverse.1 hc)
  rw [hlength, htext, ofOffset_append List.reverse_append hlong, List.count_append,
    count_endLines hbefore, List.count_eq_zero.2 htake, List.length_reverse,
    List.length_take_of_le hcount]

/-- Every offset has a line; the induction takes lines off the front until the offset is reached. -/
theorem exists_line_of_le {lines : List (List Char)} (hne : lines ≠ [])
    (h : offset ≤ (joinLines lines).length) :
    ∃ before line after count, lines = before ++ line :: after ∧ count ≤ line.length ∧
      offset = (endLines before).length + count := by
  induction lines generalizing offset with
  | nil => exact absurd rfl hne
  | cons first lines ih =>
      by_cases hfirst : offset ≤ first.length
      · exact ⟨[], first, lines, offset, rfl, hfirst, (Nat.zero_add offset).symm⟩
      cases lines with
      | nil =>
          rw [joinLines_singleton] at h
          omega
      | cons next lines =>
          rw [joinLines_cons_cons, List.length_append, List.length_cons] at h
          have hrest : offset - (first.length + 1) ≤ (joinLines (next :: lines)).length := by omega
          obtain ⟨before, line, after, count, hlines, hcount, hoffset⟩ :=
            ih (List.cons_ne_nil _ _) hrest
          refine ⟨first :: before, line, after, count, by rw [hlines]; rfl, hcount, ?_⟩
          rw [endLines_cons, List.length_append, List.length_cons]
          omega

theorem exists_splitAt_of_le (h : offset ≤ text.length) :
    ∃ before line after count, splitAt '\n' text = before ++ line :: after ∧
      count ≤ line.length ∧ offset = (endLines before).length + count := by
  apply exists_line_of_le (splitAt_ne_nil '\n' text)
  rw [joinLines_splitAt]
  exact h

theorem le_length_of_splitAt (h : splitAt '\n' text = before ++ line :: after)
    (hcount : count ≤ line.length) : (endLines before).length + count ≤ text.length := by
  obtain ⟨tail, htail⟩ := exists_joinLines_cons line after
  rw [eq_of_splitAt h, htail, List.length_append, List.length_append]
  omega

/-- A line ends before the next one starts. -/
theorem lt_of_length_lt (h : splitAt '\n' text = before ++ line :: after)
    (h' : splitAt '\n' text = before' ++ line' :: after') (hcount : count ≤ line.length)
    (hlt : before.length < before'.length) :
    (endLines before).length + count < (endLines before').length := by
  have hfront : before ++ [line] <+: splitAt '\n' text :=
    ⟨after, by rw [h, List.append_assoc, List.singleton_append]⟩
  have hfront' : before' <+: splitAt '\n' text := ⟨line' :: after', h'.symm⟩
  have hle : (before ++ [line]).length ≤ before'.length := by
    rw [List.length_append, List.length_singleton]
    omega
  obtain ⟨more, rfl⟩ := List.prefix_of_prefix_length_le hfront hfront' hle
  simp only [endLines, List.flatMap_append, List.length_append, List.flatMap_cons,
    List.flatMap_nil, List.length_nil, List.length_singleton]
  omega

/-! ## Positions -/

namespace Position

theorem within_of_splitAt (h : splitAt '\n' text = before ++ line :: after)
    (hcount : count ≤ line.length) : Within text ⟨before.length + 1, count + 1⟩ := by
  refine ⟨Nat.le_add_left 1 _, ?_, by dsimp only; omega, ?_⟩
  · rw [h, List.length_append, List.length_cons]
    dsimp only
    omega
  · intro l hl
    rw [h, Nat.add_sub_cancel, List.getElem?_append_right (Nat.le_refl _), Nat.sub_self,
      List.getElem?_cons_zero, Option.mem_some_iff] at hl
    subst hl
    dsimp only
    omega

/-- A position of a text is reached over the lines before it. -/
theorem Within.exists_splitAt {p : Position} (h : p.Within text) :
    ∃ before line after, ∃ count : Nat, splitAt '\n' text = before ++ line :: after ∧
      count ≤ line.length ∧ p = ⟨before.length + 1, count + 1⟩ := by
  obtain ⟨number, column⟩ := p
  obtain ⟨hpos, hle, hcolumn, hlast⟩ := h
  dsimp only at hpos hle hcolumn hlast
  have hlt : number - 1 < (splitAt '\n' text).length := by omega
  have hlines : splitAt '\n' text = (splitAt '\n' text).take (number - 1) ++
      (splitAt '\n' text)[number - 1] :: (splitAt '\n' text).drop (number - 1 + 1) := by
    rw [List.getElem_cons_drop, List.take_append_drop]
  have hline := hlast _ (List.getElem?_eq_getElem hlt)
  refine ⟨_, _, _, (column - 1).toNat, hlines, by omega, ?_⟩
  rw [List.length_take_of_le hlt.le, Position.mk.injEq]
  omega

theorem within_ofOffset (h : offset ≤ text.length) : (ofOffset text offset).Within text := by
  obtain ⟨before, line, after, count, hlines, hcount, rfl⟩ := exists_splitAt_of_le h
  rw [ofOffset_of_splitAt hlines hcount]
  exact within_of_splitAt hlines hcount

/-- The lines before a position and its column give the offset back. -/
theorem offset_eq (h : offset ≤ text.length) :
    (offset : Int) =
      lineOffset text (ofOffset text offset).line + ((ofOffset text offset).column - 1) := by
  obtain ⟨before, line, after, count, hlines, hcount, rfl⟩ := exists_splitAt_of_le h
  rw [ofOffset_of_splitAt hlines hcount, lineOffset_of_splitAt hlines]
  dsimp only
  omega

theorem Within.exists_offset {p : Position} (h : p.Within text) :
    ∃ offset ≤ text.length, ofOffset text (offset : Nat) = p := by
  obtain ⟨before, line, after, count, hlines, hcount, rfl⟩ := h.exists_splitAt
  exact ⟨_, le_length_of_splitAt hlines hcount, ofOffset_of_splitAt hlines hcount⟩

/-- Offsets are in the order of their lines, and on one line in the order of their columns. -/
theorem lt_iff_ofOffset (h : offset ≤ text.length) (h' : offset' ≤ text.length) :
    offset < offset' ↔
      (ofOffset text offset).line < (ofOffset text offset').line ∨
        (ofOffset text offset).line = (ofOffset text offset').line ∧
          (ofOffset text offset).column < (ofOffset text offset').column := by
  obtain ⟨before, line, after, count, hlines, hcount, rfl⟩ := exists_splitAt_of_le h
  obtain ⟨before', line', after', count', hlines', hcount', rfl⟩ := exists_splitAt_of_le h'
  rw [ofOffset_of_splitAt hlines hcount, ofOffset_of_splitAt hlines' hcount']
  dsimp only
  rcases Nat.lt_trichotomy before.length before'.length with hlt | heq | hgt
  · have hends := lt_of_length_lt hlines hlines' hcount hlt
    omega
  · -- As many lines before are the same lines before.
    have hsame : before = before' := (List.append_inj (hlines.symm.trans hlines') heq).1
    rw [hsame]
    omega
  · have hends := lt_of_length_lt hlines' hlines hcount' hgt
    omega

end Position

end OneBit.Text

namespace OneBit.SyntaxError

open Text

/-- The positions of errors are the offsets of a text, one to one: an error at an offset is on a
line of the text and at a column of it, and the lines before it and the column give the offset back;
every line and column is the position of an offset, and both are in the same order. -/
theorem positions_biject_with_offsets (text : List Char) (expected : Expected)
    (candidates : List Instruction) :
    let position (offset : Nat) := (inText text offset expected candidates).position
    (∀ o ≤ text.length, (position o).Within text ∧
      (o : Int) = lineOffset text (position o).line + ((position o).column - 1)) ∧
    (∀ o ≤ text.length, ∀ o' ≤ text.length, position o = position o' → o = o') ∧
    (∀ p, p.Within text → ∃ o ≤ text.length, position o = p) ∧
    ∀ o ≤ text.length, ∀ o' ≤ text.length,
      o < o' ↔ (position o).line < (position o').line ∨
        (position o).line = (position o').line ∧
          (position o).column < (position o').column := by
  refine ⟨?_, ?_, ?_, ?_⟩
  · intro o ho
    exact ⟨Position.within_ofOffset ho, Position.offset_eq ho⟩
  · intro o ho o' ho' heq
    have hoffset := Position.offset_eq ho
    have hoffset' := Position.offset_eq ho'
    change Position.ofOffset text o = Position.ofOffset text o' at heq
    rw [heq] at hoffset
    omega
  · intro p hp
    exact hp.exists_offset
  · intro o ho o' ho'
    exact Position.lt_iff_ofOffset ho ho'

/-- The end of a text whose last line is empty, and the line feed before it. -/
theorem positions_biject_with_offsets_last_feed :
    let text := "ld\n\n".toList
    let position (offset : Nat) := (inText text offset .address []).position
    (3 ≤ text.length ∧ 4 ≤ text.length) ∧ position 3 = ⟨2, 1⟩ ∧ position 4 = ⟨3, 1⟩ ∧
      (position 4).Within text ∧
      ((position 3).line < (position 4).line ∨
        (position 3).line = (position 4).line ∧ (position 3).column < (position 4).column) ∧
      ∃ o ≤ text.length, position o = ⟨2, 1⟩ := by
  intro text position
  have hthree : 3 ≤ text.length := by decide
  have hfour : 4 ≤ text.length := by decide
  obtain ⟨hwithin, -, hevery, horder⟩ := positions_biject_with_offsets text .address []
  have hposition : position 3 = ⟨2, 1⟩ := by decide
  refine ⟨⟨hthree, hfour⟩, hposition, by decide, (hwithin 4 hfour).1, ?_, ?_⟩
  · exact (horder 3 hthree 4 hfour).1 (by decide)
  · exact hevery ⟨2, 1⟩ (hposition ▸ (hwithin 3 hthree).1)

end OneBit.SyntaxError
