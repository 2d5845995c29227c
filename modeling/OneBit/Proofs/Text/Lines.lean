import Mathlib.Data.List.Basic
import OneBit.Text.Split
/-!
# Lines of a text

A text cut at its line feeds gives its lines, and lines joined by line feeds give a text.  The two
are inverse to each other where no line holds a line feed.
-/

namespace OneBit.Text

/-- Lines one after the other, with a line feed between them. -/
def joinLines (lines : List (List Char)) : List Char := ['\n'].intercalate lines

/-- Lines one after the other, with a line feed after each. -/
def endLines (lines : List (List Char)) : List Char := lines.flatMap (· ++ ['\n'])

theorem splitAt_eq_splitOn (separator : Char) (text : List Char) :
    splitAt separator text = text.splitOn separator := by
  induction text with
  | nil => rfl
  | cons c rest ih =>
      rw [splitAt, List.splitOn_cons_eq_if_modifyHead, ih]
      by_cases hc : c = separator
      · simp [hc]
      · rw [if_neg hc, if_neg (by simpa using hc)]
        cases hparts : rest.splitOn separator with
        | nil => exact absurd hparts (List.splitOn_ne_nil separator rest)
        | cons part parts => rfl

theorem splitAt_ne_nil (separator : Char) (text : List Char) : splitAt separator text ≠ [] := by
  rw [splitAt_eq_splitOn]
  exact List.splitOn_ne_nil separator text

theorem joinLines_splitAt (text : List Char) : joinLines (splitAt '\n' text) = text := by
  rw [splitAt_eq_splitOn, joinLines, List.intercalate_splitOn]

theorem splitAt_joinLines {lines : List (List Char)} (hne : lines ≠ [])
    (hlines : ∀ line ∈ lines, '\n' ∉ line) : splitAt '\n' (joinLines lines) = lines := by
  rw [splitAt_eq_splitOn, joinLines, List.splitOn_intercalate '\n' hlines hne]

/-- No part of a text that was cut holds the separator. -/
theorem notMem_of_mem_splitAt {separator : Char} {text part : List Char}
    (h : part ∈ splitAt separator text) : separator ∉ part := by
  induction text generalizing part with
  | nil => simp_all [splitAt]
  | cons c rest ih =>
      rw [splitAt] at h
      split_ifs at h with hc
      · rcases List.mem_cons.1 h with rfl | h
        · exact List.not_mem_nil
        · exact ih h
      · cases hparts : splitAt separator rest with
        | nil => exact absurd hparts (splitAt_ne_nil separator rest)
        | cons first parts =>
            rw [hparts] at h
            rcases List.mem_cons.1 h with rfl | h
            · have hfirst : separator ∉ first := ih (by simp [hparts])
              exact fun hmem => (List.mem_cons.1 hmem).elim (fun he => hc he.symm) hfirst
            · exact ih (by simp [hparts, h])

theorem joinLines_cons_cons (first second : List Char) (lines : List (List Char)) :
    joinLines (first :: second :: lines) = first ++ '\n' :: joinLines (second :: lines) := by
  rw [joinLines, List.intercalate_cons_cons, joinLines, List.append_assoc, List.singleton_append]

@[simp] theorem joinLines_singleton (line : List Char) : joinLines [line] = line :=
  List.intercalate_singleton

@[simp] theorem endLines_nil : endLines [] = [] := rfl

@[simp] theorem endLines_cons (line : List Char) (lines : List (List Char)) :
    endLines (line :: lines) = line ++ '\n' :: endLines lines := by
  simp [endLines]

/-- A text from one of its lines on: the lines before it are ended, the others are joined. -/
theorem joinLines_append_cons (before : List (List Char)) (line : List Char)
    (after : List (List Char)) :
    joinLines (before ++ line :: after) = endLines before ++ joinLines (line :: after) := by
  induction before with
  | nil => rfl
  | cons first before ih =>
      have hcons : ∃ second lines, before ++ line :: after = second :: lines := by
        cases before <;> simp
      obtain ⟨second, lines, hlines⟩ := hcons
      rw [List.cons_append, hlines, joinLines_cons_cons, ← hlines, ih, endLines_cons]
      simp

theorem length_le_length_endLines (lines : List (List Char)) :
    lines.length ≤ (endLines lines).length := by
  induction lines with
  | nil => exact Nat.le_refl _
  | cons line lines ih =>
      rw [endLines_cons, List.length_append, List.length_cons, List.length_cons]
      omega

theorem count_endLines {lines : List (List Char)} (h : ∀ line ∈ lines, '\n' ∉ line) :
    (endLines lines).count '\n' = lines.length := by
  induction lines with
  | nil => rfl
  | cons line lines ih =>
      have hline : line.count '\n' = 0 := List.count_eq_zero.2 (h line (by simp))
      rw [endLines_cons, List.count_append, List.count_cons_self, hline,
        ih (fun l hl => h l (by simp [hl])), List.length_cons]
      omega

end OneBit.Text
