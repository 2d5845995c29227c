import OneBit.Proofs.Source.Outcome
import OneBit.Proofs.Text.Position
/-!
# An error and the lines after it

Behind a line feed that is not the end of a program anything may follow: the lines before it are the
same, none of them is the last, and so is the first of them that is at fault.  An error before such
a line feed tells nothing about the text behind it.
-/

namespace OneBit.Text

theorem splitAt_append_cons (separator : Char) (first second : List Char) :
    splitAt separator (first ++ separator :: second) =
      splitAt separator first ++ splitAt separator second := by
  induction first with
  | nil => simp [splitAt]
  | cons c rest ih =>
      rw [List.cons_append, splitAt, splitAt, ih]
      by_cases hc : c = separator
      · rw [if_pos hc, if_pos hc, List.cons_append]
      · rw [if_neg hc, if_neg hc]
        cases hparts : splitAt separator rest with
        | nil => exact absurd hparts (splitAt_ne_nil separator rest)
        | cons part parts => rfl

theorem endLines_splitAt (text : List Char) : endLines (splitAt '\n' text) = text ++ ['\n'] := by
  rcases List.eq_nil_or_concat (splitAt '\n' text) with hnil | ⟨before, last, hlines⟩
  · exact absurd hnil (splitAt_ne_nil '\n' text)
  · have hjoin := joinLines_splitAt text
    rw [hlines, List.concat_eq_append, joinLines_append_cons, joinLines_singleton] at hjoin
    rw [hlines, List.concat_eq_append, ← hjoin, endLines, List.flatMap_append,
      List.flatMap_singleton, ← List.append_assoc]
    rfl

end OneBit.Text

namespace OneBit.Grammar

open Text

variable {front back back' : List Char} {before : List (List Char)} {e : SyntaxError}

/-! ## Lines before and behind a line feed -/

/-- A line feed with text that is not blank on both sides separates the lines of a program. -/
theorem programLines_append_feed (hfront : trim front ≠ []) (hback : trim back ≠ []) :
    programLines (front ++ '\n' :: back) =
      splitAt '\n' (trimLeft front) ++ splitAt '\n' (trimRight back) := by
  have htrim : trim (front ++ '\n' :: back) = trimLeft front ++ '\n' :: trimRight back := by
    rw [trim, trimLeft_append_of_trim_ne_nil hfront, List.append_cons,
      trimRight_append_of_trim_ne_nil hback, ← List.append_cons]
  unfold programLines
  rw [htrim, if_neg (by simp), splitAt_append_cons]

theorem lineStart_append_feed (hfront : trim front ≠ []) :
    lineStart (front ++ '\n' :: back) before = lineStart front before := by
  rw [lineStart, takeWhile_append_of_trim_ne_nil hfront, lineStart]

theorem length_lt_lineStart (h : splitAt '\n' (trimLeft front) <+: before) :
    front.length < lineStart front before := by
  obtain ⟨more, rfl⟩ := h
  have hfront := congrArg List.length (takeWhile_trimLeft_append front [])
  rw [lineStart, endLines, List.flatMap_append, ← endLines, endLines_splitAt]
  simp only [List.length_append, List.length_singleton, List.append_nil] at hfront ⊢
  omega

theorem length_lt_lineStart_of_blank (hfront : trim front = []) (back : List Char)
    (before : List (List Char)) :
    front.length < lineStart (front ++ '\n' :: back) before := by
  have hlead : (front ++ '\n' :: back).takeWhile isBlank =
      front ++ '\n' :: back.takeWhile isBlank := by
    rw [List.takeWhile_append_of_pos (trim_eq_nil_iff.1 hfront), List.takeWhile_cons_of_pos (by decide)]
  rw [lineStart, hlead]
  simp only [List.length_append, List.length_cons]
  omega

theorem inText_append_of_le {offset : Nat} (h : offset ≤ front.length) (more more' : List Char)
    (expected : Expected) (candidates : List Instruction) :
    SyntaxError.inText (front ++ more) offset expected candidates =
      .inText (front ++ more') offset expected candidates := by
  have hbefore (rest : List Char) : Text.before (front ++ rest) offset = front.take offset := by
    rw [Text.before, index_of_nonneg (by omega), Int.toNat_natCast, List.take_append_of_le_length h]
  simp only [SyntaxError.inText, Position.ofOffset, lineAt, hbefore]

/-- A line of the front, with what follows it, whatever stands behind the line feed. -/
theorem exists_line_of_front (hfront : trim front ≠ []) (hback : trim back ≠ []) {line : List Char}
    {after : List (List Char)} (h : programLines (front ++ '\n' :: back) = before ++ line :: after)
    (hnot : ¬ splitAt '\n' (trimLeft front) <+: before) :
    after ≠ [] ∧ ∀ back' : List Char, trim back' ≠ [] → ∃ after', after' ≠ [] ∧
      programLines (front ++ '\n' :: back') = before ++ line :: after' := by
  rw [programLines_append_feed hfront hback] at h
  rcases List.append_eq_append_iff.1 h with ⟨more, hbefore, -⟩ | ⟨more, hlines, hafter⟩
  · exact absurd ⟨more, hbefore.symm⟩ hnot
  cases more with
  | nil =>
      rw [List.append_nil] at hlines
      exact absurd ⟨[], by rw [List.append_nil, hlines]⟩ hnot
  | cons first more =>
      rw [List.cons_append] at hafter
      obtain ⟨rfl, rfl⟩ := List.cons.inj hafter
      have hne (text : List Char) : more ++ splitAt '\n' text ≠ [] := by
        simp [splitAt_ne_nil]
      refine ⟨hne _, fun back' hback' => ⟨_, hne (trimRight back'), ?_⟩⟩
      rw [programLines_append_feed hfront hback', hlines, List.append_assoc, List.cons_append]

theorem FirstFault.of_later (h : FirstFault (front ++ '\n' :: back) e)
    (hle : e.offset ≤ front.length) (hback : trim back ≠ []) (hback' : trim back' ≠ []) :
    FirstFault (front ++ '\n' :: back') e := by
  obtain ⟨before, line, after, offset, found, hlines, hbefore, hline, hfault, rfl⟩ := h
  have hle' : lineStart (front ++ '\n' :: back) before + offset ≤ front.length := Int.ofNat_le.1 hle
  have hfront : trim front ≠ [] := by
    intro hblank
    have hlt := length_lt_lineStart_of_blank hblank back before
    omega
  rw [lineStart_append_feed hfront] at hle' ⊢
  have hnot : ¬ splitAt '\n' (trimLeft front) <+: before := by
    intro hall
    have hlt := length_lt_lineStart hall
    omega
  obtain ⟨hafter, hsame⟩ := exists_line_of_front hfront hback hlines hnot
  obtain ⟨after', hafter', hlines'⟩ := hsame back' hback'
  refine ⟨before, line, after', offset, found, hlines', hbefore, hline, ?_, ?_⟩
  · -- In neither text is the line the last one.
    rw [eq_false hafter] at hfault
    rw [eq_false hafter']
    exact hfault
  · rw [lineStart_append_feed hfront]
    exact inText_append_of_le hle' _ _ _ _

end OneBit.Grammar

namespace OneBit.Source

open Text Grammar

theorem parse_error_of_later {front back back' : String} {e : SyntaxError}
    (hback : ∃ c ∈ back.toList, isBlank c = false) (hback' : ∃ c ∈ back'.toList, isBlank c = false)
    (h : parse (front ++ "\n" ++ back) = .error e) (hle : e.offset ≤ front.length) :
    parse (front ++ "\n" ++ back') = .error e := by
  have htext (more : String) :
      (front ++ "\n" ++ more).toList = front.toList ++ '\n' :: more.toList := by
    simp
  have hfault := firstFault_of_parse h
  apply parse_of_firstFault
  rw [htext] at hfault ⊢
  exact hfault.of_later (by rwa [String.length_toList]) (trim_ne_nil hback) (trim_ne_nil hback')

/-- An error before a line feed with more than blanks behind it does not depend on what stands
there: the other text has the very same error. Where one text has no error before the line feed,
neither has the other. -/
theorem first_error_ignores_later_lines (front back back' : String)
    (hback : ∃ c ∈ back.toList, isBlank c = false)
    (hback' : ∃ c ∈ back'.toList, isBlank c = false) :
    (∀ e, parse (front ++ "\n" ++ back) = .error e → e.offset ≤ front.length →
      parse (front ++ "\n" ++ back') = .error e) ∧
    ((∀ e, parse (front ++ "\n" ++ back) = .error e → front.length < e.offset) →
      ∀ e, parse (front ++ "\n" ++ back') = .error e → front.length < e.offset) := by
  constructor
  · intro e h hle
    exact parse_error_of_later hback hback' h hle
  · intro hfirst e h
    by_contra hle
    have hsame := parse_error_of_later hback' hback h (by omega)
    exact hle (hfirst e hsame)

/-- The second line lacks its control, whether a word or nothing that can be read follows. -/
theorem first_error_ignores_later_lines_second_line :
    let front := "; a\nld 0b1\r"
    let e := SyntaxError.inText (front ++ "\n" ++ "nop0 0b0 0b0").toList 10 .control []
    (∃ c ∈ "nop0 0b0 0b0".toList, isBlank c = false) ∧ (∃ c ∈ "?".toList, isBlank c = false) ∧
      parse (front ++ "\n" ++ "nop0 0b0 0b0") = .error e ∧ e.offset ≤ front.length ∧
      parse (front ++ "\n" ++ "?") = .error e := by
  intro front e
  have hback : ∃ c ∈ "nop0 0b0 0b0".toList, isBlank c = false := ⟨'n', by decide, by decide⟩
  have hback' : ∃ c ∈ "?".toList, isBlank c = false := ⟨'?', by decide, by decide⟩
  have herror : parse (front ++ "\n" ++ "nop0 0b0 0b0") = .error e := by decide +kernel
  have hle : e.offset ≤ front.length := by decide
  obtain ⟨hsame, -⟩ := first_error_ignores_later_lines front _ _ hback hback'
  exact ⟨hback, hback', herror, hle, hsame e herror hle⟩

end OneBit.Source
