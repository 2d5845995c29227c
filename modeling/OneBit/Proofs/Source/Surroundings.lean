import OneBit.Proofs.Source.Outcome
import OneBit.Proofs.Source.Requests
/-!
# Blanks around a program

A step of reading depends on what is left to read, and on nothing before or beyond it: in a longer
text it does the same, at offsets and lines that are as much greater as there is text in front.
The one step that looks beyond the part to be read is the one that looks for a line end, and it does
so only behind a carriage return, which is never the last character of a trimmed program.

So blanks around a program move its nodes, warnings and errors, and change nothing else.
-/

namespace OneBit.Source

open Text Grammar

/-- Warnings on lines that are so many further on. -/
def lowered (count : Nat) (warnings : List (Nat × Truncation)) : List (Nat × Truncation) :=
  warnings.map fun warning => (warning.1 + count, warning.2)

theorem lowered_append_cuts (count line : Nat) (warnings : List (Nat × Truncation))
    (cuts : List Truncation) :
    lowered count (warnings ++ cuts.map (line, ·)) =
      lowered count warnings ++ cuts.map (line + count, ·) := by
  rw [lowered, List.map_append, List.map_map]
  rfl

namespace Cursor

/-! ## The same place in a longer text -/

/-- The place of a cursor in a longer text, with the same part to be read. -/
def within (lead trail : List Char) (c : Cursor) : Cursor :=
  place (lead ++ c.text ++ trail) (lead.length + c.pos) (lead.length + c.stop)
    (lowered (lead.count '\n') c.warnings)

/-- The cursor is inside of its text, and the part to be read does not end with a blank. -/
structure Solid (c : Cursor) : Prop where
  inside : c.Inside
  ends : EndsSolid (before c.text c.stop)

variable {c next : Cursor} {lead trail passed ahead beyond : List Char}
  {warnings : List (Nat × Truncation)}

theorem Solid.sound (h : c.Solid) : c.Sound := ⟨h.inside, .inr h.ends⟩

theorem Onward.solid (h : c.Onward next) (hc : c.Solid) : next.Solid := by
  refine ⟨(h.sound hc.sound).inside, ?_⟩
  rw [h.text_eq, h.stop_eq]
  exact hc.ends

theorem within_amid : (amid passed ahead beyond warnings).within lead trail =
    amid (lead ++ passed) ahead (beyond ++ trail) (lowered (lead.count '\n') warnings) := by
  have htext : lead ++ (passed ++ ahead ++ beyond) ++ trail =
      lead ++ passed ++ ahead ++ (beyond ++ trail) := by
    simp only [List.append_assoc]
  rw [within, amid_text, amid_pos, amid_stop, amid_warnings, amid, htext, List.length_append,
    Nat.add_assoc]
  rfl

theorem within_atEnd : (c.within lead trail).atEnd = c.atEnd := by
  change decide (lead.length + c.stop ≤ lead.length + c.pos) = decide (c.stop ≤ c.pos)
  rw [decide_eq_decide]
  omega

end Cursor

namespace Scan

open Cursor

variable {α β : Type} {x : Scan α} {f : α → Scan β}

/-- The end of a step as it is in a longer text. -/
def resultWithin (lead trail : List Char) :
    EStateM.Result SyntaxError Cursor α → EStateM.Result SyntaxError Cursor α
  | .ok value c => .ok value (c.within lead trail)
  | .error e c =>
    .error (.inText (lead ++ c.text ++ trail) (lead.length + e.offset) e.expected e.candidates)
      (c.within lead trail)

/-- A step that does the same in every longer text. -/
structure Movable (x : Scan α) : Prop where
  steady : Steady x
  run_within : ∀ (lead trail : List Char) (c : Cursor), c.Solid →
    x.run (c.within lead trail) = resultWithin lead trail (x.run c)

theorem movable_pure (value : α) : Movable (pure value : Scan α) :=
  ⟨steady_pure value, fun _ _ _ _ => rfl⟩

theorem Movable.bind (hx : Movable x) (hf : ∀ value, Movable (f value)) : Movable (x >>= f) := by
  refine ⟨hx.steady.bind fun value => (hf value).steady, ?_⟩
  intro lead trail c hc
  have hlawful := hx.steady c hc.sound
  rw [EStateM.run_bind, EStateM.run_bind, hx.run_within lead trail c hc]
  cases hrun : x.run c with
  | ok value next =>
      rw [hrun] at hlawful
      exact (hf value).run_within lead trail next (hlawful.solid hc)
  | error e next => rfl

theorem movable_of_amid (hsteady : Steady x)
    (h : ∀ lead trail passed ahead beyond warnings, EndsSolid ahead →
      x.run (amid (lead ++ passed) ahead (beyond ++ trail) (lowered (lead.count '\n') warnings)) =
        resultWithin lead trail (x.run (amid passed ahead beyond warnings))) : Movable x := by
  refine ⟨hsteady, ?_⟩
  intro lead trail c hc
  obtain ⟨passed, ahead, beyond, warnings, rfl⟩ := hc.inside.exists_amid
  have hsolid := hc.ends
  rw [before_amid] at hsolid
  rw [within_amid]
  exact h lead trail passed ahead beyond warnings hsolid.of_append

section

variable {lead trail passed run rest ahead beyond : List Char} {warnings : List (Nat × Truncation)}

theorem resultWithin_ok (value : α) :
    resultWithin lead trail (.ok value (amid (passed ++ run) rest beyond warnings)) =
      .ok value (amid (lead ++ passed ++ run) rest (beyond ++ trail)
        (lowered (lead.count '\n') warnings)) := by
  rw [resultWithin, within_amid, List.append_assoc]

theorem resultWithin_error {text : List Char} (expected : Expected)
    (candidates : List Instruction) :
    (resultWithin lead trail (.error (.inText text passed.length expected candidates)
      (amid passed ahead beyond warnings)) : EStateM.Result SyntaxError Cursor α) =
        .error (.inText (lead ++ passed ++ ahead ++ (beyond ++ trail)) (lead ++ passed).length
          expected candidates)
          (amid (lead ++ passed) ahead (beyond ++ trail) (lowered (lead.count '\n') warnings)) := by
  rw [resultWithin, within_amid, amid_text, List.length_append]
  simp only [List.append_assoc]
  rfl

theorem Refuses.run_amid_within (h : Refuses x ahead) :
    x.run (amid (lead ++ passed) ahead (beyond ++ trail) (lowered (lead.count '\n') warnings)) =
      resultWithin lead trail (x.run (amid passed ahead beyond warnings)) := by
  obtain ⟨expected, candidates, hrun⟩ := h
  rw [hrun, hrun, resultWithin_error]

end

/-! ## Single parts -/

theorem movable_peek : Movable peek := by
  apply movable_of_amid firm_peek.steady
  intro lead trail passed ahead beyond warnings _
  rw [run_peek_amid, run_peek_amid, resultWithin, within_amid]

theorem movable_skipSpace : Movable skipSpace := by
  apply movable_of_amid firm_skipSpace.steady
  intro lead trail passed ahead beyond warnings _
  obtain ⟨run, rest, rfl, hlong⟩ := exists_longest isSpace ahead
  rw [run_skipSpace hlong.all hlong.stops, run_skipSpace hlong.all hlong.stops, resultWithin_ok]

theorem movable_separator (expected : Expected) : Movable (separator expected) := by
  apply movable_of_amid (firm_separator expected).steady
  intro lead trail passed ahead beyond warnings _
  rcases separator_cases expected ahead with ⟨gap, rest, rfl, hne, hgap, hrest⟩ | hrefuses
  · rw [run_separator hne hgap hrest, run_separator hne hgap hrest, resultWithin_ok]
  · exact hrefuses.run_amid_within

theorem movable_operand (kind : Operand) (expected : Expected) : Movable (operand kind expected) := by
  apply movable_of_amid (firm_operand kind expected).steady
  intro lead trail passed ahead beyond warnings _
  rcases operand_cases kind expected ahead with ⟨token, rest, value, rfl, hvalue, hrest⟩ | hrefuses
  · have hline : (lead ++ passed).count '\n' + 1 = passed.count '\n' + 1 + lead.count '\n' := by
      rw [List.count_append]
      omega
    rw [run_operand kind hvalue hrest, run_operand kind hvalue hrest, resultWithin_ok,
      lowered_append_cuts, hline]
  · exact hrefuses.run_amid_within

theorem movable_address : Movable address :=
  (movable_operand .address .address).bind fun _ => movable_pure _

theorem movable_control : Movable control :=
  (movable_operand .control .control).bind fun _ => movable_pure _

theorem movable_instruction : Movable instruction := by
  apply movable_of_amid firm_instruction.steady
  intro lead trail passed ahead beyond warnings _
  rcases instruction_cases ahead with ⟨token, rest, i, rfl, hi, hrest⟩ | hrefuses
  · rw [run_instruction hi hrest, run_instruction hi hrest, resultWithin_ok]
  · exact hrefuses.run_amid_within

theorem movable_comment : Movable comment := by
  apply movable_of_amid firm_comment.steady
  intro lead trail passed ahead beyond warnings _
  rcases comment_cases ahead with ⟨body, rest, rfl, hbody, hrest⟩ | hrefuses
  · rw [run_comment hbody hrest, run_comment hbody hrest, resultWithin_ok]
  · exact hrefuses.run_amid_within

/-! ## Line ends -/

/-- A carriage return is not the last character of the part to be read, so its line feed is looked
for in this part. -/
theorem movable_newline (expected : Expected) : Movable (newline expected) := by
  apply movable_of_amid (steady_newline expected)
  intro lead trail passed ahead beyond warnings hsolid
  rcases newline_cases expected ahead with
    ⟨run, ending, rest, rfl, hrun, hending⟩ | ⟨run, rest, rfl, hfails⟩
  · rw [run_newline hrun hending, run_newline hrun hending, resultWithin_ok]
  · rw [hfails _ _ _ (.inr hsolid), hfails _ _ _ (.inr hsolid), resultWithin_error]
    simp only [List.append_assoc]

/-! ## Words, lines and programs -/

theorem movable_word : Movable word :=
  movable_instruction.bind fun _ =>
    (movable_separator .address).bind fun _ =>
      movable_address.bind fun _ =>
        (movable_separator .control).bind fun _ =>
          movable_control.bind fun _ => movable_pure _

theorem movable_line : Movable line := by
  refine movable_skipSpace.bind fun _ => movable_peek.bind fun next => ?_
  split
  · exact movable_comment.bind fun _ => (movable_newline .comment).bind fun _ => movable_pure _
  · exact movable_word.bind fun _ => (movable_newline .endOfLine).bind fun _ => movable_pure _

theorem movable_lines (limit : Nat) : Movable (lines limit) := by
  induction limit with
  | zero => exact movable_pure []
  | succ limit ih =>
      refine ⟨steady_lines (limit + 1), ?_⟩
      intro lead trail c hc
      have hmore : Movable (do let node ← line; return node :: (← lines limit)) :=
        movable_line.bind fun _ => ih.bind fun _ => movable_pure _
      rw [lines, EStateM.run_bind, EStateM.run_bind, EStateM.run_get, EStateM.run_get]
      simp only [within_atEnd]
      split
      · rfl
      · exact hmore.run_within lead trail c hc

variable {lead trail text : List Char}

theorem takeWhile_append_of_blank (hlead : ∀ c ∈ lead, isBlank c = true) (htext : trim text ≠ [])
    (trail : List Char) :
    (lead ++ text ++ trail).takeWhile isBlank = lead ++ text.takeWhile isBlank := by
  rw [List.append_assoc, List.takeWhile_append_of_pos hlead, takeWhile_append_of_trim_ne_nil htext]

theorem run_program_within (hlead : ∀ c ∈ lead, isBlank c = true)
    (htrail : ∀ c ∈ trail, isBlank c = true) (htext : trim text ≠ []) :
    program.run (Cursor.start (lead ++ text ++ trail)) =
      resultWithin lead trail (program.run (Cursor.start text)) := by
  obtain ⟨beyond, hparts, hrun⟩ := run_program text
  obtain ⟨beyond', hparts', hrun'⟩ := run_program (lead ++ text ++ trail)
  rw [takeWhile_append_of_blank hlead htext, trim_append_of_blank hlead htrail] at hparts' hrun'
  have hbeyond : beyond' = beyond ++ trail := by
    have hsame : lead ++ text.takeWhile isBlank ++ trim text ++ beyond' =
        lead ++ text.takeWhile isBlank ++ trim text ++ (beyond ++ trail) := by
      rw [← hparts']
      nth_rewrite 1 [hparts]
      simp only [List.append_assoc]
    exact List.append_cancel_left hsame
  have hsolid : (amid (text.takeWhile isBlank) (trim text) beyond []).Solid := by
    refine ⟨amid_inside, ?_⟩
    rw [before_amid]
    exact (endsSolid_trim text).append htext _
  rw [hrun, hrun', hbeyond, ← (movable_lines _).run_within lead trail _ hsolid, within_amid]
  rfl

/-- A program that fails leaves the cursor in its text, at the place of the error. -/
theorem exists_amid_of_error {e : SyntaxError} {c : Cursor}
    (h : program.run (Cursor.start text) = .error e c) :
    ∃ passed ahead beyond warnings expected candidates,
      c = amid passed ahead beyond warnings ∧ text = passed ++ ahead ++ beyond ∧
      e = .inText text passed.length expected candidates := by
  obtain ⟨origin, limit, hsound, htext, -, hrun⟩ := exists_sound_run_program (Cursor.start text)
  have hlawful := steady_lines limit origin hsound
  rw [← hrun, h] at hlawful
  obtain ⟨honward, expected, candidates, rfl⟩ := hlawful
  obtain ⟨passed, ahead, beyond, warnings, rfl⟩ := (honward.sound hsound).inside.exists_amid
  have hsame : (amid passed ahead beyond warnings).text = text := honward.text_eq.trans htext
  refine ⟨passed, ahead, beyond, warnings, expected, candidates, rfl, ?_, ?_⟩
  · rw [← hsame, amid_text]
  · rw [hsame, amid_pos]

end Scan

/-! ## Blanks around a text -/

section

variable {lead text trail : String}

theorem readProgram_blanks_cases (hlead : ∀ c ∈ lead.toList, isBlank c = true)
    (htrail : ∀ c ∈ trail.toList, isBlank c = true) (htext : trim text.toList ≠ []) :
    (∃ nodes warnings, readProgram text = ⟨.ok nodes, warnings⟩ ∧
      readProgram (lead ++ text ++ trail) =
        ⟨.ok nodes, lowered (lead.toList.count '\n') warnings⟩) ∨
    ∃ passed more expected candidates warnings, text.toList = passed ++ more ∧
      readProgram text = ⟨.error (.inText (passed ++ more) passed.length expected candidates),
        warnings⟩ ∧
      readProgram (lead ++ text ++ trail) =
        ⟨.error (.inText (lead.toList ++ passed ++ (more ++ trail.toList))
          (lead.toList ++ passed).length expected candidates),
          lowered (lead.toList.count '\n') warnings⟩ := by
  have hwithin := Scan.run_program_within hlead htrail htext
  rw [← String.toList_append, ← String.toList_append] at hwithin
  cases hrun : Scan.program.run (Cursor.start text.toList) with
  | ok nodes c =>
      rw [hrun] at hwithin
      exact .inl ⟨nodes, c.warnings, read_of_ok hrun, read_of_ok hwithin⟩
  | error e c =>
      obtain ⟨passed, ahead, beyond, warnings, expected, candidates, rfl, hparts, rfl⟩ :=
        Scan.exists_amid_of_error hrun
      rw [hrun, Scan.resultWithin_error] at hwithin
      have hread := read_of_error hrun
      have hmoved := read_of_error hwithin
      rw [Cursor.amid_warnings] at hread hmoved
      refine .inr ⟨passed, ahead ++ beyond, expected, candidates, warnings, ?_, ?_, ?_⟩
      · rw [hparts, List.append_assoc]
      · rw [← List.append_assoc, ← hparts]
        exact hread
      · simp only [List.append_assoc] at hmoved ⊢
        exact hmoved

theorem line_inText (passed more : List Char) (expected : Expected)
    (candidates : List Instruction) :
    (SyntaxError.inText (passed ++ more) passed.length expected candidates).position.line =
      passed.count '\n' + 1 := by
  change lineAt (passed ++ more) passed.length = _
  rw [lineAt, before_append]

end

/-- Blanks around a text that is not blank only move what is found in it: nodes and warnings are the
same, on lines that are as many further on as there are line feeds in front, or the error is the
same, that many lines and as many characters further on as there are in front. -/
theorem blanks_around_move_program (lead text trail : String)
    (hlead : ∀ c ∈ lead.toList, isBlank c = true) (htrail : ∀ c ∈ trail.toList, isBlank c = true)
    (htext : ∃ c ∈ text.toList, isBlank c = false) :
    let feeds := lead.toList.count '\n'
    let moved := readProgram (lead ++ text ++ trail)
    moved.warnings = (readProgram text).warnings.map (fun w => (w.1 + feeds, w.2)) ∧
    (∀ nodes, parse text = .ok nodes → moved.outcome = .ok nodes) ∧
    ∀ e, parse text = .error e → ∃ e', moved.outcome = .error e' ∧
      e'.expected = e.expected ∧ e'.candidates = e.candidates ∧
      e'.offset = e.offset + lead.length ∧ e'.position.line = e.position.line + feeds := by
  intro feeds moved
  rw [parse]
  rcases readProgram_blanks_cases hlead htrail (trim_ne_nil htext) with
    ⟨nodes, warnings, hread, hmoved⟩ |
      ⟨passed, more, expected, candidates, warnings, -, hread, hmoved⟩
  · change moved = _ at hmoved
    rw [hread, hmoved]
    refine ⟨rfl, fun _ h => h, ?_⟩
    intro e h
    cases h
  · change moved = _ at hmoved
    rw [hread, hmoved]
    refine ⟨rfl, ?_, ?_⟩
    · intro nodes h
      cases h
    · intro e h
      cases h
      refine ⟨_, rfl, rfl, rfl, ?_, ?_⟩
      · change ((lead.toList ++ passed).length : Int) = passed.length + lead.length
        rw [List.length_append, String.length_toList]
        omega
      · rw [line_inText, line_inText, List.count_append]
        omega

/-- A program that fails at its control, after an address that is cut, with a line feed among the
blanks in front. -/
theorem blanks_around_move_program_cut_line :
    let lead := "\n\t"
    let text := " ld 0o100 x"
    let trail := "\r\n "
    let e := SyntaxError.inText text.toList 10 .control []
    (∀ c ∈ lead.toList, isBlank c = true) ∧ (∀ c ∈ trail.toList, isBlank c = true) ∧
      (∃ c ∈ text.toList, isBlank c = false) ∧ parse text = .error e ∧
      (readProgram text).warnings = [(1, ⟨.address, 64⟩)] ∧
      (readProgram (lead ++ text ++ trail)).warnings = [(2, ⟨.address, 64⟩)] ∧
      ∃ e', (readProgram (lead ++ text ++ trail)).outcome = .error e' ∧
        e'.expected = .control ∧ e'.offset = 12 ∧ e'.position.line = 2 := by
  intro lead text trail e
  have hlead : ∀ c ∈ lead.toList, isBlank c = true := List.all_eq_true.1 (by decide)
  have htrail : ∀ c ∈ trail.toList, isBlank c = true := List.all_eq_true.1 (by decide)
  have htext : ∃ c ∈ text.toList, isBlank c = false := ⟨'l', by decide, by decide⟩
  have herror : parse text = .error e := by decide +kernel
  have hread : (readProgram text).warnings = [(1, ⟨.address, 64⟩)] := by decide +kernel
  obtain ⟨hwarnings, -, hmoved⟩ := blanks_around_move_program lead text trail hlead htrail htext
  obtain ⟨e', houtcome, hexpected, -, hoffset, hline⟩ := hmoved e herror
  rw [hread] at hwarnings
  exact ⟨hlead, htrail, htext, herror, hread, hwarnings.trans (by decide), e', houtcome, hexpected,
    hoffset.trans (by decide), hline.trans (by decide)⟩

end OneBit.Source
