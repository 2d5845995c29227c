import Mathlib.Data.List.Forall2
import OneBit.Proofs.Source.Line
import OneBit.Source.Reading
/-!
# Reading whole programs

The scanner goes through a program line by line.  A run over lines that have a statement gives
their nodes and truncations in order; a run that meets a line at fault fails there.  Every line has
a statement or a fault, so the two runs are all there are.
-/

namespace OneBit.Grammar

open Text

/-! ## Every line has a statement or a fault -/

theorem argument_or_fault (last : Prop) (expected : Expected) (text : List Char) :
    (∃ argument rest value, text = argument ++ rest ∧ Argument argument value ∧
      Stops isTokenChar rest) ∨
      ∃ offset found, ArgumentFault last expected text offset found := by
  obtain ⟨gap, ahead, rfl, hgap⟩ := exists_longest isSpace text
  by_cases hne : gap = []
  · subst hne
    right
    by_cases hend : ahead = [] ∧ last
    · obtain ⟨rfl, hlast⟩ := hend
      exact ⟨_, _, .ended hlast⟩
    · exact ⟨_, _, .unspaced (fun hnil hlast => hend ⟨hnil, hlast⟩) hgap.stops⟩
  · obtain ⟨token, rest, rfl, htoken⟩ := exists_longest isTokenChar ahead
    by_cases hnumeral : ∃ value, NumeralToken token value
    · obtain ⟨value, hvalue⟩ := hnumeral
      refine .inl ⟨gap ++ token, rest, value, (List.append_assoc ..).symm, ?_, htoken.stops⟩
      exact ⟨gap, token, rfl, hne, hgap.all, hvalue⟩
    · rw [← List.append_assoc]
      exact .inr ⟨_, _, .unnumbered hne hgap.all htoken hgap.stops (not_exists.1 hnumeral)⟩

/-- The parts of a line are met one after the other, until one is missing or the line ends. -/
theorem line_or_fault (last : Prop) (text : List Char) :
    (∃ s, Line text s) ∨ ∃ offset found, Fault last text offset found := by
  obtain ⟨indent, body, rfl, hindent⟩ := exists_longest isSpace text
  by_cases hcomment : body.head? = some ';'
  · obtain ⟨rest, rfl⟩ := List.head?_eq_some_iff.1 hcomment
    exact .inl ⟨_, .comment hindent.all⟩
  obtain ⟨token, rest, rfl, htoken⟩ := exists_longest isNameChar body
  by_cases hspelling : ∃ i, Spelling i token
  swap
  · rw [← List.append_assoc]
    exact .inr ⟨_, _, .instruction hindent.all htoken hindent.stops hcomment
      (not_exists.1 hspelling)⟩
  obtain ⟨i, hmnemonic⟩ := hspelling
  rcases argument_or_fault last .address rest with
    ⟨address, rest, a, rfl, haddress, hrest⟩ | ⟨offset, found, hfault⟩
  swap
  · rw [← List.append_assoc]
    exact .inr ⟨_, _, .address hindent.all hmnemonic htoken.stops hfault⟩
  rcases argument_or_fault last .control rest with
    ⟨control, rest, c, rfl, hcontrol, hrest'⟩ | ⟨offset, found, hfault⟩
  swap
  · rw [← List.append_assoc, ← List.append_assoc]
    exact .inr ⟨_, _, .control hindent.all hmnemonic haddress hrest hfault⟩
  obtain ⟨trail, ending, rfl, htrail⟩ := exists_longest isSpace rest
  simp only [← List.append_assoc]
  by_cases hending : ending = [] ∨ ending = ['\r']
  · exact .inl ⟨_, .word hindent.all hmnemonic haddress hcontrol htrail.all hending⟩
  · obtain ⟨hne, hreturn⟩ := not_or.1 hending
    exact .inr ⟨_, _, .endOfLine hindent.all hmnemonic haddress hcontrol htrail.all hrest'
      htrail.stops hne hreturn⟩

/-- Either all lines have statements, or there is a first line that has none. -/
theorem statements_or_first (lines : List (List Char)) :
    (∃ statements, List.Forall₂ Line lines statements) ∨
      ∃ before line after statements, lines = before ++ line :: after ∧
        List.Forall₂ Line before statements ∧ ¬ ∃ s, Line line s := by
  induction lines with
  | nil => exact .inl ⟨[], .nil⟩
  | cons line lines ih =>
      by_cases hline : ∃ s, Line line s
      · obtain ⟨s, hs⟩ := hline
        rcases ih with ⟨statements, h⟩ | ⟨before, first, after, statements, rfl, h, hfirst⟩
        · exact .inl ⟨s :: statements, .cons hs h⟩
        · exact .inr ⟨line :: before, first, after, s :: statements, rfl, .cons hs h, hfirst⟩
      · exact .inr ⟨[], line, lines, [], rfl, .nil, hline⟩

theorem exists_concat_statements {before : List (List Char)} {line : List Char}
    {statements : List Statement} (h : List.Forall₂ Line (before ++ [line]) statements) :
    ∃ first s, statements = first ++ [s] ∧ List.Forall₂ Line before first ∧ Line line s := by
  induction before generalizing statements with
  | nil =>
      obtain ⟨s, rest, hs, hrest, rfl⟩ := List.forall₂_cons_left_iff.1 h
      rw [List.forall₂_nil_left_iff.1 hrest]
      exact ⟨[], s, rfl, .nil, hs⟩
  | cons next before ih =>
      obtain ⟨s, rest, hs, hrest, rfl⟩ := List.forall₂_cons_left_iff.1 h
      obtain ⟨first, final, rfl, hfirst, hfinal⟩ := ih hrest
      exact ⟨s :: first, final, rfl, .cons hs hfirst, hfinal⟩

theorem truncationsFrom_concat (start : Nat) (statements : List Statement) (s : Statement) :
    truncationsFrom start (statements ++ [s]) =
      truncationsFrom start statements ++
        s.truncations.map (start + statements.length, ·) := by
  induction statements generalizing start with
  | nil => simp [truncationsFrom]
  | cons first statements ih =>
      have hline : start + 1 + statements.length = start + (first :: statements).length := by
        rw [List.length_cons]
        omega
      rw [List.cons_append, truncationsFrom, ih, hline, truncationsFrom, List.append_assoc]

/-! ## The lines of a program -/

section

variable {text line : List Char} {before after : List (List Char)}

theorem notMem_of_mem_programLines (h : line ∈ programLines text) : '\n' ∉ line := by
  rw [programLines] at h
  split_ifs at h
  · cases h
  · exact notMem_of_mem_splitAt h

theorem programLines_eq_nil_iff : programLines text = [] ↔ trim text = [] := by
  rw [programLines]
  split_ifs with hcore
  · exact ⟨fun _ => hcore, fun _ => rfl⟩
  · exact ⟨fun h => absurd h (splitAt_ne_nil _ _), fun h => absurd h hcore⟩

theorem trim_eq_of_programLines (h : programLines text = before ++ line :: after) :
    trim text = endLines before ++ joinLines (line :: after) := by
  rw [programLines] at h
  split_ifs at h
  · simp at h
  · rw [← joinLines_append_cons, ← h, joinLines_splitAt]

/-- The last line of a program is not empty and ends with no blank. -/
theorem last_programLine (h : programLines text = before ++ [line]) :
    line ≠ [] ∧ EndsSolid line := by
  have hcore := trim_eq_of_programLines h
  have hsolid := endsSolid_trim text
  rw [hcore, joinLines_singleton] at hsolid
  refine ⟨?_, hsolid.of_append⟩
  rintro rfl
  rcases List.eq_nil_or_concat before with rfl | ⟨lines, last, rfl⟩
  · rw [programLines, if_pos (by simpa using hcore)] at h
    cases h
  · have hfeed := hsolid '\n' (by simp [endLines])
    revert hfeed
    decide

end

end OneBit.Grammar

namespace OneBit.Source

open Text Grammar Cursor

/-! ## Where a program starts -/

namespace Cursor

/-- Where the lines of a program start: the cursor behind the leading blanks of its text, with the
part up to the trailing blanks to be read. -/
def toProgram (c : Cursor) : Cursor :=
  let pos := c.text.length - (trimLeft c.text).length
  (c.moveTo pos).stopAt (max (trimRight c.text).length pos : Nat)

theorem exists_toProgram_eq (c : Cursor) : ∃ trail,
    c.text = c.text.takeWhile isBlank ++ trim c.text ++ trail ∧
      c.toProgram = amid (c.text.takeWhile isBlank) (trim c.text) trail c.warnings := by
  obtain ⟨trail, htext, -⟩ := exists_trim_append c.text
  refine ⟨trail, htext, ?_⟩
  rw [toProgram, length_sub_length_trimLeft, max_length_trimRight, moveTo_eq_place, amid, ← htext]
  rfl

end Cursor

/-! ## Runs over lines -/

namespace Scan

variable {passed rest beyond : List Char} {warnings : List (Nat × Truncation)}
  {before : List (List Char)} {statements : List Statement}

/-- The nodes that were read come before those of the rest of the run. -/
def prepend (nodes : List Node) :
    EStateM.Result SyntaxError Cursor (List Node) → EStateM.Result SyntaxError Cursor (List Node)
  | .ok more c => .ok (nodes ++ more) c
  | .error e c => .error e c

theorem prepend_nil (result : EStateM.Result SyntaxError Cursor (List Node)) :
    prepend [] result = result := by
  cases result <;> rfl

theorem prepend_prepend (first second : List Node)
    (result : EStateM.Result SyntaxError Cursor (List Node)) :
    prepend first (prepend second result) = prepend (first ++ second) result := by
  cases result with
  | ok more c => simp only [prepend, List.append_assoc]
  | error e c => rfl

section

variable {c next : Cursor} {node : Node} {e : SyntaxError}

theorem run_lines_of_atEnd (h : c.atEnd = true) (limit : Nat) :
    (lines limit).run c = .ok [] c := by
  cases limit with
  | zero => rfl
  | succ limit => simp [lines, h]

theorem run_lines_of_line (hmore : c.atEnd = false) (hline : line.run c = .ok node next)
    (limit : Nat) : (lines (limit + 1)).run c = prepend [node] ((lines limit).run next) := by
  rw [lines]
  simp only [EStateM.run_bind, EStateM.run_get, hmore, Bool.false_eq_true, if_false, hline,
    EStateM.run_pure]
  cases (lines limit).run next <;> rfl

theorem run_lines_of_error (hmore : c.atEnd = false) (hline : line.run c = .error e next)
    (limit : Nat) : (lines (limit + 1)).run c = .error e next := by
  rw [lines]
  simp only [EStateM.run_bind, EStateM.run_get, hmore, Bool.false_eq_true, if_false, hline]

end

theorem run_lines_succ {line tail : List Char} {s : Statement} {last : Prop} (h : Line line s)
    (hline : '\n' ∉ line) (hne : line ++ tail ≠ []) (hsolid : last → EndsSolid line)
    (htail : Follows last tail) (limit : Nat) :
    (lines (limit + 1)).run (amid passed (line ++ tail) beyond warnings) =
      prepend [s.node] ((lines limit).run (amid (passed ++ line ++ tail.take 1) (tail.drop 1) beyond
        (warnings ++ s.truncations.map (passed.count '\n' + 1, ·)))) :=
  run_lines_of_line (amid_atEnd_eq_false.2 hne) (run_line h hline hsolid htail) limit

/-- A run over lines that end with a line feed gives their nodes and goes on behind them. The
induction is on the lines; the cursor moves over one after the other. -/
theorem run_lines_append (h : List.Forall₂ Line before statements)
    (hlines : ∀ line ∈ before, '\n' ∉ line) (limit : Nat) :
    (lines (before.length + limit)).run (amid passed (endLines before ++ rest) beyond warnings) =
      prepend (statements.map Statement.node) ((lines limit).run
        (amid (passed ++ endLines before) rest beyond
          (warnings ++ truncationsFrom (passed.count '\n' + 1) statements))) := by
  induction h generalizing passed warnings with
  | nil =>
      simp only [List.length_nil, Nat.zero_add, endLines_nil, List.nil_append, List.append_nil,
        truncationsFrom, List.map_nil, prepend_nil]
  | @cons line s before statements hline _ ih =>
      have hfeed : '\n' ∉ line := hlines line (by simp)
      have hcount : (passed ++ line ++ ['\n']).count '\n' + 1 = passed.count '\n' + 1 + 1 := by
        rw [List.count_append, count_append_of_notMem passed hfeed]
        rfl
      have htail : Follows False ('\n' :: (endLines before ++ rest)) := .inr ⟨not_false, _, rfl⟩
      have hahead : endLines (line :: before) ++ rest =
          line ++ '\n' :: (endLines before ++ rest) := by simp
      have hlength : (line :: before).length + limit = before.length + limit + 1 := by
        rw [List.length_cons]
        omega
      rw [hahead, hlength, run_lines_succ hline hfeed (by simp) False.elim htail]
      simp only [List.take_succ_cons, List.take_zero, List.drop_succ_cons, List.drop_zero]
      rw [ih (fun l hl => hlines l (by simp [hl])), prepend_prepend, hcount, endLines_cons,
        truncationsFrom]
      simp only [List.append_assoc, List.singleton_append, List.map_cons]

theorem run_lines_nil (limit : Nat) :
    (lines limit).run (amid passed [] beyond warnings) = .ok [] (amid passed [] beyond warnings) :=
  run_lines_of_atEnd (by rw [amid_atEnd]; rfl) limit

/-! ## Runs over programs -/

variable {text : List Char}

theorem run_program_eq (c : Cursor) :
    program.run c = (lines (trim c.text).length).run c.toProgram := by
  have hlimit : max (trimRight c.text).length (c.text.length - (trimLeft c.text).length) -
      (c.text.length - (trimLeft c.text).length) = (trim c.text).length := by
    rw [length_sub_length_trimLeft, max_length_trimRight, Nat.add_sub_cancel_left]
  simp only [program, EStateM.run_bind, EStateM.run_get, EStateM.run_modify, hlimit]
  rfl

/-- A run over a program starts behind the leading blanks, with the trimmed text to be read, wherever
the cursor was. -/
theorem run_program_from (c : Cursor) : ∃ trail,
    c.text = c.text.takeWhile isBlank ++ trim c.text ++ trail ∧
      program.run c = (lines (trim c.text).length).run
        (amid (c.text.takeWhile isBlank) (trim c.text) trail c.warnings) := by
  obtain ⟨trail, htext, hstart⟩ := exists_toProgram_eq c
  exact ⟨trail, htext, by rw [run_program_eq, hstart]⟩

theorem run_program (text : List Char) : ∃ trail,
    text = text.takeWhile isBlank ++ trim text ++ trail ∧
      program.run (Cursor.start text) =
        (lines (trim text).length).run (amid (text.takeWhile isBlank) (trim text) trail []) :=
  run_program_from (Cursor.start text)

/-- What is left to read from a line of a program on: the line and what follows it. -/
theorem exists_follows (line : List Char) (after : List (List Char)) :
    ∃ tail, joinLines (line :: after) = line ++ tail ∧ Follows (after = []) tail := by
  cases after with
  | nil => exact ⟨[], by simp, .inl ⟨rfl, rfl⟩⟩
  | cons next after =>
      exact ⟨_, joinLines_cons_cons line next after, .inr ⟨List.cons_ne_nil _ _, _, rfl⟩⟩

/-- There are lines enough for a line and those before it. -/
theorem exists_limit (before : List (List Char)) {rest : List Char} (hrest : rest ≠ []) :
    ∃ limit, (endLines before ++ rest).length = before.length + (limit + 1) := by
  have hpos : 0 < rest.length := List.length_pos_iff.2 hrest
  have hle := length_le_length_endLines before
  refine ⟨(endLines before).length + rest.length - before.length - 1, ?_⟩
  rw [List.length_append]
  omega

/-- A program whose lines all have statements is read as their nodes, with their truncations. -/
theorem run_program_ok (h : List.Forall₂ Line (programLines text) statements) : ∃ c,
    program.run (Cursor.start text) = .ok (statements.map Statement.node) c ∧
      c.warnings =
        truncationsFrom ((text.takeWhile isBlank).count '\n' + 1) statements := by
  obtain ⟨trail, htext, hrun⟩ := run_program text
  rw [hrun]
  rcases List.eq_nil_or_concat (programLines text) with hnil | ⟨before, line, hlines⟩
  · rw [hnil, List.forall₂_nil_left_iff] at h
    rw [programLines_eq_nil_iff.1 hnil, h, run_lines_nil]
    exact ⟨_, rfl, amid_warnings⟩
  · rw [List.concat_eq_append] at hlines
    have hmem : ∀ l ∈ before ++ [line], '\n' ∉ l := fun l hl =>
      notMem_of_mem_programLines (hlines ▸ hl)
    have hfeeds : ∀ l ∈ before, '\n' ∉ l := fun l hl => hmem l (by simp [hl])
    obtain ⟨hne, hsolid⟩ := last_programLine hlines
    have hcore := trim_eq_of_programLines hlines
    rw [joinLines_singleton] at hcore
    rw [hlines] at h
    obtain ⟨first, s, rfl, hfirst, hs⟩ := exists_concat_statements h
    obtain ⟨limit, hlimit⟩ := exists_limit before hne
    have hcount : (text.takeWhile isBlank ++ endLines before).count '\n' + 1 =
        (text.takeWhile isBlank).count '\n' + 1 + first.length := by
      rw [List.count_append, count_endLines hfeeds, hfirst.length_eq]
      omega
    rw [hcore, hlimit, run_lines_append hfirst hfeeds, ← List.append_nil line,
      run_lines_succ hs (hmem line (by simp)) (by simpa using hne) (fun _ : True => hsolid)
        (.inl ⟨trivial, rfl⟩),
      List.take_nil, List.drop_nil, run_lines_nil, prepend_prepend, List.map_append]
    refine ⟨_, by rw [prepend, List.append_nil]; rfl, ?_⟩
    rw [amid_warnings, List.nil_append, truncationsFrom_concat, hcount]

theorem FailsAt.lines_succ {c : Cursor} {offset : Nat} {found : Expected} (hc : c.atEnd = false)
    (h : FailsAt line c offset found) (limit : Nat) : FailsAt (lines (limit + 1)) c offset found := by
  obtain ⟨after, hrun⟩ := h
  exact ⟨after, run_lines_of_error hc hrun limit⟩

/-- A program fails at its first line that is at fault. -/
theorem failsAt_program {text first : List Char} {after : List (List Char)} {offset : Nat}
    {found : Expected} (hlines : programLines text = before ++ first :: after)
    (h : List.Forall₂ Line before statements) (hfault : Fault (after = []) first offset found) :
    FailsAt program (Cursor.start text)
      ((text.takeWhile isBlank ++ endLines before).length + offset) found := by
  have hmem : ∀ l ∈ before ++ first :: after, '\n' ∉ l := fun l hl =>
    notMem_of_mem_programLines (hlines ▸ hl)
  have hfeeds : ∀ l ∈ before, '\n' ∉ l := fun l hl => hmem l (by simp [hl])
  have hlast : after = [] → first ≠ [] ∧ EndsSolid first := by
    rintro rfl
    exact last_programLine hlines
  obtain ⟨trail, htext, hrun⟩ := run_program text
  obtain ⟨tail, hjoin, htail⟩ := exists_follows first after
  have hne : first ++ tail ≠ [] := by
    rcases htail with ⟨hafter, rfl⟩ | ⟨-, more, rfl⟩
    · simpa using (hlast hafter).1
    · simp
  have hend : (amid (text.takeWhile isBlank ++ endLines before) (first ++ tail) trail
      ([] ++ truncationsFrom ((text.takeWhile isBlank).count '\n' + 1) statements)).atEnd = false :=
    amid_atEnd_eq_false.2 hne
  obtain ⟨limit, hlimit⟩ := exists_limit before hne
  obtain ⟨c, hc⟩ := ((failsAt_line hfault (hmem first (by simp)) (fun h => (hlast h).1)
    (fun h => (hlast h).2) htail).lines_succ hend limit)
  refine ⟨c, ?_⟩
  rw [hrun, trim_eq_of_programLines hlines, hjoin, hlimit, run_lines_append h hfeeds, hc, prepend,
    amid_text, List.append_assoc (text.takeWhile isBlank), ← hjoin,
    ← trim_eq_of_programLines hlines, ← htext]
  rfl

end Scan

end OneBit.Source
