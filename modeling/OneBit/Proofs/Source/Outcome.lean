import OneBit.Proofs.Source.Program
/-!
# What reading a program gives

A text is read to the end when each of its lines has a statement, and then gives their nodes.
Otherwise it has a first line that has none, and the error is the fault of that line.  Both are
equivalences: the grammar decides the outcome of every text.
-/

namespace OneBit.Grammar

open Text

/-- Where a line of a program starts: behind the leading blanks and the lines before it, each with
its line feed. -/
def lineStart (text : List Char) (before : List (List Char)) : Nat :=
  (text.takeWhile isBlank ++ endLines before).length

/-- An error is that of the first line of a program that has no statement: it names the part that the
line misses first, where it is missed. -/
def FirstFault (text : List Char) (e : SyntaxError) : Prop :=
  ∃ before line after offset found,
    programLines text = before ++ line :: after ∧ (∀ l ∈ before, ∃ s, Line l s) ∧
      (¬ ∃ s, Line line s) ∧ Fault (after = []) line offset found ∧
      e = .inText text (lineStart text before + offset : Nat) found (candidates found)

/-- A text from one of its lines on: what comes before the line, and the lines from there. -/
theorem exists_append_of_programLines {text line : List Char} {before after : List (List Char)}
    (h : programLines text = before ++ line :: after) :
    ∃ trail, text = text.takeWhile isBlank ++ endLines before ++
      (joinLines (line :: after) ++ trail) := by
  obtain ⟨trail, htext, -⟩ := exists_trim_append text
  refine ⟨trail, ?_⟩
  rw [trim_eq_of_programLines h] at htext
  simpa only [List.append_assoc] using htext

theorem take_lineStart {text line : List Char} {before after : List (List Char)}
    (h : programLines text = before ++ line :: after) :
    text.take (lineStart text before) = text.takeWhile isBlank ++ endLines before := by
  obtain ⟨trail, htext⟩ := exists_append_of_programLines h
  unfold lineStart
  nth_rewrite 2 [htext]
  exact List.take_left

section

variable {last : Prop} {text : List Char} {offset : Nat} {expected found : Expected}

theorem ArgumentFault.expected_eq (h : ArgumentFault last expected text offset found) :
    found = .moreInput ∨ found = expected := by
  cases h with
  | ended hlast => exact .inl rfl
  | unspaced hlast hrest => exact .inr rfl
  | unnumbered hgap hspaces htoken hstops hnumeral => exact .inr rfl

/-- A program fails for want of one of five parts. -/
theorem Fault.expected_mem (h : Fault last text offset found) :
    found ∈ [Expected.instruction, .address, .control, .endOfLine, .moreInput] := by
  cases h with
  | instruction hindent htoken hstops hcomment hspelling => decide
  | address hindent hmnemonic hname hrest => rcases hrest.expected_eq with rfl | rfl <;> decide
  | control hindent hmnemonic haddress htoken hrest =>
      rcases hrest.expected_eq with rfl | rfl <;> decide
  | endOfLine hindent hmnemonic haddress hcontrol htrail htoken hstops hne hreturn => decide

end

theorem statements_iff {α : Type} {r : α → Statement → Prop} (lines : List α) :
    (∃ statements, List.Forall₂ r lines statements) ↔ ∀ line ∈ lines, ∃ s, r line s := by
  induction lines with
  | nil => simp
  | cons line lines ih =>
      rw [List.forall_mem_cons, ← ih]
      constructor
      · rintro ⟨statements, h⟩
        obtain ⟨s, rest, hs, hrest, -⟩ := List.forall₂_cons_left_iff.1 h
        exact ⟨⟨s, hs⟩, rest, hrest⟩
      · rintro ⟨⟨s, hs⟩, rest, hrest⟩
        exact ⟨s :: rest, .cons hs hrest⟩

theorem forall_mem_programLines_iff {text : List Char} {p : List Char → Prop} :
    (∀ line ∈ programLines text, p line) ↔
      trim text = [] ∨ ∀ line ∈ splitAt '\n' (trim text), p line := by
  rw [programLines]
  split_ifs with hcore
  · simp [hcore]
  · simp [hcore]

end OneBit.Grammar

namespace OneBit.Source

open Text Grammar

variable {text : String} {before after : List (List Char)} {line : List Char}
  {statements : List Statement} {nodes : List Node} {offset : Nat} {found : Expected}

theorem read_of_ok {α : Type} {scan : Scan α} {value : α} {c : Cursor}
    (h : scan.run (Cursor.start text.toList) = .ok value c) :
    read scan text = ⟨.ok value, c.warnings⟩ := by
  rw [read, h]

theorem read_of_error {α : Type} {scan : Scan α} {e : SyntaxError} {c : Cursor}
    (h : scan.run (Cursor.start text.toList) = .error e c) :
    read scan text = ⟨.error e, c.warnings⟩ := by
  rw [read, h]

theorem readProgram_of_statements (h : List.Forall₂ Line (programLines text.toList) statements) :
    readProgram text = ⟨.ok (statements.map Statement.node),
      truncationsFrom ((text.toList.takeWhile isBlank).count '\n' + 1) statements⟩ := by
  obtain ⟨c, hrun, hwarnings⟩ := Scan.run_program_ok h
  rw [readProgram, read, hrun, ← hwarnings]

theorem parse_of_statements (h : List.Forall₂ Line (programLines text.toList) statements) :
    parse text = .ok (statements.map Statement.node) := by
  rw [parse, readProgram_of_statements h]

theorem parse_of_fault (hlines : programLines text.toList = before ++ line :: after)
    (h : List.Forall₂ Line before statements) (hfault : Fault (after = []) line offset found) :
    parse text = .error (.inText text.toList (lineStart text.toList before + offset : Nat) found
      (candidates found)) := by
  obtain ⟨c, hrun⟩ := Scan.failsAt_program hlines h hfault
  rw [parse, readProgram, read, hrun]
  rfl

theorem parse_of_firstFault {e : SyntaxError} (h : FirstFault text.toList e) :
    parse text = .error e := by
  obtain ⟨before, line, after, offset, found, hlines, hbefore, -, hfault, rfl⟩ := h
  obtain ⟨statements, hstatements⟩ := (statements_iff before).2 hbefore
  exact parse_of_fault hlines hstatements hfault

/-- The two outcomes of reading a program. -/
theorem parse_cases (text : String) :
    (∃ statements, List.Forall₂ Line (programLines text.toList) statements ∧
      parse text = .ok (statements.map Statement.node)) ∨
    ∃ e, FirstFault text.toList e ∧ parse text = .error e := by
  rcases statements_or_first (programLines text.toList) with
    ⟨statements, h⟩ | ⟨before, line, after, statements, hlines, h, hline⟩
  · exact .inl ⟨statements, h, parse_of_statements h⟩
  · obtain ⟨offset, found, hfault⟩ := (line_or_fault (after = []) line).resolve_left hline
    have hfirst : FirstFault text.toList _ := ⟨before, line, after, offset, found, hlines,
      (statements_iff before).1 ⟨statements, h⟩, hline, hfault, rfl⟩
    exact .inr ⟨_, hfirst, parse_of_firstFault hfirst⟩

theorem statements_of_parse (h : parse text = .ok nodes) :
    ∃ statements, List.Forall₂ Line (programLines text.toList) statements ∧
      nodes = statements.map Statement.node := by
  rcases parse_cases text with ⟨statements, hlines, hparse⟩ | ⟨e, -, hparse⟩
  · rw [hparse, Except.ok.injEq] at h
    exact ⟨statements, hlines, h.symm⟩
  · rw [hparse] at h
    cases h

theorem firstFault_of_parse {e : SyntaxError} (h : parse text = .error e) :
    FirstFault text.toList e := by
  rcases parse_cases text with ⟨statements, -, hparse⟩ | ⟨found, hfirst, hparse⟩
  · rw [hparse] at h
    cases h
  · rw [hparse, Except.error.injEq] at h
    rw [← h]
    exact hfirst

/-- A text is a program when it is blank or each line of the text without the blanks around it has
a statement. Its nodes are those of the statements, one for each line. -/
theorem parse_eq_ok_iff_grammar (text : String) :
    ((∃ nodes, parse text = .ok nodes) ↔
      trim text.toList = [] ∨ ∀ line ∈ splitAt '\n' (trim text.toList), ∃ s, Line line s) ∧
    ∀ nodes, parse text = .ok nodes ↔
      ∃ statements, List.Forall₂ Line (programLines text.toList) statements ∧
        nodes = statements.map Statement.node := by
  rw [← forall_mem_programLines_iff, ← statements_iff]
  constructor
  · constructor
    · rintro ⟨nodes, h⟩
      obtain ⟨statements, hlines, -⟩ := statements_of_parse h
      exact ⟨statements, hlines⟩
    · rintro ⟨statements, hlines⟩
      exact ⟨_, parse_of_statements hlines⟩
  · intro nodes
    constructor
    · exact statements_of_parse
    · rintro ⟨statements, hlines, rfl⟩
      exact parse_of_statements hlines

/-- A text that is no program has a first line without a statement, and its error is the fault of
that line. It is never that a comment is missing. -/
theorem parse_eq_error_iff_fault (text : String) :
    (∀ e, parse text = .error e ↔ FirstFault text.toList e) ∧
    ∀ e, parse text = .error e →
      e.expected ∈ [Expected.instruction, .address, .control, .endOfLine, .moreInput] := by
  constructor
  · intro e
    exact ⟨firstFault_of_parse, parse_of_firstFault⟩
  · intro e h
    obtain ⟨_, _, _, _, found, -, -, -, hfault, rfl⟩ := firstFault_of_parse h
    exact hfault.expected_mem

end OneBit.Source
