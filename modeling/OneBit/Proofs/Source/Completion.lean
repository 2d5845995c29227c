import OneBit.Proofs.Source.Printing
import OneBit.Proofs.Text.Position
/-!
# Text before an error

An error is found as early as it can be: the text before it is the beginning of some program.  The
lines before the faulty line are a program on their own, and the faulty line up to its fault can be
completed to a line.  What follows the fault has no part in this, since each part of a line is read
before the next is looked at.
-/

namespace OneBit.Grammar

open Text

/-! ## Completing a line -/

section

variable {last : Prop} {line text : List Char} {offset : Nat} {expected found : Expected}

/-- The shortest numeral. -/
def zeroNumeral : List Char := ['0', 'b', '0']

theorem numeralToken_zero : NumeralToken zeroNumeral 0 := by
  have hdigits : Digits 2 ['0'] 0 := digits_toDigits (by decide) 0
  exact .binary (by decide) (by decide) hdigits

theorem argument_zero : Argument (' ' :: zeroNumeral) 0 := argument_of_numeral numeralToken_zero

theorem notMem_zero : '\n' ∉ ' ' :: zeroNumeral := by decide

/-- Up to its fault, an argument can be completed. -/
theorem ArgumentFault.exists_completion (h : ArgumentFault last expected text offset found) :
    ∃ front back rest, text = front ++ back ∧ front.length = offset ∧ '\n' ∉ rest ∧
      Argument (front ++ rest) 0 := by
  cases h with
  | ended hlast => exact ⟨[], [], ' ' :: zeroNumeral, rfl, rfl, notMem_zero, argument_zero⟩
  | unspaced hlast hrest =>
      exact ⟨[], text, ' ' :: zeroNumeral, rfl, rfl, notMem_zero, argument_zero⟩
  | @unnumbered gap token rest hgap hspaces htoken hstops hnumeral =>
      exact ⟨gap, token ++ rest, zeroNumeral, List.append_assoc .., rfl, by decide,
        gap, zeroNumeral, rfl, hgap, hspaces, numeralToken_zero⟩

/-- Up to its fault, a line can be completed. -/
theorem Fault.exists_completion (h : Fault last line offset found) :
    ∃ front back rest, line = front ++ back ∧ front.length = offset ∧ '\n' ∉ rest ∧
      (front = [] → Stops isBlank rest) ∧ ∃ s, Line (front ++ rest) s := by
  cases h with
  | @instruction indent token rest hindent htoken hstops hcomment hnone =>
      have hspelling : Spelling .nop0 "nop0".toList := spelling_mnemonic .nop0
      have hword : Line (indent ++ ("nop0".toList ++ ' ' :: zeroNumeral ++ ' ' :: zeroNumeral))
          (.word .nop0 0 0) := by
        have h := line_of_indented hindent hspelling argument_zero argument_zero
        simpa only [List.append_assoc] using h
      exact ⟨indent, token ++ rest, _, List.append_assoc .., rfl, by decide,
        fun _ => stops_cons.2 (by decide), _, hword⟩
  | @address indent mnemonic rest i offset expected hindent hmnemonic hname hrest =>
      obtain ⟨front, back, more, rfl, rfl, hmore, hargument⟩ := hrest.exists_completion
      have hword : Line (indent ++ mnemonic ++ front ++ (more ++ ' ' :: zeroNumeral))
          (.word i 0 0) := by
        have h := line_of_indented hindent hmnemonic hargument argument_zero
        simpa only [List.append_assoc] using h
      refine ⟨indent ++ mnemonic ++ front, back, more ++ ' ' :: zeroNumeral,
        (List.append_assoc ..).symm, List.length_append, ?_, by simp [hmnemonic.ne_nil], _, hword⟩
      rw [List.mem_append, not_or]
      exact ⟨hmore, notMem_zero⟩
  | @control indent mnemonic address rest i a offset expected hindent hmnemonic haddress htoken
      hrest =>
      obtain ⟨front, back, more, rfl, rfl, hmore, hargument⟩ := hrest.exists_completion
      have hword : Line (indent ++ mnemonic ++ address ++ front ++ more) (.word i a 0) := by
        have h := line_of_indented hindent hmnemonic haddress hargument
        simpa only [List.append_assoc] using h
      exact ⟨indent ++ mnemonic ++ address ++ front, back, more, (List.append_assoc ..).symm,
        List.length_append, hmore, by simp [hmnemonic.ne_nil], _, hword⟩
  | @endOfLine indent mnemonic address control trail rest i a c hindent hmnemonic haddress hcontrol
      htrail htoken hstops hne hreturn =>
      exact ⟨indent ++ mnemonic ++ address ++ control ++ trail, rest, [], rfl, rfl,
        List.not_mem_nil, fun _ => stops_nil, _,
        .word hindent hmnemonic haddress hcontrol htrail (.inl rfl)⟩

/-- Without the blanks at its end, a line says the same. -/
theorem Line.exists_trimRight {s : Statement} (h : Line line s) :
    trimRight line ≠ [] ∧ ∃ s', Line (trimRight line) s' ∧ s'.node = s.node := by
  cases h with
  | @comment indent body hindent =>
      obtain ⟨trail, htrail, hblank⟩ := exists_append_trimRight body
      have htrim : trimRight (indent ++ ';' :: body) = indent ++ ';' :: trimRight body := by
        rw [htrail, ← List.cons_append, ← List.append_assoc, trimRight_append_of_blank hblank,
          ← htrail]
        exact (endsSolid_semicolon (endsSolid_trimRight body) indent).trimRight_eq
      rw [htrim]
      refine ⟨by simp, _, .comment hindent, ?_⟩
      rw [Statement.node, (endsSolid_trimRight body).trimRight_eq, Statement.node]
  | @word indent mnemonic address control trail ending i a c hindent hmnemonic haddress hcontrol
      htrail hending =>
      have hblank : ∀ ch ∈ trail ++ ending, isBlank ch = true := by
        rw [List.forall_mem_append]
        refine ⟨fun ch hch => isBlank_of_isSpace (htrail ch hch), ?_⟩
        rcases hending with rfl | rfl
        · exact List.forall_mem_nil _
        · exact List.forall_mem_singleton.2 (by decide)
      have htrim : trimRight (indent ++ mnemonic ++ address ++ control ++ trail ++ ending) =
          indent ++ mnemonic ++ address ++ control := by
        rw [List.append_assoc _ trail, trimRight_append_of_blank hblank]
        exact (hcontrol.endsSolid_append _).trimRight_eq
      rw [htrim]
      exact ⟨by simp [hmnemonic.ne_nil], _, line_of_indented hindent hmnemonic haddress hcontrol,
        rfl⟩

end

/-! ## Joined lines with blanks around them -/

section

variable {lead trail text : List Char} {lines : List (List Char)} {statements : List Statement}

theorem programLines_append_of_blank (hlead : ∀ c ∈ lead, isBlank c = true)
    (htrail : ∀ c ∈ trail, isBlank c = true) (text : List Char) :
    programLines (lead ++ text ++ trail) = programLines text := by
  unfold programLines
  rw [trim_append_of_blank hlead htrail]

theorem exists_statements_joinLines (h : List.Forall₂ Line lines statements)
    (hlines : ∀ line ∈ lines, '\n' ∉ line) (hstarts : Stops isBlank (joinLines lines)) :
    ∃ trimmed, List.Forall₂ Line (programLines (joinLines lines)) trimmed ∧
      trimmed.map Statement.node = statements.map Statement.node := by
  rcases List.eq_nil_or_concat lines with rfl | ⟨before, last, rfl⟩
  · exact ⟨statements, h, rfl⟩
  · rw [List.concat_eq_append] at h hlines hstarts ⊢
    obtain ⟨first, s, rfl, hfirst, hs⟩ := exists_concat_statements h
    obtain ⟨hne, s', hs', hnode⟩ := hs.exists_trimRight
    rw [programLines_joinLines_concat hlines hstarts hne]
    refine ⟨first ++ [s'], List.rel_append hfirst (.cons hs' .nil), ?_⟩
    rw [List.map_append, List.map_append, List.map_singleton, List.map_singleton, hnode]

theorem endLines_concat (before : List (List Char)) (line : List Char) :
    endLines (before ++ [line]) = joinLines (before ++ [line]) ++ ['\n'] := by
  rw [joinLines_append_cons, joinLines_singleton, endLines, List.flatMap_append,
    List.flatMap_singleton, List.append_assoc]
  rfl

end

end OneBit.Grammar

namespace OneBit.Source

open Text Grammar

variable {lead trail : List Char} {lines : List (List Char)} {statements : List Statement}

/-- Joined lines are read as their nodes, with any blanks around them. -/
theorem parse_joinLines (h : List.Forall₂ Line lines statements)
    (hlines : ∀ line ∈ lines, '\n' ∉ line) (hstarts : Stops isBlank (joinLines lines))
    (hlead : ∀ c ∈ lead, isBlank c = true) (htrail : ∀ c ∈ trail, isBlank c = true) :
    parse (String.ofList (lead ++ joinLines lines ++ trail)) =
      .ok (statements.map Statement.node) := by
  obtain ⟨trimmed, htrimmed, hnodes⟩ := exists_statements_joinLines h hlines hstarts
  rw [← hnodes]
  apply parse_of_statements
  rw [String.toList_ofList, programLines_append_of_blank hlead htrail]
  exact htrimmed

/-- The lines before a line, up to where it starts, are a program on their own. Before the first
line there are only blanks, which may end within the line of the text on which it starts. -/
theorem parse_before_line (h : List.Forall₂ Line lines statements)
    (hlines : ∀ line ∈ lines, '\n' ∉ line) (hstarts : Stops isBlank (endLines lines))
    (hlead : ∀ c ∈ lead, isBlank c = true) :
    parse (String.ofList ((lead ++ endLines lines).take (lastLineStart (lead ++ endLines lines)))) =
      .ok (statements.map Statement.node) := by
  rcases List.eq_nil_or_concat lines with rfl | ⟨before, last, rfl⟩
  · have hblank : ∀ c ∈ (lead ++ endLines []).take (lastLineStart (lead ++ endLines [])),
        isBlank c = true := by
      intro c hc
      apply hlead
      have hmem := List.mem_of_mem_take hc
      rwa [endLines_nil, List.append_nil] at hmem
    have hparse : parse (String.ofList (_ ++ joinLines [] ++ [])) = _ :=
      parse_joinLines h hlines stops_nil hblank (List.forall_mem_nil _)
    rwa [joinLines, List.intercalate_nil, List.append_nil, List.append_nil] at hparse
  · rw [List.concat_eq_append] at h hlines hstarts ⊢
    rw [endLines_concat] at hstarts ⊢
    have hfeed : ∀ c ∈ ['\n'], isBlank c = true := List.forall_mem_singleton.2 (by decide)
    rw [← List.append_assoc, lastLineStart_feed, List.take_length]
    exact parse_joinLines h hlines hstarts.of_append hlead hfeed

/-- A line at fault, up to its fault, can be completed with the lines before it to a program. -/
theorem exists_parse_completion {line : List Char} {last : Prop} {offset : Nat} {found : Expected}
    (h : List.Forall₂ Line lines statements) (hlines : ∀ l ∈ lines ++ [line], '\n' ∉ l)
    (hstarts : Stops isBlank (endLines lines ++ line)) (hlead : ∀ c ∈ lead, isBlank c = true)
    (hfault : Fault last line offset found) :
    ∃ (front back rest : List Char) (s : Statement), line = front ++ back ∧ front.length = offset ∧
      parse (String.ofList (lead ++ endLines lines ++ front ++ rest)) =
        .ok (statements.map Statement.node ++ [s.node]) := by
  obtain ⟨front, back, rest, rfl, hoffset, hrest, hempty, s, hline⟩ := hfault.exists_completion
  rw [List.forall_mem_append, List.forall_mem_singleton] at hlines
  have hjoin : joinLines (lines ++ [front ++ rest]) = endLines lines ++ front ++ rest := by
    rw [joinLines_append_cons, joinLines_singleton, List.append_assoc]
  have hfront : '\n' ∉ front ++ rest := by
    rw [List.mem_append, not_or]
    exact ⟨fun hmem => hlines.2 (List.mem_append_left _ hmem), hrest⟩
  have hstarts' : Stops isBlank (joinLines (lines ++ [front ++ rest])) := by
    rw [← List.append_assoc] at hstarts
    rw [hjoin]
    cases hpassed : endLines lines ++ front with
    | nil => exact hempty (List.append_eq_nil_iff.1 hpassed).2
    | cons c passed =>
        rw [hpassed] at hstarts
        exact stops_cons.2 (stops_cons.1 hstarts)
  have hlines' : ∀ l ∈ lines ++ [front ++ rest], '\n' ∉ l := by
    rw [List.forall_mem_append, List.forall_mem_singleton]
    exact ⟨hlines.1, hfront⟩
  have hparse : parse (String.ofList (lead ++ joinLines (lines ++ [front ++ rest]) ++ [])) = _ :=
    parse_joinLines (List.rel_append h (.cons hline .nil)) hlines' hstarts' hlead
      (List.forall_mem_nil _)
  refine ⟨front, back, rest, s, rfl, hoffset, ?_⟩
  rw [hjoin, List.append_nil, List.map_append, List.map_singleton] at hparse
  simpa only [List.append_assoc] using hparse

/-- The parts of a text around an error: leading blanks, the lines before the line at fault, that
line up to its fault, which can be completed, and what follows. -/
theorem exists_parts_of_error {text : String} {e : SyntaxError} (h : parse text = .error e) :
    ∃ (lead front more : List Char) (lines : List (List Char)) (statements : List Statement),
      text.toList = lead ++ endLines lines ++ front ++ more ∧
      e.offset = (lead ++ endLines lines ++ front).length ∧
      (∀ c ∈ lead, isBlank c = true) ∧ '\n' ∉ front ∧ (∀ line ∈ lines, '\n' ∉ line) ∧
      Stops isBlank (endLines lines) ∧ List.Forall₂ Line lines statements ∧
      ∃ (rest : List Char) (s : Statement),
        parse (String.ofList (lead ++ endLines lines ++ front ++ rest)) =
          .ok (statements.map Statement.node ++ [s.node]) := by
  obtain ⟨lines, line, after, offset, found, hlines, hstatements, -, hfault, rfl⟩ :=
    firstFault_of_parse h
  obtain ⟨statements, hstatements⟩ := (statements_iff lines).2 hstatements
  obtain ⟨trail, htext⟩ := exists_append_of_programLines hlines
  obtain ⟨tail, hjoin, -⟩ := Scan.exists_follows line after
  have hlead : ∀ c ∈ text.toList.takeWhile isBlank, isBlank c = true :=
    fun c hc => List.all_eq_true.1 List.all_takeWhile c hc
  have hsingle : ∀ l ∈ lines ++ [line], '\n' ∉ l := by
    intro l hl
    have hmem : l ∈ programLines text.toList := by
      rw [hlines, List.append_cons]
      exact List.mem_append_left _ hl
    exact notMem_of_mem_programLines hmem
  have hstarts : Stops isBlank (endLines lines ++ line) := by
    have hcore := stops_trim text.toList
    rw [trim_eq_of_programLines hlines, hjoin, ← List.append_assoc] at hcore
    exact hcore.of_append
  obtain ⟨front, back, rest, s, rfl, rfl, hparse⟩ :=
    exists_parse_completion hstatements hsingle hstarts hlead hfault
  refine ⟨text.toList.takeWhile isBlank, front, back ++ tail ++ trail, lines, statements, ?_, ?_,
    hlead, ?_, fun l hl => hsingle l (List.mem_append_left _ hl), hstarts.of_append, hstatements,
    rest, s, hparse⟩
  · rw [hjoin] at htext
    simpa only [List.append_assoc] using htext
  · rw [List.length_append]
    rfl
  · intro hmem
    exact hsingle (front ++ back) (by simp) (List.mem_append_left _ hmem)

/-- An error lies in the text. The text before the line of the error is a program, and the text
before the error is the beginning of a program that starts with the same nodes. -/
theorem error_after_viable_text {text : String} {e : SyntaxError} (h : parse text = .error e) :
    (0 ≤ e.offset ∧ e.offset ≤ text.length) ∧
    ∃ nodes,
      parse (String.ofList (text.toList.take (lastLineStart (before text.toList e.offset)))) =
        .ok nodes ∧
      ∃ (rest : String) (all : List Node),
        parse (String.ofList (before text.toList e.offset) ++ rest) = .ok all ∧ nodes <+: all := by
  obtain ⟨lead, front, more, lines, statements, htext, hoffset, hlead, hfront, hlines, hstarts,
    hstatements, rest, s, hparse⟩ := exists_parts_of_error h
  have hbefore : before text.toList e.offset = lead ++ endLines lines ++ front := by
    rw [htext, hoffset, before_append]
  have htake : text.toList.take (lastLineStart (lead ++ endLines lines)) =
      (lead ++ endLines lines).take (lastLineStart (lead ++ endLines lines)) := by
    rw [htext, List.append_assoc _ front, List.take_append_of_le_length (lastLineStart_le _)]
  refine ⟨⟨?_, ?_⟩, statements.map Statement.node, ?_, String.ofList rest, _, ?_,
    List.prefix_append _ [s.node]⟩
  · omega
  · have hlength := congrArg List.length htext
    rw [String.length_toList, List.length_append] at hlength
    omega
  · rw [hbefore, lastLineStart_append hfront, htake]
    exact parse_before_line hstatements hlines hstarts hlead
  · rw [hbefore, ← String.ofList_append, hparse]

/-- The second line lacks its control. The first line is a program, and a control completes both. -/
theorem error_after_viable_text_second_line :
    let text := "; a\nld 0b1 x"
    let e := SyntaxError.inText text.toList 11 .control []
    parse text = .error e ∧ e.offset ≤ text.length ∧
      ∃ nodes,
        parse (String.ofList (text.toList.take (lastLineStart (before text.toList e.offset)))) =
          .ok nodes ∧
        ∃ (rest : String) (all : List Node),
          parse (String.ofList (before text.toList e.offset) ++ rest) = .ok all ∧
            nodes <+: all := by
  intro text e
  have herror : parse text = .error e := by decide +kernel
  obtain ⟨⟨-, hle⟩, hviable⟩ := error_after_viable_text herror
  exact ⟨herror, hle, hviable⟩

end OneBit.Source
