import OneBit.Proofs.Source.Completion
/-!
# Reading a single line

A single word or comment is read from the very start of a text, and after it the line may end once.
Both are described here without a cursor.  From a step that succeeded one learns what it has read,
so the readers accept exactly these texts; and each of them is a program of one line.
-/

namespace OneBit.Grammar

open Text

/-- The end of the only line of a text. -/
def LineEnd (ending : List Char) : Prop :=
  ending = [] ∨ ending = ['\n'] ∨ ending = ['\r', '\n']

theorem LineEnd.isBlank {ending : List Char} (h : LineEnd ending) :
    ∀ c ∈ ending, isBlank c = true := by
  rcases h with rfl | rfl | rfl <;> exact List.all_eq_true.1 (by decide)

theorem LineEnd.stops {ending : List Char} (h : LineEnd ending) : Stops isTokenChar ending := by
  rcases h with rfl | rfl | rfl
  · exact stops_nil
  · exact stops_cons.2 (by decide)
  · exact stops_cons.2 (by decide)

/-- A text that holds one word, and after it spaces and at most one end of a line. -/
inductive WordText : List Char → Word → Prop
  | intro {mnemonic address control trail ending : List Char} {i : Instruction} {a c : Nat}
      (hmnemonic : Spelling i mnemonic) (haddress : Argument address a)
      (hcontrol : Argument control c) (htrail : Spaces trail)
      (hending : LineEnd ending) :
      WordText (mnemonic ++ address ++ control ++ trail ++ ending) ⟨i, addressOf a, controlOf c⟩

/-- A text that holds one comment, and after it at most one end of a line. -/
inductive CommentText : List Char → String → Prop
  | intro {body ending : List Char} (hbody : '\n' ∉ body)
      (hending : ending = [] ∨ ending = ['\n']) :
      CommentText (';' :: body ++ ending) (String.ofList (trimRight body))

theorem spaces_eq_nil {p : Char → Bool} {indent rest : List Char}
    (hp : ∀ c, isSpace c = true → p c = true) (hindent : Spaces indent)
    (h : Stops p (indent ++ rest)) : indent = [] := by
  cases indent with
  | nil => rfl
  | cons c indent =>
      have hc := stops_cons.1 h
      rw [hp c (hindent c (by simp))] at hc
      cases hc

end OneBit.Grammar

namespace OneBit.Source

open Text Grammar Cursor

namespace Scan

variable {passed ahead beyond : List Char} {warnings : List (Nat × Truncation)}
  {expected : Expected} {c : Cursor}

/-! ## What a step that succeeded has read -/

theorem run_bind_eq_ok_iff {α β : Type} {x : Scan α} {f : α → Scan β} {c last : Cursor}
    {result : β} : (x >>= f).run c = .ok result last ↔
      ∃ value next, x.run c = .ok value next ∧ (f value).run next = .ok result last := by
  rw [EStateM.run_bind]
  cases x.run c with
  | ok value next =>
      constructor
      · intro h
        exact ⟨value, next, rfl, h⟩
      · rintro ⟨_, _, hx, h⟩
        cases hx
        exact h
  | error e next =>
      constructor
      · intro h
        cases h
      · rintro ⟨_, _, hx, -⟩
        cases hx

theorem exists_of_run_instruction {i : Instruction}
    (h : instruction.run (amid passed ahead beyond warnings) = .ok i c) :
    ∃ mnemonic rest, ahead = mnemonic ++ rest ∧ Spelling i mnemonic ∧ Stops isNameChar rest ∧
      c = amid (passed ++ mnemonic) rest beyond warnings := by
  rcases instruction_cases ahead with ⟨mnemonic, rest, j, rfl, hj, hrest⟩ | hrefuses
  · rw [run_instruction hj hrest] at h
    cases h
    exact ⟨mnemonic, rest, rfl, hj, hrest, rfl⟩
  · exact absurd h hrefuses.not_ok

theorem exists_of_run_separator
    (h : (separator expected).run (amid passed ahead beyond warnings) = .ok () c) :
    ∃ gap rest, ahead = gap ++ rest ∧ gap ≠ [] ∧ Spaces gap ∧
      c = amid (passed ++ gap) rest beyond warnings := by
  rcases separator_cases expected ahead with ⟨gap, rest, rfl, hne, hgap, hrest⟩ | hrefuses
  · rw [run_separator hne hgap hrest] at h
    cases h
    exact ⟨gap, rest, rfl, hne, hgap, rfl⟩
  · exact absurd h hrefuses.not_ok

theorem exists_of_run_operand {kind : Operand} {value : Nat}
    (h : (operand kind expected).run (amid passed ahead beyond warnings) = .ok value c) :
    ∃ token rest warnings', ahead = token ++ rest ∧ NumeralToken token value ∧
      Stops isTokenChar rest ∧ c = amid (passed ++ token) rest beyond warnings' := by
  rcases operand_cases kind expected ahead with ⟨token, rest, number, rfl, hnumber, hrest⟩ | hrefuses
  · rw [run_operand kind hnumber hrest] at h
    cases h
    exact ⟨token, rest, _, rfl, hnumber, hrest, rfl⟩
  · exact absurd h hrefuses.not_ok

theorem exists_of_run_argument {kind : Operand} {value : Nat}
    (h : (argument kind expected).run (amid passed ahead beyond warnings) = .ok value c) :
    ∃ text rest warnings', ahead = text ++ rest ∧ Argument text value ∧
      Stops isTokenChar rest ∧ c = amid (passed ++ text) rest beyond warnings' := by
  obtain ⟨_, next, hseparator, hoperand⟩ := run_bind_eq_ok_iff.1 h
  obtain ⟨gap, ahead, rfl, hne, hgap, rfl⟩ := exists_of_run_separator hseparator
  obtain ⟨token, rest, warnings', rfl, htoken, hrest, rfl⟩ := exists_of_run_operand hoperand
  refine ⟨gap ++ token, rest, warnings', (List.append_assoc ..).symm, ?_, hrest, ?_⟩
  · exact ⟨gap, token, rfl, hne, hgap, htoken⟩
  · rw [List.append_assoc]

theorem exists_of_run_word {w : Word}
    (h : word.run (amid passed ahead beyond warnings) = .ok w c) :
    ∃ mnemonic address control rest i a k warnings',
      ahead = mnemonic ++ address ++ control ++ rest ∧ Spelling i mnemonic ∧ Argument address a ∧
      Argument control k ∧ w = ⟨i, addressOf a, controlOf k⟩ ∧
      c = amid (passed ++ mnemonic ++ address ++ control) rest beyond warnings' := by
  rw [word_eq] at h
  obtain ⟨i, _, hinstruction, h⟩ := run_bind_eq_ok_iff.1 h
  obtain ⟨mnemonic, _, rfl, hmnemonic, -, rfl⟩ := exists_of_run_instruction hinstruction
  obtain ⟨a, _, hargument, h⟩ := run_bind_eq_ok_iff.1 h
  obtain ⟨address, _, _, rfl, haddress, -, rfl⟩ := exists_of_run_argument hargument
  obtain ⟨k, _, hargument, h⟩ := run_bind_eq_ok_iff.1 h
  obtain ⟨control, rest, warnings', rfl, hcontrol, -, rfl⟩ := exists_of_run_argument hargument
  cases h
  refine ⟨mnemonic, address, control, rest, i, a, k, warnings', ?_, hmnemonic, haddress, hcontrol,
    rfl, rfl⟩
  simp only [List.append_assoc]

theorem exists_of_run_comment {text : String}
    (h : comment.run (amid passed ahead beyond warnings) = .ok text c) :
    ∃ body rest, ahead = ';' :: body ++ rest ∧ '\n' ∉ body ∧
      (rest = [] ∨ ∃ more, rest = '\n' :: more) ∧ text = String.ofList (trimRight body) ∧
      c = amid (passed ++ ';' :: body) rest beyond warnings := by
  rcases comment_cases ahead with ⟨body, rest, rfl, hbody, hrest⟩ | hrefuses
  · rw [run_comment hbody hrest] at h
    cases h
    exact ⟨body, rest, rfl, hbody, hrest, rfl, rfl⟩
  · exact absurd h hrefuses.not_ok

/-! ## The end of a text -/

theorem run_finish_of_newline {next rest : List Char} {last : List (Nat × Truncation)}
    (h : (newline expected).run (amid passed ahead beyond warnings) =
      .ok () (amid next rest beyond last)) :
    (finish expected).run (amid passed ahead beyond warnings) =
      if rest = [] then .ok () (amid next rest beyond last)
      else .error ((amid next rest beyond last).error expected) (amid next rest beyond last) := by
  simp only [finish, EStateM.run_bind, h, EStateM.run_get, amid_atEnd]
  cases rest with
  | nil => rfl
  | cons d rest => rfl

theorem exists_of_run_finish (h : (finish expected).run (amid passed ahead [] warnings) = .ok () c) :
    ∃ trail ending, ahead = trail ++ ending ∧ Spaces trail ∧ LineEnd ending := by
  rcases newline_cases expected ahead with
    ⟨trail, ending, rest, rfl, htrail, hending⟩ | ⟨trail, rest, rfl, hfails⟩
  · rw [run_finish_of_newline (run_newline htrail hending)] at h
    split at h
    · next hrest =>
      subst hrest
      exact ⟨trail, ending, List.append_nil _, htrail, hending.imp_left And.left⟩
    · cases h
  · rw [finish, EStateM.run_bind, hfails passed [] warnings (.inl rfl)] at h
    cases h

theorem run_finish {trail ending : List Char} (htrail : Spaces trail) (hending : LineEnd ending) :
    (finish expected).run (amid passed (trail ++ ending) [] warnings) =
      .ok () (amid (passed ++ (trail ++ ending)) [] [] warnings) := by
  have hline : (newline expected).run (amid passed (trail ++ ending ++ []) [] warnings) = _ :=
    run_newline htrail (hending.imp_left fun h => ⟨h, rfl⟩)
  rw [List.append_nil] at hline
  rw [run_finish_of_newline hline, if_pos rfl]

end Scan

/-! ## Texts that are read -/

variable {text : String}

theorem start_eq_amid (text : List Char) : Cursor.start text = amid [] text [] [] := by
  rw [amid, List.nil_append, List.append_nil, List.length_nil, Nat.zero_add]
  rfl

theorem outcome_eq_ok_iff {α : Type} {scan : Scan α} {value : α} :
    (read scan text).outcome = .ok value ↔
      ∃ c, scan.run (amid [] text.toList [] []) = .ok value c := by
  rw [← start_eq_amid]
  cases hrun : scan.run (Cursor.start text.toList) with
  | ok result c =>
      rw [read_of_ok hrun]
      constructor
      · intro h
        cases h
        exact ⟨c, rfl⟩
      · rintro ⟨_, h⟩
        cases h
        rfl
  | error e c =>
      rw [read_of_error hrun]
      constructor
      · intro h
        cases h
      · rintro ⟨_, h⟩
        cases h

theorem readWord_eq_ok_iff {w : Word} :
    (readWord text).outcome = .ok w ↔ WordText text.toList w := by
  constructor
  · intro h
    obtain ⟨_, hrun⟩ := outcome_eq_ok_iff.1 h
    obtain ⟨_, _, hword, hrun⟩ := Scan.run_bind_eq_ok_iff.1 hrun
    obtain ⟨mnemonic, address, control, rest, i, a, k, _, htext, hmnemonic, haddress, hcontrol, rfl,
      rfl⟩ := Scan.exists_of_run_word hword
    obtain ⟨_, _, hfinish, hrun⟩ := Scan.run_bind_eq_ok_iff.1 hrun
    cases hrun
    obtain ⟨trail, ending, rfl, htrail, hending⟩ := Scan.exists_of_run_finish hfinish
    rw [htext, ← List.append_assoc]
    exact .intro hmnemonic haddress hcontrol htrail hending
  · intro h
    generalize htext : text.toList = chars at h
    cases h with
    | @intro mnemonic address control trail ending i a c hmnemonic haddress hcontrol htrail
        hending =>
        have hstops : Stops isTokenChar (trail ++ ending) :=
          stops_spaces_append htrail (fun _ => not_isTokenChar_of_isSpace) hending.stops
        have hword : Scan.word.run (amid [] _ [] []) = _ :=
          Scan.run_word hmnemonic haddress hcontrol hstops
        rw [readWord, outcome_eq_ok_iff, htext]
        simp only [List.append_assoc] at hword ⊢
        exact ⟨_, Scan.run_bind_eq_ok_iff.2 ⟨_, _, hword,
          Scan.run_bind_eq_ok_iff.2 ⟨_, _, Scan.run_finish htrail hending, rfl⟩⟩⟩

theorem readComment_eq_ok_iff {body : String} :
    (readComment text).outcome = .ok body ↔ CommentText text.toList body := by
  constructor
  · intro h
    obtain ⟨_, hrun⟩ := outcome_eq_ok_iff.1 h
    obtain ⟨_, _, hcomment, hrun⟩ := Scan.run_bind_eq_ok_iff.1 hrun
    obtain ⟨body, rest, htext, hbody, hrest, rfl, rfl⟩ := Scan.exists_of_run_comment hcomment
    obtain ⟨_, _, hfinish, hrun⟩ := Scan.run_bind_eq_ok_iff.1 hrun
    cases hrun
    rw [htext]
    refine .intro hbody ?_
    rcases hrest with rfl | ⟨more, rfl⟩
    · exact .inl rfl
    · -- The comment ends before the line feed, so no space and no carriage return is left.
      obtain ⟨trail, ending, hmore, htrail, hending⟩ := Scan.exists_of_run_finish hfinish
      have hstops : Stops isSpace (trail ++ ending) := hmore ▸ stops_cons.2 (by decide)
      obtain rfl := spaces_eq_nil (fun _ h => h) htrail hstops
      rw [List.nil_append] at hmore
      rw [← hmore] at hending
      simpa [LineEnd] using hending
  · intro h
    generalize htext : text.toList = chars at h
    cases h with
    | @intro body ending hbody hending =>
        have hrest : ending = [] ∨ ∃ more, ending = '\n' :: more :=
          hending.imp_right fun h => ⟨[], h⟩
        have hcomment : Scan.comment.run (amid [] _ [] []) = _ := Scan.run_comment hbody hrest
        have hfinish : (Scan.finish .comment).run (amid (';' :: body) ([] ++ ending) [] []) = _ :=
          Scan.run_finish spaces_nil (hending.imp_right .inl)
        rw [readComment, outcome_eq_ok_iff, htext]
        exact ⟨_, Scan.run_bind_eq_ok_iff.2 ⟨_, _, hcomment,
          Scan.run_bind_eq_ok_iff.2 ⟨_, _, hfinish, rfl⟩⟩⟩

/-! ## Programs of one line -/

/-- The text without the blanks around it. -/
def trimmed (text : String) : String := String.ofList (trim text.toList)

variable {lead core trail : List Char}

theorem parse_of_wordText {w : Word} (h : WordText core w) (hlead : ∀ c ∈ lead, isBlank c = true)
    (htrail : ∀ c ∈ trail, isBlank c = true) :
    parse (String.ofList (lead ++ core ++ trail)) = .ok [.word w] := by
  cases h with
  | @intro mnemonic address control spaces ending i a c hmnemonic haddress hcontrol hspaces
      hending =>
      have htidy := tidy_of_parts hmnemonic haddress hcontrol
      have hblank : ∀ ch ∈ spaces ++ (ending ++ trail), isBlank ch = true := by
        simp only [List.forall_mem_append]
        exact ⟨fun ch hch => isBlank_of_isSpace (hspaces ch hch), hending.isBlank, htrail⟩
      have hparse := parse_joinLines (.cons (line_of_parts hmnemonic haddress hcontrol) .nil)
        (List.forall_mem_singleton.2 htidy.single) (by simpa using htidy.starts) hlead hblank
      simp only [joinLines_singleton, List.append_assoc] at hparse ⊢
      exact hparse

theorem parse_of_commentText {body : String} (h : CommentText core body)
    (hlead : ∀ c ∈ lead, isBlank c = true) (htrail : ∀ c ∈ trail, isBlank c = true) :
    parse (String.ofList (lead ++ core ++ trail)) = .ok [.comment body] := by
  cases h with
  | @intro body ending hbody hending =>
      have hline : Line (';' :: body) (.comment body) := Line.comment spaces_nil
      have hsingle : '\n' ∉ ';' :: body := by simp [hbody]
      have hblank : ∀ c ∈ ending ++ trail, isBlank c = true := by
        rw [List.forall_mem_append]
        exact ⟨LineEnd.isBlank (hending.imp_right .inl), htrail⟩
      have hparse := parse_joinLines (.cons hline .nil) (List.forall_mem_singleton.2 hsingle)
        (stops_cons.2 (by decide)) hlead hblank
      simp only [joinLines_singleton, List.append_assoc] at hparse ⊢
      exact hparse

/-- A program of one node has one line, which is the text without the blanks around it. -/
theorem exists_line_of_parse_singleton {node : Node} (h : parse text = .ok [node]) :
    '\n' ∉ trim text.toList ∧ ∃ s, Line (trim text.toList) s ∧ s.node = node := by
  obtain ⟨statements, hlines, hnodes⟩ := statements_of_parse h
  obtain ⟨s, rfl, hnode⟩ := List.map_eq_singleton_iff.1 hnodes.symm
  obtain ⟨line, rest, hline, hrest, hprogram⟩ := List.forall₂_cons_right_iff.1 hlines
  rw [List.forall₂_nil_right_iff.1 hrest] at hprogram
  have hcore : trim text.toList = endLines [] ++ joinLines [line] :=
    trim_eq_of_programLines hprogram
  rw [endLines_nil, List.nil_append, joinLines_singleton] at hcore
  rw [hcore]
  exact ⟨notMem_of_mem_programLines (hprogram ▸ List.mem_singleton_self line), s, hline, hnode⟩

theorem wordText_of_parse {w : Word} (h : parse text = .ok [.word w]) :
    WordText (trim text.toList) w := by
  obtain ⟨-, s, hline, hnode⟩ := exists_line_of_parse_singleton h
  have hstarts := stops_trim text.toList
  have hends := endsSolid_trim text.toList
  generalize trim text.toList = core at hline hstarts hends
  cases hline with
  | comment hindent => cases hnode
  | @word indent mnemonic address control trail ending i a c hindent hmnemonic haddress hcontrol
      htrail hending =>
      cases hnode
      simp only [List.append_assoc] at hstarts
      obtain rfl := spaces_eq_nil (fun _ => isBlank_of_isSpace) hindent hstarts
      rcases hending with rfl | rfl
      · exact .intro hmnemonic haddress hcontrol htrail (.inl rfl)
      · exact absurd (hends '\r' (by simp)) (by decide)

theorem commentText_of_parse {body : String} (h : parse text = .ok [.comment body]) :
    CommentText (trim text.toList) body := by
  obtain ⟨hsingle, s, hline, hnode⟩ := exists_line_of_parse_singleton h
  have hstarts := stops_trim text.toList
  generalize trim text.toList = core at hline hstarts hsingle
  cases hline with
  | @comment indent body hindent =>
      cases hnode
      obtain rfl := spaces_eq_nil (fun _ => isBlank_of_isSpace) hindent hstarts
      have hbody : '\n' ∉ body := fun hmem => hsingle (by simp [hmem])
      have hcomment : CommentText (';' :: body ++ []) _ := .intro hbody (.inl rfl)
      rwa [List.append_nil] at hcomment
  | word hindent hmnemonic haddress hcontrol htrail hending => cases hnode

theorem exists_blanks_around (text : String) : ∃ lead trail,
    String.ofList (lead ++ trim text.toList ++ trail) = text ∧
      (∀ c ∈ lead, isBlank c = true) ∧ ∀ c ∈ trail, isBlank c = true := by
  obtain ⟨trail, htext, htrail⟩ := exists_trim_append text.toList
  refine ⟨text.toList.takeWhile isBlank, trail, ?_, List.all_eq_true.1 List.all_takeWhile, htrail⟩
  rw [← htext, String.ofList_toList]

/-- What is read as one word or one comment is a program of this node alone, and a program of one
node is one word or one comment with blanks around it. -/
theorem single_line_agrees_with_program (text : String) :
    (∀ w, (readWord text).outcome = .ok w → parse text = .ok [.word w]) ∧
    (∀ body, (readComment text).outcome = .ok body → parse text = .ok [.comment body]) ∧
    (∀ w, parse text = .ok [.word w] ↔ (readWord (trimmed text)).outcome = .ok w) ∧
    ∀ body, parse text = .ok [.comment body] ↔
      (readComment (trimmed text)).outcome = .ok body := by
  have htrimmed : (trimmed text).toList = trim text.toList := String.toList_ofList
  have hnone : ∀ c ∈ ([] : List Char), isBlank c = true := List.forall_mem_nil _
  obtain ⟨lead, trail, htext, hlead, htrail⟩ := exists_blanks_around text
  refine ⟨?_, ?_, ?_, ?_⟩
  · intro w h
    have hparse := parse_of_wordText (readWord_eq_ok_iff.1 h) hnone hnone
    rwa [List.nil_append, List.append_nil, String.ofList_toList] at hparse
  · intro body h
    have hparse := parse_of_commentText (readComment_eq_ok_iff.1 h) hnone hnone
    rwa [List.nil_append, List.append_nil, String.ofList_toList] at hparse
  · intro w
    rw [readWord_eq_ok_iff, htrimmed]
    refine ⟨wordText_of_parse, fun h => ?_⟩
    rw [← htext]
    exact parse_of_wordText h hlead htrail
  · intro body
    rw [readComment_eq_ok_iff, htrimmed]
    refine ⟨commentText_of_parse, fun h => ?_⟩
    rw [← htext]
    exact parse_of_commentText h hlead htrail

/-- A word with a space and a line end behind it, and the same with blanks in front of it. -/
theorem single_line_agrees_with_program_blanks :
    let w : Word := ⟨.sto, ⟨⟨63, by decide⟩⟩, .copyShift⟩
    (readWord "STO 0h7f 0b101 \r\n").outcome = .ok w ∧
      parse "STO 0h7f 0b101 \r\n" = .ok [.word w] ∧
      parse "\t STO 0h7f 0b101\n\n" = .ok [.word w] ∧
      (readWord (trimmed "\t STO 0h7f 0b101\n\n")).outcome = .ok w := by
  intro w
  have hread : (readWord "STO 0h7f 0b101 \r\n").outcome = .ok w := by decide +kernel
  have hparse : parse "\t STO 0h7f 0b101\n\n" = .ok [.word w] := by decide +kernel
  obtain ⟨hword, -⟩ := single_line_agrees_with_program "STO 0h7f 0b101 \r\n"
  obtain ⟨-, -, hiff, -⟩ := single_line_agrees_with_program "\t STO 0h7f 0b101\n\n"
  exact ⟨hread, hword w hread, hparse, (hiff w).1 hparse⟩

end OneBit.Source
