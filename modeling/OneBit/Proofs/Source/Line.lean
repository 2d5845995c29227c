import OneBit.Proofs.Source.Step
/-!
# Reading one line

From the start of a line the scanner reads exactly what the grammar gives for the line: the
statement of a line that has one, with its truncations, and the fault of any other.  Since every
line has a statement or a fault, this settles what reading a line does.
-/

namespace OneBit.Source

open Text Grammar Cursor

/-- What follows a line in the part to be read: nothing after the last line, and a line feed after
any other. -/
def Follows (last : Prop) (tail : List Char) : Prop :=
  (last ∧ tail = []) ∨ (¬ last ∧ ∃ more, tail = '\n' :: more)

section

variable {last : Prop} {run rest tail text mnemonic : List Char} {p : Char → Bool} {value : Nat}
  {i : Instruction}

theorem Follows.stops (h : Follows last tail) (hp : p '\n' = false) : Stops p tail := by
  rcases h with ⟨-, rfl⟩ | ⟨-, more, rfl⟩
  · exact stops_nil
  · exact stops_cons.2 hp

theorem Follows.eq_nil_or (h : Follows last tail) : tail = [] ∨ ∃ more, tail = '\n' :: more := by
  rcases h with ⟨-, htail⟩ | ⟨-, htail⟩
  · exact .inl htail
  · exact .inr htail

theorem stops_append (hrest : Stops p rest) (htail : Stops p tail) : Stops p (rest ++ tail) := by
  cases rest with
  | nil => exact htail
  | cons c rest => exact stops_cons.2 (stops_cons.1 hrest)

/-! ## Characters of spaces and names -/

theorem eq_of_isSpace {c : Char} (h : isSpace c = true) : c = ' ' ∨ c = '\t' := by
  simpa [isSpace, spaces] using h

theorem not_isTokenChar_of_isSpace {c : Char} (h : isSpace c = true) : isTokenChar c = false := by
  rcases eq_of_isSpace h with rfl | rfl <;> decide

theorem not_isNameChar_of_isSpace {c : Char} (h : isSpace c = true) : isNameChar c = false := by
  have hc : c.toNat < 0x80 := by
    rcases eq_of_isSpace h with rfl | rfl <;> decide
  rw [isNameChar_eq_isTokenChar hc]
  exact not_isTokenChar_of_isSpace h

theorem not_isNameChar_lineFeed : isNameChar '\n' = false :=
  isNameChar_eq_isTokenChar (by decide)

theorem stops_spaces_append (hrun : Spaces run) (hp : ∀ c, isSpace c = true → p c = false)
    (hrest : Stops p rest) : Stops p (run ++ rest) := by
  cases run with
  | nil => exact hrest
  | cons c run => exact stops_cons.2 (hp c (hrun c (by simp)))

theorem stops_argument_append (h : Argument text value) (hp : ∀ c, isSpace c = true → p c = false)
    (rest : List Char) : Stops p (text ++ rest) := by
  obtain ⟨gap, token, rfl, hne, hgap, -⟩ := h
  obtain ⟨c, gap, rfl⟩ := List.exists_cons_of_ne_nil hne
  exact stops_cons.2 (hp c (hgap c (by simp)))

theorem notMem_of_spaces (h : Spaces run) : '\n' ∉ run :=
  fun hmem => absurd (h _ hmem) (by decide)

theorem notMem_of_numeral (h : NumeralToken run value) : '\n' ∉ run :=
  fun hmem => absurd (h.isTokenChar _ hmem) (by decide)

theorem notMem_of_spelling (h : Spelling i mnemonic) : '\n' ∉ mnemonic :=
  fun hmem => absurd (h.isTokenChar _ hmem) (by decide)

theorem notMem_of_argument (h : Argument text value) : '\n' ∉ text := by
  obtain ⟨gap, token, rfl, -, hgap, htoken⟩ := h
  rw [List.mem_append, not_or]
  exact ⟨notMem_of_spaces hgap, notMem_of_numeral htoken⟩

/-- On the last line something follows the spaces, since the line is not blank. -/
theorem append_follows_ne_nil (hrun : Spaces run) (hne : last → run ++ text ≠ [])
    (hsolid : last → EndsSolid (run ++ text)) (htail : Follows last tail) : text ++ tail ≠ [] := by
  intro hnil
  obtain ⟨rfl, rfl⟩ := List.append_eq_nil_iff.1 hnil
  rcases htail with ⟨hl, -⟩ | ⟨-, more, hmore⟩
  · have hrun' : run ≠ [] := by simpa using hne hl
    have hlast := hsolid hl _ (List.getLast?_eq_getLast_of_ne_nil (by simpa using hrun'))
    simp only [List.append_nil] at hlast
    rw [isBlank_of_isSpace (hrun _ (List.getLast_mem hrun'))] at hlast
    cases hlast
  · cases hmore

theorem count_append_of_notMem (passed : List Char) (h : '\n' ∉ run) :
    (passed ++ run).count '\n' = passed.count '\n' := by
  rw [List.count_append, List.count_eq_zero.2 h, Nat.add_zero]

end

namespace Scan

/-! ## Failing steps -/

/-- A step fails at an offset of the text, with what was expected there. -/
def FailsAt {α : Type} (scan : Scan α) (c : Cursor) (offset : Nat) (found : Expected) : Prop :=
  ∃ after, scan.run c = .error (.inText c.text offset found (candidates found)) after

section

variable {α β : Type} {x : Scan α} {f : α → Scan β} {c next : Cursor} {value : α} {offset : Nat}
  {found : Expected}

theorem FailsAt.of_run {e : SyntaxError} (h : x.run c = .error e next)
    (he : e = .inText c.text offset found (candidates found)) : FailsAt x c offset found :=
  ⟨next, by rw [h, he]⟩

theorem FailsAt.bind (h : FailsAt x c offset found) : FailsAt (x >>= f) c offset found := by
  obtain ⟨after, hrun⟩ := h
  exact ⟨after, by rw [EStateM.run_bind, hrun]⟩

theorem FailsAt.after (hx : x.run c = .ok value next) (htext : next.text = c.text)
    (h : FailsAt (f value) next offset found) : FailsAt (x >>= f) c offset found := by
  obtain ⟨after, hrun⟩ := h
  exact ⟨after, by rw [EStateM.run_bind, hx, ← htext]; exact hrun⟩

end

/-! ## Arguments -/

/-- Reads an argument of a word: spaces and an operand. -/
def argument (kind : Operand) (expected : Expected) : Scan Nat := do
  separator expected
  operand kind expected

/-- A word is a mnemonic and two arguments. -/
theorem word_eq : word = do
    let i ← instruction
    let a ← argument .address .address
    let c ← argument .control .control
    return ⟨i, Address.ofInt a, Control.ofBits c⟩ := by
  simp [word, address, control, argument]

variable {last : Prop} {passed text rest tail beyond : List Char}
  {warnings : List (Nat × Truncation)} {expected : Expected} {value : Nat}

theorem run_argument (kind : Operand) (h : Argument text value) (hrest : Stops isTokenChar rest) :
    (argument kind expected).run (amid passed (text ++ rest) beyond warnings) =
      .ok value (amid (passed ++ text) rest beyond
        (warnings ++ (Truncation.check kind value).toList.map (passed.count '\n' + 1, ·))) := by
  obtain ⟨gap, token, rfl, hne, hgap, htoken⟩ := h
  have hstart : Stops isSpace (token ++ rest) := by
    cases htoken <;> exact stops_cons.2 (by decide)
  rw [List.append_assoc, argument, EStateM.run_bind, run_separator hne hgap hstart]
  simp only [run_operand kind htoken hrest, count_append_of_notMem passed (notMem_of_spaces hgap),
    List.append_assoc]

theorem candidates_of_ne (h : expected ≠ .instruction) : candidates expected = [] := by
  cases expected <;> first | rfl | exact absurd rfl h

/-- Where an argument is at fault, reading it fails there. On the last line the spaces before the
argument are not the end of the program. -/
theorem failsAt_argument (kind : Operand) {offset : Nat} {found : Expected}
    (h : ArgumentFault last expected text offset found) (hexpected : expected ≠ .instruction)
    (hsolid : last → EndsSolid text) (htail : Follows last tail) :
    FailsAt (argument kind expected) (amid passed (text ++ tail) beyond warnings)
      (passed.length + offset) found := by
  cases h with
  | ended hlast =>
      obtain rfl : tail = [] := by
        rcases htail with ⟨-, htail⟩ | ⟨hnot, -⟩
        · exact htail
        · exact absurd hlast hnot
      exact (FailsAt.of_run run_separator_end (by simp [candidates])).bind
  | unspaced hlast hrest =>
      have hstops := stops_append hrest (htail.stops (p := isSpace) (by decide))
      cases hahead : text ++ tail with
      | nil =>
          obtain ⟨rfl, rfl⟩ := List.append_eq_nil_iff.1 hahead
          rcases htail with ⟨hl, -⟩ | ⟨-, more, hmore⟩
          · exact absurd hl (hlast rfl)
          · cases hmore
      | cons c ahead =>
          rw [hahead, stops_cons] at hstops
          refine (FailsAt.of_run (run_separator_missing hstops) ?_).bind
          rw [candidates_of_ne hexpected, amid_text, Nat.add_zero]
  | @unnumbered gap token rest hgap hspaces htoken hstops hnumeral =>
      have hlong : Longest isTokenChar token (rest ++ tail) :=
        ⟨htoken.all, stops_append htoken.stops (htail.stops (by decide))⟩
      have hstart : Stops isSpace (token ++ (rest ++ tail)) := by
        rw [← List.append_assoc]
        exact stops_append hstops (htail.stops (by decide))
      rw [List.append_assoc] at hsolid
      have hne := append_follows_ne_nil hspaces (by simp [hgap]) hsolid htail
      rw [List.append_assoc] at hne
      rw [List.append_assoc, List.append_assoc]
      refine FailsAt.after (run_separator hgap hspaces hstart) (by simp)
        (.of_run (run_operand_missing kind hne hlong hnumeral) ?_)
      rw [candidates_of_ne hexpected, amid_text, List.length_append]

/-! ## Words -/

theorem address_ofInt (a : Nat) : Address.ofInt a = addressOf a := rfl

theorem control_ofBits (c : Nat) : Control.ofBits c = controlOf c := rfl

theorem truncations_word (i : Instruction) (a c : Nat) :
    (Statement.word i a c).truncations =
      (Truncation.check .address a).toList ++ (Truncation.check .control c).toList := by
  have haddress : (Truncation.check .address a).toList =
      if 63 < a then [⟨.address, a⟩] else [] := by
    have hlimit : ((Operand.address.field.limit : Nat) : Int) < a ↔ 63 < a := by
      change ((63 : Nat) : Int) < a ↔ 63 < a
      omega
    simp only [Truncation.check, hlimit]
    split_ifs <;> rfl
  have hcontrol : (Truncation.check .control c).toList =
      if 3 < c then [⟨.control, c⟩] else [] := by
    have hlimit : ((Operand.control.field.limit : Nat) : Int) < c ↔ 3 < c := by
      change ((3 : Nat) : Int) < c ↔ 3 < c
      omega
    simp only [Truncation.check, hlimit]
    split_ifs <;> rfl
  rw [Statement.truncations, haddress, hcontrol]

variable {mnemonic address control : List Char} {i : Instruction} {a c : Nat}

theorem run_word (hmnemonic : Spelling i mnemonic) (haddress : Argument address a)
    (hcontrol : Argument control c) (hrest : Stops isTokenChar rest) :
    word.run (amid passed (mnemonic ++ (address ++ (control ++ rest))) beyond warnings) =
      .ok ⟨i, addressOf a, controlOf c⟩
        (amid (passed ++ mnemonic ++ address ++ control) rest beyond
          (warnings ++
            (Statement.word i a c).truncations.map (passed.count '\n' + 1, ·))) := by
  have hname : Stops isNameChar (address ++ (control ++ rest)) :=
    stops_argument_append haddress (fun _ => not_isNameChar_of_isSpace) _
  have htoken : Stops isTokenChar (control ++ rest) :=
    stops_argument_append hcontrol (fun _ => not_isTokenChar_of_isSpace) _
  -- The arguments stand on the line of the mnemonic.
  have hcount : (passed ++ mnemonic ++ address).count '\n' = passed.count '\n' := by
    rw [count_append_of_notMem _ (notMem_of_argument haddress),
      count_append_of_notMem _ (notMem_of_spelling hmnemonic)]
  simp only [word_eq, EStateM.run_bind, run_instruction hmnemonic hname,
    run_argument .address haddress htoken, run_argument .control hcontrol hrest, EStateM.run_pure,
    address_ofInt, control_ofBits, truncations_word, List.map_append, hcount,
    count_append_of_notMem _ (notMem_of_spelling hmnemonic)]
  rw [List.append_assoc warnings]

/-! ## Lines with a statement -/

variable {indent trail ahead run : List Char}

theorem run_newline_follows (hrun : Spaces run) (htail : Follows last tail) :
    (newline expected).run (amid passed (run ++ tail) beyond warnings) =
      .ok () (amid (passed ++ run ++ tail.take 1) (tail.drop 1) beyond warnings) := by
  rcases htail.eq_nil_or with rfl | ⟨more, rfl⟩
  · simpa using run_newline_end hrun
  · exact run_newline_feed hrun

/-- After its indentation, a line that does not start with a semicolon is read as a word. -/
theorem run_line_word (hindent : Spaces indent) (hstops : Stops isSpace ahead)
    (hhead : ahead.head? ≠ some ';') :
    line.run (amid passed (indent ++ ahead) beyond warnings) =
      (do let w ← word; newline .endOfLine; return Node.word w).run
        (amid (passed ++ indent) ahead beyond warnings) := by
  simp only [line, EStateM.run_bind, run_skipSpace hindent hstops, run_peek_amid, hhead, if_false]

theorem run_line_comment {body : List Char} (hindent : Spaces indent) (hbody : '\n' ∉ body)
    (htail : Follows last tail) :
    line.run (amid passed (indent ++ (';' :: body ++ tail)) beyond warnings) =
      .ok (.comment (String.ofList (trimRight body)))
        (amid (passed ++ indent ++ ';' :: body ++ tail.take 1) (tail.drop 1) beyond warnings) := by
  have hstops : Stops isSpace (';' :: body ++ tail) := stops_cons.2 (by decide)
  have hhead : (';' :: body ++ tail).head? = some ';' := rfl
  have hend : (newline .comment).run (amid (passed ++ indent ++ ';' :: body) ([] ++ tail) beyond
      warnings) = .ok () (amid (passed ++ indent ++ ';' :: body ++ [] ++ tail.take 1) (tail.drop 1)
        beyond warnings) := run_newline_follows (by simp [Spaces]) htail
  rw [List.nil_append, List.append_nil] at hend
  simp only [line, EStateM.run_bind, run_skipSpace hindent hstops, run_peek_amid, hhead, if_true,
    run_comment hbody htail.eq_nil_or, hend, EStateM.run_pure]

theorem head_spelling (h : Spelling i mnemonic) (rest : List Char) :
    Stops isSpace (mnemonic ++ rest) ∧ (mnemonic ++ rest).head? ≠ some ';' := by
  obtain ⟨c, token, rfl⟩ := List.exists_cons_of_ne_nil h.ne_nil
  have hc : isTokenChar c = true := h.isTokenChar c (by simp)
  constructor
  · refine stops_cons.2 (Bool.eq_false_iff.2 fun hspace => ?_)
    rw [not_isTokenChar_of_isSpace hspace] at hc
    cases hc
  · intro heq
    cases heq
    revert hc
    decide

/-- A carriage return does not end the last line, since that ends with no blank. -/
theorem run_newline_ending {ending : List Char} (htrail : Spaces trail)
    (hending : ending = [] ∨ ending = ['\r']) (hsolid : last → EndsSolid (text ++ ending))
    (htail : Follows last tail) :
    (newline expected).run (amid passed (trail ++ (ending ++ tail)) beyond warnings) =
      .ok () (amid (passed ++ trail ++ ending ++ tail.take 1) (tail.drop 1) beyond warnings) := by
  rcases hending with rfl | rfl
  · simpa using run_newline_follows htrail htail
  · rcases htail with ⟨hlast, -⟩ | ⟨-, more, rfl⟩
    · exact absurd (hsolid hlast '\r' (by simp)) (by decide)
    · rw [List.append_assoc (passed ++ trail)]
      exact run_newline_return htrail

/-- Reading a line that has a statement gives its node and its truncations, and leaves the cursor
behind the line feed. -/
theorem run_line {text : List Char} {s : Statement} (h : Line text s) (htext : '\n' ∉ text)
    (hsolid : last → EndsSolid text) (htail : Follows last tail) :
    line.run (amid passed (text ++ tail) beyond warnings) =
      .ok s.node (amid (passed ++ text ++ tail.take 1) (tail.drop 1) beyond
        (warnings ++ s.truncations.map (passed.count '\n' + 1, ·))) := by
  cases h with
  | @comment indent body hindent =>
      have hbody : '\n' ∉ body := fun hmem => htext (by simp [hmem])
      have hline : line.run (amid passed (indent ++ (';' :: body ++ tail)) beyond warnings) = _ :=
        run_line_comment hindent hbody htail
      rw [List.append_assoc, hline]
      simp [Statement.node, Statement.truncations]
  | @word indent mnemonic address control trail ending i a c hindent hmnemonic haddress hcontrol
      htrail hending =>
      have hahead : indent ++ mnemonic ++ address ++ control ++ trail ++ ending ++ tail =
          indent ++ (mnemonic ++ (address ++ (control ++ (trail ++ (ending ++ tail))))) := by
        simp only [List.append_assoc]
      have hrest : Stops isTokenChar (trail ++ (ending ++ tail)) := by
        apply stops_spaces_append htrail (fun _ => not_isTokenChar_of_isSpace)
        apply stops_append
        · rcases hending with rfl | rfl
          · exact stops_nil
          · exact stops_cons.2 (by decide)
        · exact htail.stops (by decide)
      obtain ⟨hstops, hhead⟩ := head_spelling hmnemonic (address ++ (control ++ (trail ++
        (ending ++ tail))))
      have hword : word.run (amid (passed ++ indent) _ beyond warnings) = _ :=
        run_word hmnemonic haddress hcontrol hrest
      have hend : (newline .endOfLine).run (amid (passed ++ indent ++ mnemonic ++ address ++ control)
          (trail ++ (ending ++ tail)) beyond (warnings ++ (Statement.word i a c).truncations.map
            ((passed ++ indent).count '\n' + 1, ·))) = _ :=
        run_newline_ending htrail hending hsolid htail
      rw [hahead, run_line_word hindent hstops hhead]
      simp only [EStateM.run_bind, hword, hend, EStateM.run_pure, Statement.node]
      simp only [count_append_of_notMem passed (notMem_of_spaces hindent), List.append_assoc]

/-! ## Lines at fault -/

theorem failsAt_word_instruction {token : List Char} (hne : token ++ rest ≠ [])
    (htoken : Longest isNameChar token rest) (hspelling : ∀ i, ¬ Spelling i token) :
    FailsAt word (amid passed (token ++ rest) beyond warnings) passed.length .instruction := by
  rw [word_eq]
  refine (FailsAt.of_run (run_instruction_missing hne htoken hspelling) ?_).bind
  rw [amid_text]
  rfl

theorem failsAt_word_address {offset : Nat} {found : Expected} (hmnemonic : Spelling i mnemonic)
    (hname : Stops isNameChar (text ++ tail)) (h : ArgumentFault last .address text offset found)
    (hsolid : last → EndsSolid text) (htail : Follows last tail) :
    FailsAt word (amid passed (mnemonic ++ (text ++ tail)) beyond warnings)
      ((passed ++ mnemonic).length + offset) found := by
  rw [word_eq]
  refine FailsAt.after (run_instruction hmnemonic hname) (by simp) ?_
  exact (failsAt_argument .address h (by decide) hsolid htail).bind

theorem failsAt_word_control {offset : Nat} {found : Expected} (hmnemonic : Spelling i mnemonic)
    (haddress : Argument address a) (htoken : Stops isTokenChar (text ++ tail))
    (h : ArgumentFault last .control text offset found) (hsolid : last → EndsSolid text)
    (htail : Follows last tail) :
    FailsAt word (amid passed (mnemonic ++ (address ++ (text ++ tail))) beyond warnings)
      ((passed ++ mnemonic ++ address).length + offset) found := by
  have hname : Stops isNameChar (address ++ (text ++ tail)) :=
    stops_argument_append haddress (fun _ => not_isNameChar_of_isSpace) _
  rw [word_eq]
  refine FailsAt.after (run_instruction hmnemonic hname) (by simp) ?_
  refine FailsAt.after (run_argument .address haddress htoken) (by simp) ?_
  exact (failsAt_argument .control h (by decide) hsolid htail).bind

theorem failsAt_line_of_word {offset : Nat} {found : Expected} (hindent : Spaces indent)
    (hstops : Stops isSpace ahead) (hhead : ahead.head? ≠ some ';')
    (h : FailsAt (do let w ← word; newline .endOfLine; return Node.word w)
      (amid (passed ++ indent) ahead beyond warnings) offset found) :
    FailsAt line (amid passed (indent ++ ahead) beyond warnings) offset found := by
  obtain ⟨after, hrun⟩ := h
  refine ⟨after, ?_⟩
  rw [run_line_word hindent hstops hhead, hrun, amid_text, amid_text, List.append_assoc passed]

theorem head_follows {token : List Char} (htail : Follows last tail)
    (hstops : Stops isSpace (token ++ rest)) (hcomment : (token ++ rest).head? ≠ some ';') :
    Stops isSpace (token ++ (rest ++ tail)) ∧ (token ++ (rest ++ tail)).head? ≠ some ';' := by
  rw [← List.append_assoc]
  refine ⟨stops_append hstops (htail.stops (by decide)), ?_⟩
  cases hahead : token ++ rest with
  | nil => rcases htail.eq_nil_or with rfl | ⟨more, rfl⟩ <;> simp
  | cons c ahead => simpa [hahead] using hcomment

/-- After the control, a line at fault goes on with what ends no line. -/
theorem failsAt_newline (htrail : Spaces trail) (hstops : Stops isSpace rest)
    (hne : rest ≠ []) (hreturn : rest ≠ ['\r']) (hrest : '\n' ∉ rest) :
    FailsAt (newline .endOfLine) (amid passed (trail ++ (rest ++ tail)) beyond warnings)
      (passed ++ trail).length .endOfLine := by
  obtain ⟨c, rest, rfl⟩ := List.exists_cons_of_ne_nil hne
  have hfeed : c ≠ '\n' := fun h => hrest (by simp [h])
  have hnext : c = '\r' → ((rest ++ tail) ++ beyond).head? ≠ some '\n' := by
    rintro rfl
    cases rest with
    | nil => exact absurd rfl hreturn
    | cons d rest =>
        intro h
        obtain rfl : d = '\n' := by simpa using h
        exact hrest (by simp)
  rw [List.cons_append]
  refine .of_run (run_newline_missing htrail (stops_cons.1 hstops) hfeed hnext) ?_
  simp [candidates]

/-- Reading a line at fault fails where the grammar says, and with what it says. -/
theorem failsAt_line {text : List Char} {offset : Nat} {found : Expected}
    (h : Fault last text offset found) (htext : '\n' ∉ text) (hne : last → text ≠ [])
    (hsolid : last → EndsSolid text) (htail : Follows last tail) :
    FailsAt line (amid passed (text ++ tail) beyond warnings) (passed.length + offset) found := by
  cases h with
  | @instruction indent token rest hindent htoken hstops hcomment hspelling =>
      obtain ⟨hstart, hhead⟩ := head_follows htail hstops hcomment
      have hlong : Longest isNameChar token (rest ++ tail) :=
        ⟨htoken.all, stops_append htoken.stops (htail.stops not_isNameChar_lineFeed)⟩
      simp only [List.append_assoc] at hne hsolid ⊢
      have hahead := append_follows_ne_nil hindent hne hsolid htail
      rw [List.append_assoc] at hahead
      apply failsAt_line_of_word hindent hstart hhead
      rw [← List.length_append]
      exact (failsAt_word_instruction hahead hlong hspelling).bind
  | @address indent mnemonic rest i offset expected hindent hmnemonic hname hrest =>
      have hname' := stops_append hname (htail.stops not_isNameChar_lineFeed)
      obtain ⟨hstart, hhead⟩ := head_spelling hmnemonic (rest ++ tail)
      have hword : FailsAt word (amid (passed ++ indent) (mnemonic ++ (rest ++ tail)) beyond
          warnings) _ found :=
        failsAt_word_address hmnemonic hname' hrest (fun hl => (hsolid hl).of_append) htail
      simp only [List.append_assoc, List.length_append, Nat.add_assoc] at hword ⊢
      exact failsAt_line_of_word hindent hstart hhead hword.bind
  | @control indent mnemonic address rest i a offset expected hindent hmnemonic haddress htoken
      hrest =>
      have htoken' := stops_append htoken (htail.stops (by decide))
      obtain ⟨hstart, hhead⟩ := head_spelling hmnemonic (address ++ (rest ++ tail))
      have hword : FailsAt word (amid (passed ++ indent) (mnemonic ++ (address ++ (rest ++ tail)))
          beyond warnings) _ found :=
        failsAt_word_control hmnemonic haddress htoken' hrest (fun hl => (hsolid hl).of_append) htail
      simp only [List.append_assoc, List.length_append, Nat.add_assoc] at hword ⊢
      exact failsAt_line_of_word hindent hstart hhead hword.bind
  | @endOfLine indent mnemonic address control trail rest i a c hindent hmnemonic haddress hcontrol
      htrail htoken hstops hrest hreturn =>
      have htoken' : Stops isTokenChar (trail ++ (rest ++ tail)) := by
        rw [← List.append_assoc]
        exact stops_append htoken (htail.stops (by decide))
      obtain ⟨hstart, hhead⟩ := head_spelling hmnemonic (address ++ (control ++ (trail ++
        (rest ++ tail))))
      have hfeed : '\n' ∉ rest := fun hmem => htext (by simp [hmem])
      have hahead : indent ++ mnemonic ++ address ++ control ++ trail ++ rest ++ tail =
          indent ++ (mnemonic ++ (address ++ (control ++ (trail ++ (rest ++ tail))))) := by
        simp only [List.append_assoc]
      have hoffset : passed.length + (indent ++ mnemonic ++ address ++ control ++ trail).length =
          (passed ++ indent ++ mnemonic ++ address ++ control ++ trail).length := by
        simp
      rw [hahead, hoffset]
      apply failsAt_line_of_word hindent hstart hhead
      refine FailsAt.after (run_word hmnemonic haddress hcontrol htoken') (by simp) ?_
      exact (failsAt_newline htrail hstops hrest hreturn hfeed).bind

end Scan

end OneBit.Source
