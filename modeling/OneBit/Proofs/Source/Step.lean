import OneBit.Proofs.Source.Token
import OneBit.Source.Scan
/-!
# Steps of reading amid a text

A cursor inside of its text splits it in three: what was passed, what is left to read and what lies
beyond.  One lemma for each step of reading says how the step moves the border between the first
two, or where it fails.  Later proofs cite these lemmas and never open a step; where nothing is
known of the text, the `_cases` lemmas at the end say which of them applies.
-/

namespace OneBit.Source

open Text Grammar

/-! ## The cursor amid a text -/

namespace Cursor

/-- The cursor amid a text that is given in three parts: what was passed, what is left to read,
and what lies beyond. -/
def amid (passed ahead beyond : List Char) (warnings : List (Nat × Truncation)) : Cursor :=
  place (passed ++ ahead ++ beyond) passed.length (passed.length + ahead.length : Nat) warnings

variable {passed run rest ahead beyond : List Char} {warnings : List (Nat × Truncation)}

/-- Two offsets of a text, in this order, split it in three. -/
theorem place_eq_amid {text : List Char} {start stop : Nat} (hstart : start ≤ stop)
    (hstop : stop ≤ text.length) :
    place text start stop warnings =
      amid (text.take start) ((text.take stop).drop start) (text.drop stop) warnings := by
  have hpassed : (text.take stop).take start = text.take start := by
    rw [List.take_take, Nat.min_eq_left hstart]
  have hread : text.take start ++ (text.take stop).drop start = text.take stop := by
    rw [← hpassed, List.take_append_drop]
  have hlength : (text.take start).length = start := List.length_take_of_le (by omega)
  have hend : (text.take stop).length = stop := List.length_take_of_le hstop
  rw [amid, ← List.length_append, hread, List.take_append_drop, hlength, hend]

@[simp] theorem amid_text : (amid passed ahead beyond warnings).text = passed ++ ahead ++ beyond :=
  rfl

@[simp] theorem amid_pos : (amid passed ahead beyond warnings).pos = passed.length := rfl

@[simp] theorem amid_stop :
    (amid passed ahead beyond warnings).stop = (passed.length + ahead.length : Nat) := rfl

@[simp] theorem amid_warnings : (amid passed ahead beyond warnings).warnings = warnings := rfl

@[simp] theorem amid_ahead : (amid passed ahead beyond warnings).ahead = ahead := by
  change slice (passed ++ ahead ++ beyond) passed.length (passed.length + ahead.length : Nat) = ahead
  rw [slice, before, index_of_nonneg (by omega), index_of_nonneg (by omega), Int.toNat_natCast,
    Int.toNat_natCast, ← List.length_append, List.take_left, List.drop_left]

theorem amid_inside : (amid passed ahead beyond warnings).Inside := by
  refine ⟨?_, ?_, ?_⟩
  all_goals
    simp only [amid_pos, amid_stop, amid_text, List.length_append]
    omega

@[simp] theorem amid_atEnd : (amid passed ahead beyond warnings).atEnd = ahead.isEmpty := by
  rw [atEnd, amid_pos, amid_stop, Bool.eq_iff_iff, decide_eq_true_iff, List.isEmpty_iff,
    ← List.length_eq_zero_iff]
  omega

theorem amid_atEnd_eq_false :
    (amid passed ahead beyond warnings).atEnd = false ↔ ahead ≠ [] := by
  rw [amid_atEnd, List.isEmpty_eq_false_iff]

theorem amid_moveTo {target : Int} (htarget : target = (passed ++ run).length) :
    (amid passed (run ++ rest) beyond warnings).moveTo target =
      amid (passed ++ run) rest beyond warnings := by
  have htext : passed ++ (run ++ rest) ++ beyond = passed ++ run ++ rest ++ beyond := by simp
  have hstop : passed.length + (run ++ rest).length = (passed ++ run).length + rest.length := by
    simp [Nat.add_assoc]
  rw [moveTo_eq_place, amid_text, amid_stop, amid_warnings, htext, hstop, htarget]
  rfl

theorem amid_advance : (amid passed (run ++ rest) beyond warnings).advance run.length =
    amid (passed ++ run) rest beyond warnings := by
  rw [advance, amid_pos, amid_moveTo (by simp)]

theorem amid_pair : (amid passed ahead beyond warnings).pair = (ahead ++ beyond).take 2 := by
  rw [pair_eq, rest, amid_pos, index_of_nonneg (by omega), amid_text, Int.toNat_natCast,
    List.append_assoc, List.drop_left]

theorem amid_error (expected : Expected) : (amid passed ahead beyond warnings).error expected =
    .inText (passed ++ ahead ++ beyond) passed.length expected [] := rfl

theorem amid_warn (line : Nat) (truncation : Truncation) :
    (amid passed ahead beyond warnings).warn line truncation =
      amid passed ahead beyond (warnings ++ [(line, truncation)]) := rfl

theorem amid_look :
    (amid passed ahead beyond warnings).look = fun count => .ok ahead[count]? := by
  funext count
  rw [amid_inside.look_eq, amid_ahead]

-- From here on a cursor amid a text is known by the lemmas above only.
attribute [irreducible] amid

end Cursor

/-! ## Steps -/

namespace Scan

open Cursor

variable {passed run rest ahead beyond : List Char} {warnings : List (Nat × Truncation)}
  {expected : Expected}

theorem run_peek_amid : peek.run (amid passed ahead beyond warnings) =
    .ok ahead.head? (amid passed ahead beyond warnings) := by
  rw [run_peek amid_inside, amid_ahead]

theorem run_advance (run rest : List Char) :
    (advance run.length).run (amid passed (run ++ rest) beyond warnings) =
      .ok () (amid (passed ++ run) rest beyond warnings) := by
  rw [advance, EStateM.run_modify, amid_advance]

theorem run_skipSpace (hrun : Spaces run) (hrest : Stops isSpace rest) :
    skipSpace.run (amid passed (run ++ rest) beyond warnings) =
      .ok () (amid (passed ++ run) rest beyond warnings) := by
  have hlong : Longest isSpace run rest := ⟨hrun, hrest⟩
  simp only [skipSpace, EStateM.run_bind, EStateM.run_get, amid_inside.reach_eq, amid_ahead,
    hlong.takeWhile_eq, run_advance, run_peek_amid, EStateM.run_pure]

theorem run_separator (hne : run ≠ []) (hrun : Spaces run) (hrest : Stops isSpace rest) :
    (separator expected).run (amid passed (run ++ rest) beyond warnings) =
      .ok () (amid (passed ++ run) rest beyond warnings) := by
  obtain ⟨c, run', rfl⟩ := List.exists_cons_of_ne_nil hne
  have hc : isSpace c = true := hrun c (by simp)
  have hskip : skipSpace.run (amid passed (c :: run' ++ rest) beyond warnings) =
      .ok () (amid (passed ++ c :: run') rest beyond warnings) := run_skipSpace hrun hrest
  rw [List.cons_append] at hskip ⊢
  simp [separator, run_peek_amid, hc, hskip]

theorem run_separator_end :
    (separator expected).run (amid passed [] beyond warnings) =
      .error (.inText (passed ++ beyond) passed.length .moreInput [])
        (amid passed [] beyond warnings) := by
  simp [separator, amid_error]

theorem run_separator_missing {c : Char} (hc : isSpace c = false) :
    (separator expected).run (amid passed (c :: rest) beyond warnings) =
      .error (.inText (passed ++ c :: rest ++ beyond) passed.length expected [])
        (amid passed (c :: rest) beyond warnings) := by
  simp [separator, run_peek_amid, hc, amid_error]

theorem run_newline_end (hrun : Spaces run) :
    (newline expected).run (amid passed run beyond warnings) =
      .ok () (amid (passed ++ run) [] beyond warnings) := by
  have hskip : skipSpace.run (amid passed (run ++ []) beyond warnings) =
      .ok () (amid (passed ++ run) [] beyond warnings) := run_skipSpace hrun stops_nil
  rw [List.append_nil] at hskip
  simp [newline, hskip]

theorem run_newline_feed (hrun : Spaces run) :
    (newline expected).run (amid passed (run ++ '\n' :: rest) beyond warnings) =
      .ok () (amid (passed ++ run ++ ['\n']) rest beyond warnings) := by
  have hskip : skipSpace.run (amid passed (run ++ '\n' :: rest) beyond warnings) = _ :=
    run_skipSpace hrun (by rw [stops_cons]; decide)
  have hfeed : (advance 1).run (amid (passed ++ run) ('\n' :: rest) beyond warnings) = _ :=
    run_advance ['\n'] rest
  simp [newline, hskip, amid_pair, hfeed]

theorem run_newline_return (hrun : Spaces run) :
    (newline expected).run (amid passed (run ++ '\r' :: '\n' :: rest) beyond warnings) =
      .ok () (amid (passed ++ run ++ ['\r', '\n']) rest beyond warnings) := by
  have hskip : skipSpace.run (amid passed (run ++ '\r' :: '\n' :: rest) beyond warnings) = _ :=
    run_skipSpace hrun (by rw [stops_cons]; decide)
  have hfeed : (advance 2).run (amid (passed ++ run) ('\r' :: '\n' :: rest) beyond warnings) = _ :=
    run_advance ['\r', '\n'] rest
  simp [newline, hskip, amid_pair, hfeed]

/-- What follows the spaces is no line end; a carriage return needs a line feed behind it, even
beyond the part to be read. -/
theorem run_newline_missing {c : Char} (hrun : Spaces run) (hc : isSpace c = false)
    (hfeed : c ≠ '\n') (hreturn : c = '\r' → (rest ++ beyond).head? ≠ some '\n') :
    (newline expected).run (amid passed (run ++ c :: rest) beyond warnings) =
      .error (.inText (passed ++ run ++ c :: rest ++ beyond) (passed ++ run).length expected [])
        (amid (passed ++ run) (c :: rest) beyond warnings) := by
  have hskip : skipSpace.run (amid passed (run ++ c :: rest) beyond warnings) =
      .ok () (amid (passed ++ run) (c :: rest) beyond warnings) :=
    run_skipSpace hrun (stops_cons.2 hc)
  simp only [newline, EStateM.run_bind, hskip, EStateM.run_get, amid_atEnd, List.isEmpty_cons,
    Bool.false_eq_true, if_false, amid_pair, List.cons_append, List.take_succ_cons]
  split
  · next heq =>
    obtain ⟨rfl, htake⟩ := List.cons.inj heq
    refine absurd ?_ (hreturn rfl)
    cases hmore : rest ++ beyond with
    | nil => simp [hmore] at htake
    | cons d more =>
        rw [hmore, List.take_succ_cons] at htake
        rw [(List.cons.inj htake).1, List.head?_cons]
  · next heq => exact absurd (List.cons.inj heq).1 hfeed
  · rw [run_fail, amid_error]

theorem isUnreachable_of_le {text : List Char} {offset : Nat} (h : offset ≤ text.length) :
    isUnreachable text offset = false := by
  have hnot : ¬ (text.length : Int) < offset := by omega
  simp [isUnreachable, hnot]

theorem amid_reachable :
    (isUnreachable (amid passed ahead beyond warnings).text (amid passed ahead beyond warnings).pos ||
      isUnreachable (amid passed ahead beyond warnings).text
        (amid passed ahead beyond warnings).stop) = false := by
  rw [amid_text, amid_pos, amid_stop, isUnreachable_of_le, isUnreachable_of_le, Bool.or_self]
  · simp only [List.length_append]
    omega
  · simp only [List.length_append]
    omega

theorem run_numeral {token : List Char} {value : Nat} (htoken : NumeralToken token value)
    (hrest : Stops isTokenChar rest) :
    (numeral expected).run (amid passed (token ++ rest) beyond warnings) =
      .ok value (amid (passed ++ token) rest beyond warnings) := by
  have hread : Numeral.read (token ++ rest) = some (value, token.length) :=
    (numeral_read_eq_some_iff ⟨htoken.isTokenChar, hrest⟩).2 ⟨htoken, rfl⟩
  have hne : (token ++ rest).isEmpty = false := by
    simp [htoken.ne_nil]
  have hmove : (amid passed (token ++ rest) beyond warnings).moveTo
      ((amid passed (token ++ rest) beyond warnings).pos.toNat + token.length) =
        amid (passed ++ token) rest beyond warnings := amid_moveTo (by simp)
  simp only [numeral, EStateM.run_bind, EStateM.run_get, amid_atEnd, hne, Bool.false_eq_true,
    if_false, EStateM.run_pure, amid_reachable, amid_inside.inText_eq, amid_ahead, hread,
    EStateM.run_modify, hmove]

theorem run_numeral_end :
    (numeral expected).run (amid passed [] beyond warnings) =
      .error (.inText (passed ++ beyond) passed.length .moreInput [])
        (amid passed [] beyond warnings) := by
  simp [numeral, amid_error]

theorem run_numeral_missing {token : List Char} (hne : token ++ rest ≠ [])
    (htoken : Longest isTokenChar token rest) (hnumeral : ∀ value, ¬ NumeralToken token value) :
    (numeral expected).run (amid passed (token ++ rest) beyond warnings) =
      .error (.inText (passed ++ (token ++ rest) ++ beyond) passed.length expected [])
        (amid passed (token ++ rest) beyond warnings) := by
  have hread : Numeral.read (token ++ rest) = none := by
    rw [Option.eq_none_iff_forall_ne_some]
    rintro ⟨value, length⟩ hsome
    exact hnumeral value ((numeral_read_eq_some_iff htoken).1 hsome).1
  have hempty : (token ++ rest).isEmpty = false := by
    simpa using hne
  simp only [numeral, EStateM.run_bind, EStateM.run_get, amid_atEnd, hempty, Bool.false_eq_true,
    if_false, amid_reachable, amid_inside.inText_eq, amid_ahead, hread, run_fail, amid_error]

section

variable {inName : Char → Bool} {table : List (List Char × Instruction)} {token : List Char}
  {i : Instruction}

theorem run_mnemonic (hnames : HoldsTokens inName) (htable : table.Perm Mnemonic.table)
    (htoken : Spelling i token) (hrest : Stops inName rest) :
    (mnemonic inName table).run (amid passed (token ++ rest) beyond warnings) =
      .ok i (amid (passed ++ token) rest beyond warnings) := by
  have hempty : (token ++ rest).isEmpty = false := by
    simp [htoken.ne_nil]
  simp only [mnemonic, EStateM.run_bind, EStateM.run_get, amid_atEnd, hempty, Bool.false_eq_true,
    if_false, EStateM.run_pure, amid_ahead, amid_look,
    readFrom_of_spelling hnames htable htoken hrest, run_ofLook_ok, run_advance]

theorem run_mnemonic_end :
    (mnemonic inName table).run (amid passed [] beyond warnings) =
      .error (.inText (passed ++ beyond) passed.length .moreInput [])
        (amid passed [] beyond warnings) := by
  simp [mnemonic, amid_error]

theorem run_mnemonic_missing (hnames : HoldsTokens inName) (htable : table ⊆ Mnemonic.table)
    (hne : token ++ rest ≠ []) (htoken : Longest inName token rest)
    (hspelling : ∀ i, ¬ Spelling i token) :
    (mnemonic inName table).run (amid passed (token ++ rest) beyond warnings) =
      .error (.inText (passed ++ (token ++ rest) ++ beyond) passed.length .instruction
          Instruction.all) (amid passed (token ++ rest) beyond warnings) := by
  have hempty : (token ++ rest).isEmpty = false := by
    simpa using hne
  simp only [mnemonic, EStateM.run_bind, EStateM.run_get, amid_atEnd, hempty, Bool.false_eq_true,
    if_false, amid_ahead, amid_look, readFrom_of_no_spelling hnames htable htoken hspelling,
    run_ofLook_ok, amid_error]
  rfl

theorem run_instruction (htoken : Spelling i token) (hrest : Stops isNameChar rest) :
    instruction.run (amid passed (token ++ rest) beyond warnings) =
      .ok i (amid (passed ++ token) rest beyond warnings) :=
  run_mnemonic holdsTokens_isNameChar (List.Perm.refl _) htoken hrest

theorem run_instruction_end :
    instruction.run (amid passed [] beyond warnings) =
      .error (.inText (passed ++ beyond) passed.length .moreInput [])
        (amid passed [] beyond warnings) :=
  run_mnemonic_end

theorem run_instruction_missing (hne : token ++ rest ≠ []) (htoken : Longest isNameChar token rest)
    (hspelling : ∀ i, ¬ Spelling i token) :
    instruction.run (amid passed (token ++ rest) beyond warnings) =
      .error (.inText (passed ++ (token ++ rest) ++ beyond) passed.length .instruction
          Instruction.all) (amid passed (token ++ rest) beyond warnings) :=
  run_mnemonic_missing holdsTokens_isNameChar (List.Subset.refl _) hne htoken hspelling

end

/-! ## Operands -/

theorem lineAt_amid : lineAt (amid passed ahead beyond warnings).text
    (amid passed ahead beyond warnings).pos = passed.count '\n' + 1 := by
  rw [lineAt, before, amid_pos, index_of_nonneg (by omega), amid_text, Int.toNat_natCast,
    List.append_assoc, List.take_left]

theorem run_operand {token : List Char} {value : Nat} (kind : Operand)
    (htoken : NumeralToken token value) (hrest : Stops isTokenChar rest) :
    (operand kind expected).run (amid passed (token ++ rest) beyond warnings) =
      .ok value (amid (passed ++ token) rest beyond
        (warnings ++ (Truncation.check kind value).toList.map (passed.count '\n' + 1, ·))) := by
  simp only [operand, EStateM.run_bind, EStateM.run_get, run_numeral htoken hrest]
  cases Truncation.check kind value with
  | none => simp
  | some truncation =>
      simp only [lineAt_amid, EStateM.run_bind, EStateM.run_modify, amid_warn, EStateM.run_pure,
        Option.toList_some, List.map_cons, List.map_nil]

theorem run_operand_missing {token : List Char} (kind : Operand) (hne : token ++ rest ≠ [])
    (htoken : Longest isTokenChar token rest) (hnumeral : ∀ value, ¬ NumeralToken token value) :
    (operand kind expected).run (amid passed (token ++ rest) beyond warnings) =
      .error (.inText (passed ++ (token ++ rest) ++ beyond) passed.length expected [])
        (amid passed (token ++ rest) beyond warnings) := by
  simp only [operand, EStateM.run_bind, EStateM.run_get,
    run_numeral_missing hne htoken hnumeral]

/-! ## Comments -/

/-- A comment reaches to the end of its line, which is a line feed or the end of what is to be
read. -/
theorem run_comment {body : List Char} (hbody : '\n' ∉ body)
    (hrest : rest = [] ∨ ∃ more, rest = '\n' :: more) :
    comment.run (amid passed (';' :: body ++ rest) beyond warnings) =
      .ok (String.ofList (trimRight body)) (amid (passed ++ ';' :: body) rest beyond warnings) := by
  have hlong : Longest (fun c => decide (c ≠ '\n')) body rest := by
    refine ⟨fun c hc => decide_eq_true fun h => hbody (h ▸ hc), ?_⟩
    rcases hrest with rfl | ⟨more, rfl⟩
    · exact stops_nil
    · simp
  have hahead : ((amid passed ([';'] ++ (body ++ rest)) beyond warnings).advance [';'].length).ahead =
      body ++ rest := by
    rw [amid_advance, amid_ahead]
  have hmove : (amid passed (';' :: body ++ rest) beyond warnings).moveTo
      (if rest.isEmpty then (amid passed (';' :: body ++ rest) beyond warnings).stop
        else index (amid passed (';' :: body ++ rest) beyond warnings).text
          ((amid passed (';' :: body ++ rest) beyond warnings).pos + 1) + body.length) =
        amid (passed ++ ';' :: body) rest beyond warnings := by
    apply amid_moveTo
    rw [amid_pos, index_of_nonneg (by omega), amid_stop]
    rcases hrest with rfl | ⟨more, rfl⟩
    · simp
    · simp
      omega
  simp only [List.singleton_append, List.length_singleton] at hahead
  rw [List.cons_append] at hmove ⊢
  simp only [comment, EStateM.run_bind, run_peek_amid, List.head?_cons, if_true, EStateM.run_get,
    hahead, hlong.takeWhile_eq, hlong.dropWhile_eq, EStateM.run_set, EStateM.run_pure, hmove]

theorem run_comment_missing (h : ahead.head? ≠ some ';') :
    comment.run (amid passed ahead beyond warnings) =
      .error (.inText (passed ++ ahead ++ beyond) passed.length .comment [])
        (amid passed ahead beyond warnings) := by
  simp only [comment, EStateM.run_bind, run_peek_amid, h, if_false, run_fail, amid_error]

/-! ## What a step may find -/

/-- In front of these characters a step fails where it stands, in every text alike. -/
def Refuses {α : Type} (x : Scan α) (ahead : List Char) : Prop :=
  ∃ expected candidates, ∀ passed beyond warnings,
    x.run (amid passed ahead beyond warnings) =
      .error (.inText (passed ++ ahead ++ beyond) passed.length expected candidates)
        (amid passed ahead beyond warnings)

theorem Refuses.not_ok {α : Type} {x : Scan α} (h : Refuses x ahead) {value : α} {c : Cursor} :
    x.run (amid passed ahead beyond warnings) ≠ .ok value c := by
  obtain ⟨expected, candidates, hrun⟩ := h
  rw [hrun]
  exact nofun

theorem separator_cases (expected : Expected) (ahead : List Char) :
    (∃ gap rest, ahead = gap ++ rest ∧ gap ≠ [] ∧ Spaces gap ∧ Stops isSpace rest) ∨
      Refuses (separator expected) ahead := by
  obtain ⟨gap, rest, rfl, hlong⟩ := exists_longest isSpace ahead
  by_cases hne : gap = []
  · subst hne
    rw [List.nil_append]
    cases rest with
    | nil =>
        refine .inr ⟨.moreInput, [], fun passed beyond warnings => ?_⟩
        rw [run_separator_end, List.append_nil]
    | cons c rest =>
        exact .inr ⟨expected, [], fun _ _ _ => run_separator_missing (stops_cons.1 hlong.stops)⟩
  · exact .inl ⟨gap, rest, rfl, hne, hlong.all, hlong.stops⟩

theorem numeral_cases (expected : Expected) (ahead : List Char) :
    (∃ token rest value, ahead = token ++ rest ∧ NumeralToken token value ∧
      Stops isTokenChar rest) ∨ Refuses (numeral expected) ahead := by
  obtain ⟨token, rest, rfl, hlong⟩ := exists_longest isTokenChar ahead
  by_cases hnumeral : ∃ value, NumeralToken token value
  · obtain ⟨value, hvalue⟩ := hnumeral
    exact .inl ⟨token, rest, value, rfl, hvalue, hlong.stops⟩
  by_cases hne : token ++ rest = []
  · refine .inr ⟨.moreInput, [], fun passed beyond warnings => ?_⟩
    rw [hne, run_numeral_end, List.append_nil]
  · exact .inr ⟨expected, [], fun _ _ _ =>
      run_numeral_missing hne hlong (not_exists.1 hnumeral)⟩

/-- Noting that an operand does not fit cannot fail. -/
theorem operand_cases (kind : Operand) (expected : Expected) (ahead : List Char) :
    (∃ token rest value, ahead = token ++ rest ∧ NumeralToken token value ∧
      Stops isTokenChar rest) ∨ Refuses (operand kind expected) ahead := by
  refine (numeral_cases expected ahead).imp_right ?_
  rintro ⟨found, candidates, hrun⟩
  refine ⟨found, candidates, fun passed beyond warnings => ?_⟩
  simp only [operand, EStateM.run_bind, EStateM.run_get, hrun]

theorem instruction_cases (ahead : List Char) :
    (∃ token rest i, ahead = token ++ rest ∧ Spelling i token ∧ Stops isNameChar rest) ∨
      Refuses instruction ahead := by
  obtain ⟨token, rest, rfl, hlong⟩ := exists_longest isNameChar ahead
  by_cases hspelling : ∃ i, Spelling i token
  · obtain ⟨i, hi⟩ := hspelling
    exact .inl ⟨token, rest, i, rfl, hi, hlong.stops⟩
  by_cases hne : token ++ rest = []
  · refine .inr ⟨.moreInput, [], fun passed beyond warnings => ?_⟩
    rw [hne, run_instruction_end, List.append_nil]
  · exact .inr ⟨.instruction, Instruction.all, fun _ _ _ =>
      run_instruction_missing hne hlong (not_exists.1 hspelling)⟩

theorem comment_cases (ahead : List Char) :
    (∃ body rest, ahead = ';' :: body ++ rest ∧ '\n' ∉ body ∧
      (rest = [] ∨ ∃ more, rest = '\n' :: more)) ∨ Refuses comment ahead := by
  by_cases hhead : ahead.head? = some ';'
  · obtain ⟨tail, rfl⟩ := List.head?_eq_some_iff.1 hhead
    obtain ⟨body, rest, rfl, hlong⟩ := exists_longest (fun c => decide (c ≠ '\n')) tail
    refine .inl ⟨body, rest, rfl, fun hmem => absurd (hlong.all _ hmem) (by decide), ?_⟩
    cases rest with
    | nil => exact .inl rfl
    | cons c rest => exact .inr ⟨rest, by simpa using hlong.stops⟩
  · exact .inr ⟨.comment, [], fun _ _ _ => run_comment_missing hhead⟩

theorem run_newline {ending : List Char} (hrun : Spaces run)
    (hending : ending = [] ∧ rest = [] ∨ ending = ['\n'] ∨ ending = ['\r', '\n']) :
    (newline expected).run (amid passed (run ++ ending ++ rest) beyond warnings) =
      .ok () (amid (passed ++ (run ++ ending)) rest beyond warnings) := by
  rw [List.append_assoc, ← List.append_assoc passed]
  rcases hending with ⟨rfl, rfl⟩ | rfl | rfl
  · rw [List.nil_append, List.append_nil, List.append_nil]
    exact run_newline_end hrun
  · exact run_newline_feed hrun
  · exact run_newline_return hrun

/-- Whether a line ends here is seen in the part to be read, unless this part ends with a carriage
return. -/
theorem newline_cases (expected : Expected) (ahead : List Char) :
    (∃ run ending rest, ahead = run ++ ending ++ rest ∧ Spaces run ∧
      (ending = [] ∧ rest = [] ∨ ending = ['\n'] ∨ ending = ['\r', '\n'])) ∨
    ∃ run rest, ahead = run ++ rest ∧ ∀ passed beyond warnings, beyond = [] ∨ EndsSolid ahead →
      (newline expected).run (amid passed ahead beyond warnings) =
        .error (.inText (passed ++ run ++ rest ++ beyond) (passed ++ run).length expected [])
          (amid (passed ++ run) rest beyond warnings) := by
  obtain ⟨run, rest, rfl, hlong⟩ := exists_longest isSpace ahead
  have hspaces : Spaces run := hlong.all
  cases rest with
  | nil => exact .inl ⟨run, [], [], by simp, hspaces, .inl ⟨rfl, rfl⟩⟩
  | cons c rest =>
      by_cases hfeed : c = '\n'
      · exact .inl ⟨run, ['\n'], rest, by simp [hfeed], hspaces, .inr (.inl rfl)⟩
      by_cases hreturn : c = '\r' ∧ rest.head? = some '\n'
      · obtain ⟨rfl, hnext⟩ := hreturn
        obtain ⟨rest, rfl⟩ := List.head?_eq_some_iff.1 hnext
        exact .inl ⟨run, ['\r', '\n'], rest, by simp, hspaces, .inr (.inr rfl)⟩
      · refine .inr ⟨run, c :: rest, rfl, fun passed beyond warnings hguard => ?_⟩
        have hmissing : c = '\r' → (rest ++ beyond).head? ≠ some '\n' := by
          rintro rfl
          cases rest with
          | nil =>
              -- The part to be read would end with the carriage return, which is a blank.
              rcases hguard with rfl | hsolid
              · simp
              · exact absurd (hsolid '\r' (by simp)) (by decide)
          | cons d rest => exact fun hnext => hreturn ⟨rfl, hnext⟩
        exact run_newline_missing hspaces (stops_cons.1 hlong.stops) hfeed hmissing

end Scan

end OneBit.Source
