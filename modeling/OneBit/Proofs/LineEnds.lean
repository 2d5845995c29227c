import OneBit.Proofs.Assembler
import OneBit.Proofs.Text.Returns
/-!
# Line ends do not matter

A source may end its lines with a line feed or with a carriage return and a line feed, mixed freely.
Line by line, the source with plain line ends says the same, or has the same fault at the same place
of the line; so an assembler gives the same for both, with the same lines and columns.  A text file
comes with plain line ends, so assembling it is assembling the text that was written to it.
-/

namespace OneBit.Grammar

open Text Source

variable {last : Prop} {line token rest text : List Char} {s : Statement} {offset value : Nat}
  {expected found : Expected} {i : Instruction}

/-! ## Parts of a line without carriage returns -/

theorem dropReturns_spaces (h : Spaces text) : dropReturns text = text :=
  dropReturns_eq_self (notMem_of_class (by decide) h)

theorem dropReturns_tokenChars (h : ∀ c ∈ text, isTokenChar c = true) : dropReturns text = text :=
  dropReturns_eq_self (notMem_of_class (by decide) h)

theorem dropReturns_spelling (h : Spelling i text) : dropReturns text = text :=
  dropReturns_tokenChars h.isTokenChar

theorem dropReturns_argument (h : Argument text value) : dropReturns text = text := by
  obtain ⟨gap, token, rfl, -, hgap, htoken⟩ := h
  rw [dropReturns_append, dropReturns_spaces hgap, dropReturns_tokenChars htoken.isTokenChar]

theorem dropReturns_nameChars (h : ∀ c ∈ text, isNameChar c = true) : dropReturns text = text := by
  have hreturn : isNameChar '\r' = false := isNameChar_eq_isTokenChar (by decide)
  exact dropReturns_eq_self (notMem_of_class hreturn h)

/-! ## Lines with a statement -/

/-- A line says the same without the carriage return at its end; a comment would lose it anyway. -/
theorem Line.exists_dropReturns (h : Line line s) (hreturn : ReturnLast line) :
    ∃ plain, Line (dropReturns line) plain ∧ plain.node = s.node ∧
      plain.truncations = s.truncations := by
  cases h with
  | @comment indent body hindent =>
      have hbody : ReturnLast body := (hreturn.of_append indent).of_append [';']
      refine ⟨.comment (dropReturns body), ?_, ?_, rfl⟩
      · rw [dropReturns_append, dropReturns_spaces hindent, dropReturns_cons (by decide)]
        exact .comment hindent
      · rw [Statement.node, hbody.trimRight_eq, Statement.node]
  | @word indent mnemonic address control trail ending i a c hindent hmnemonic haddress hcontrol
      htrail hending =>
      have hending' : dropReturns ending = [] := by
        rcases hending with rfl | rfl <;> rfl
      refine ⟨.word i a c, ?_, rfl, rfl⟩
      simp only [dropReturns_append, dropReturns_spaces hindent, dropReturns_spelling hmnemonic,
        dropReturns_argument haddress, dropReturns_argument hcontrol, dropReturns_spaces htrail,
        hending']
      exact .word hindent hmnemonic haddress hcontrol htrail (.inl rfl)

/-! ## Lines at fault -/

theorem head_dropReturns (h : ReturnLast text) {c : Char} (hc : text.head? ≠ some c) :
    (dropReturns text).head? ≠ some c := by
  rcases h.eq_or with heq | heq
  · rwa [heq]
  · cases htext : dropReturns text with
    | nil => simp
    | cons d more =>
        rw [heq, htext] at hc
        simpa using hc

theorem ArgumentFault.dropReturns (h : ArgumentFault last expected text offset found)
    (hreturn : ReturnLast text) (hlast : last → '\r' ∉ text) :
    ArgumentFault last expected (dropReturns text) offset found := by
  cases h with
  | ended hl => exact .ended hl
  | unspaced hl hrest =>
      refine .unspaced ?_ (hreturn.stops hrest)
      -- Where nothing is left of the line it was empty, or a carriage return and not the last line.
      intro hnil hlast'
      rw [dropReturns_eq_self (hlast hlast')] at hnil
      exact hl hnil hlast'
  | @unnumbered gap token rest hgap hspaces htoken hstops hnumeral =>
      rw [List.append_assoc] at hreturn
      have hahead := (hreturn.of_append gap).stops hstops
      rw [dropReturns_append, dropReturns_tokenChars htoken.all] at hahead
      have hrest := ((hreturn.of_append gap).of_append token).stops htoken.stops
      rw [dropReturns_append, dropReturns_append, dropReturns_spaces hspaces,
        dropReturns_tokenChars htoken.all]
      exact .unnumbered hgap hspaces ⟨htoken.all, hrest⟩ hahead hnumeral

/-- A line at fault has the same fault without the carriage return at its end. -/
theorem Fault.dropReturns (h : Fault last line offset found) (hreturn : ReturnLast line)
    (hlast : last → '\r' ∉ line) : Fault last (dropReturns line) offset found := by
  cases h with
  | @instruction indent token rest hindent htoken hstops hcomment hspelling =>
      rw [List.append_assoc] at hreturn
      have hahead := hreturn.of_append indent
      have hstops' := hahead.stops hstops
      have hcomment' := head_dropReturns hahead hcomment
      have hrest := (hahead.of_append token).stops htoken.stops
      rw [dropReturns_append, dropReturns_nameChars htoken.all] at hstops' hcomment'
      rw [dropReturns_append, dropReturns_append, dropReturns_spaces hindent,
        dropReturns_nameChars htoken.all]
      exact .instruction hindent ⟨htoken.all, hrest⟩ hstops' hcomment' hspelling
  | @address indent mnemonic rest i offset expected hindent hmnemonic hname hrest =>
      have hreturn' := hreturn.of_append (indent ++ mnemonic)
      rw [dropReturns_append, dropReturns_append, dropReturns_spaces hindent,
        dropReturns_spelling hmnemonic]
      refine .address hindent hmnemonic (hreturn'.stops hname) (hrest.dropReturns hreturn' ?_)
      exact fun hl hmem => hlast hl (List.mem_append_right _ hmem)
  | @control indent mnemonic address rest i a offset expected hindent hmnemonic haddress htoken
      hrest =>
      have hreturn' := hreturn.of_append (indent ++ mnemonic ++ address)
      simp only [dropReturns_append, dropReturns_spaces hindent, dropReturns_spelling hmnemonic,
        dropReturns_argument haddress]
      refine .control hindent hmnemonic haddress (hreturn'.stops htoken)
        (hrest.dropReturns hreturn' ?_)
      exact fun hl hmem => hlast hl (List.mem_append_right _ hmem)
  | @endOfLine indent mnemonic address control trail rest i a c hindent hmnemonic haddress hcontrol
      htrail htoken hstops hne hreturnOnly =>
      have hrest := hreturn.of_append (indent ++ mnemonic ++ address ++ control ++ trail)
      rw [List.append_assoc] at hreturn
      have htoken' := (hreturn.of_append (indent ++ mnemonic ++ address ++ control)).stops htoken
      rw [dropReturns_append, dropReturns_spaces htrail] at htoken'
      simp only [dropReturns_append, dropReturns_spaces hindent, dropReturns_spelling hmnemonic,
        dropReturns_argument haddress, dropReturns_argument hcontrol, dropReturns_spaces htrail]
      refine .endOfLine hindent hmnemonic haddress hcontrol htrail htoken' (hrest.stops hstops) ?_ ?_
      · intro hnil
        rcases hrest.eq_or with heq | heq
        · exact hne (heq.symm.trans hnil)
        · rw [hnil] at heq
          exact hreturnOnly heq
      · intro heq
        exact notMem_dropReturns rest (by simp [heq])

/-! ## Places of faults -/

theorem ArgumentFault.exists_front (h : ArgumentFault last expected text offset found) :
    ∃ front rest, text = front ++ rest ∧ front.length = offset ∧ Text.dropReturns front = front := by
  cases h with
  | ended hl => exact ⟨[], [], rfl, rfl, rfl⟩
  | unspaced hl hrest => exact ⟨[], text, rfl, rfl, rfl⟩
  | @unnumbered gap token rest hgap hspaces htoken hstops hnumeral =>
      exact ⟨gap, token ++ rest, List.append_assoc .., rfl, dropReturns_spaces hspaces⟩

/-- No carriage return comes before the place of a fault. -/
theorem Fault.exists_front (h : Fault last line offset found) :
    ∃ front rest, line = front ++ rest ∧ front.length = offset ∧ Text.dropReturns front = front := by
  cases h with
  | @instruction indent token rest hindent htoken hstops hcomment hspelling =>
      exact ⟨indent, token ++ rest, List.append_assoc .., rfl, dropReturns_spaces hindent⟩
  | @address indent mnemonic rest i offset expected hindent hmnemonic hname hrest =>
      obtain ⟨front, more, rfl, rfl, hfront⟩ := hrest.exists_front
      refine ⟨indent ++ mnemonic ++ front, more, (List.append_assoc ..).symm, List.length_append, ?_⟩
      rw [dropReturns_append, dropReturns_append, dropReturns_spaces hindent,
        dropReturns_spelling hmnemonic, hfront]
  | @control indent mnemonic address rest i a offset expected hindent hmnemonic haddress htoken
      hrest =>
      obtain ⟨front, more, rfl, rfl, hfront⟩ := hrest.exists_front
      refine ⟨indent ++ mnemonic ++ address ++ front, more, (List.append_assoc ..).symm,
        List.length_append, ?_⟩
      simp only [dropReturns_append, dropReturns_spaces hindent, dropReturns_spelling hmnemonic,
        dropReturns_argument haddress, hfront]
  | @endOfLine indent mnemonic address control trail rest i a c hindent hmnemonic haddress hcontrol
      htrail htoken hstops hne hreturn =>
      refine ⟨indent ++ mnemonic ++ address ++ control ++ trail, rest, rfl, rfl, ?_⟩
      simp only [dropReturns_append, dropReturns_spaces hindent, dropReturns_spelling hmnemonic,
        dropReturns_argument haddress, dropReturns_argument hcontrol, dropReturns_spaces htrail]

/-! ## The lines of a program -/

variable {before after : List (List Char)} {statements : List Statement}

theorem programLines_dropReturns (text : List Char) :
    programLines (dropReturns text) = (programLines text).map dropReturns := by
  unfold programLines
  rw [trim_dropReturns]
  by_cases hcore : trim text = []
  · rw [if_pos hcore, if_pos (by rw [hcore, dropReturns_nil]), List.map_nil]
  · rw [if_neg hcore, if_neg (fun h => hcore ((dropReturns_trim_eq_nil_iff text).1 h)),
      splitAt_dropReturns]

theorem returnLast_of_mem_programLines (h : Paired text) (hline : line ∈ programLines text) :
    ReturnLast line := by
  obtain ⟨before, after, hlines⟩ := List.append_of_mem hline
  obtain ⟨trail, htext⟩ := exists_append_of_programLines hlines
  obtain ⟨tail, hjoin, -⟩ := Scan.exists_follows line after
  rw [htext, hjoin, List.append_assoc line] at h
  exact h.returnLast (notMem_of_mem_programLines hline)

theorem lineStart_dropReturns (text : List Char) (before : List (List Char)) :
    lineStart (dropReturns text) (before.map dropReturns) =
      (dropReturns (text.takeWhile isBlank ++ endLines before)).length := by
  rw [lineStart, takeWhile_dropReturns, endLines_map_dropReturns, dropReturns_append]

/-- A line does not start right behind a carriage return. -/
theorem getLast?_lineStart (h : Paired text) (before : List (List Char)) :
    (text.takeWhile isBlank ++ endLines before).getLast? ≠ some '\r' := by
  rcases List.eq_nil_or_concat before with rfl | ⟨lines, line, rfl⟩
  · rw [endLines_nil, List.append_nil]
    intro hlast
    obtain ⟨front, hlead⟩ := List.getLast?_eq_some_iff.1 hlast
    have hsplit : text = front ++ ('\r' :: trimLeft text) := by
      rw [List.append_cons, ← hlead]
      exact List.takeWhile_append_dropWhile.symm
    rw [hsplit] at h
    have hfeed := stops_trimLeft text '\n' (h.of_append front).head_eq
    revert hfeed
    decide
  · simp [endLines]

theorem position_dropReturns {front : List Char} (h : Paired text)
    (hlines : programLines text = before ++ (front ++ rest) :: after)
    (hfront : dropReturns front = front) :
    Position.ofOffset (dropReturns text)
        (lineStart (dropReturns text) (before.map dropReturns) + front.length : Nat) =
      Position.ofOffset text (lineStart text before + front.length : Nat) := by
  obtain ⟨trail, htext⟩ := exists_append_of_programLines hlines
  obtain ⟨tail, hjoin, -⟩ := Scan.exists_follows (front ++ rest) after
  have hpassed : text =
      text.takeWhile isBlank ++ endLines before ++ front ++ (rest ++ (tail ++ trail)) := by
    rw [hjoin] at htext
    simpa only [List.append_assoc] using htext
  have hlast : (text.takeWhile isBlank ++ endLines before ++ front).getLast? ≠ some '\r' := by
    by_cases hnil : front = []
    · rw [hnil, List.append_nil]
      exact getLast?_lineStart h before
    · rw [List.getLast?_append_of_ne_nil _ hnil]
      intro hreturn
      exact notMem_dropReturns front (hfront.symm ▸ List.mem_of_getLast? hreturn)
  have hoffset : lineStart (dropReturns text) (before.map dropReturns) + front.length =
      (dropReturns (text.takeWhile isBlank ++ endLines before ++ front)).length := by
    rw [lineStart_dropReturns, dropReturns_append _ front, hfront, List.length_append]
  have hoffset' : lineStart text before + front.length =
      (text.takeWhile isBlank ++ endLines before ++ front).length := List.length_append.symm
  have hplain := congrArg dropReturns hpassed
  rw [dropReturns_append] at hplain
  rw [hoffset, hoffset']
  rw [hpassed] at h
  have hposition := h.ofOffset_dropReturns hlast (dropReturns (rest ++ (tail ++ trail)))
  rwa [← hplain, ← hpassed] at hposition

theorem exists_statements_dropReturns {lines : List (List Char)}
    (h : List.Forall₂ Line lines statements) (hreturn : ∀ line ∈ lines, ReturnLast line) :
    ∃ plain, List.Forall₂ Line (lines.map dropReturns) plain ∧
      plain.map Statement.node = statements.map Statement.node ∧
      ∀ start, truncationsFrom start plain = truncationsFrom start statements := by
  induction h with
  | nil => exact ⟨[], .nil, rfl, fun _ => rfl⟩
  | @cons line s lines statements hline _ ih =>
      obtain ⟨first, hfirst, hnode, htruncations⟩ :=
        hline.exists_dropReturns (hreturn line (by simp))
      obtain ⟨plain, hplain, hnodes, hcuts⟩ := ih fun l hl => hreturn l (by simp [hl])
      refine ⟨first :: plain, .cons hfirst hplain, ?_, fun start => ?_⟩
      · rw [List.map_cons, List.map_cons, hnode, hnodes]
      · rw [truncationsFrom, truncationsFrom, htruncations, hcuts]

end OneBit.Grammar

namespace OneBit

open Text Grammar Source

variable {source : String}

/-- The source with plain line ends. -/
def plainSource (source : String) : String := String.ofList (plainEnds source.toList)

theorem toList_plainSource (h : Paired source.toList) :
    (plainSource source).toList = dropReturns source.toList := by
  rw [plainSource, String.toList_ofList, h.plainEnds_eq]

theorem readProgram_plainSource {statements : List Statement} (h : Paired source.toList)
    (hstatements : List.Forall₂ Line (programLines source.toList) statements) :
    readProgram (plainSource source) = readProgram source := by
  obtain ⟨plain, hplain, hnodes, htruncations⟩ := exists_statements_dropReturns hstatements
    fun line hline => returnLast_of_mem_programLines h hline
  rw [← programLines_dropReturns, ← toList_plainSource h] at hplain
  rw [readProgram_of_statements hplain, readProgram_of_statements hstatements, hnodes, htruncations,
    toList_plainSource h, takeWhile_dropReturns, count_dropReturns]

-- Of the place of an error, an error note has the line and the column, not the offset.
theorem errorNote_inText {text text' : List Char} {offset offset' : Int} {expected : Expected}
    {candidates candidates' : List Instruction}
    (h : Position.ofOffset text offset = Position.ofOffset text' offset') :
    Assembler.errorNote (.inText text offset expected candidates) =
      Assembler.errorNote (.inText text' offset' expected candidates') := by
  unfold Assembler.errorNote SyntaxError.inText
  rw [h]
  rfl

/-- The error of the source with plain line ends is at the same line and column. -/
theorem exists_error_plainSource {e : SyntaxError} (h : Paired source.toList)
    (hfault : FirstFault source.toList e) :
    ∃ plain, parse (plainSource source) = .error plain ∧
      Assembler.errorNote plain = Assembler.errorNote e := by
  obtain ⟨before, line, after, offset, found, hlines, hbefore, -, hfault, rfl⟩ := hfault
  have hmem : ∀ l ∈ before ++ line :: after, ReturnLast l := fun l hl =>
    returnLast_of_mem_programLines h (hlines ▸ hl)
  have hreturn := hmem line (by simp)
  have hlast : after = [] → '\r' ∉ line := by
    rintro rfl
    refine hreturn.notMem fun hlast => ?_
    exact absurd ((last_programLine hlines).2 _ hlast) (by decide)
  obtain ⟨statements, hstatements⟩ := (statements_iff before).2 hbefore
  obtain ⟨plain, hplain, -⟩ := exists_statements_dropReturns hstatements
    fun l hl => hmem l (by simp [hl])
  have hlines' : programLines (plainSource source).toList =
      before.map dropReturns ++ dropReturns line :: after.map dropReturns := by
    rw [toList_plainSource h, programLines_dropReturns, hlines, List.map_append, List.map_cons]
  have hfault' : Fault (after.map dropReturns = []) (dropReturns line) offset found := by
    rw [List.map_eq_nil_iff]
    exact hfault.dropReturns hreturn hlast
  refine ⟨_, parse_of_fault hlines' hplain hfault', ?_⟩
  obtain ⟨front, rest, rfl, rfl, hfront⟩ := hfault.exists_front
  have hposition := position_dropReturns h hlines hfront
  rw [← toList_plainSource h] at hposition
  exact errorNote_inText hposition

theorem ofSource_plainSource (h : Paired source.toList) :
    Assembler.ofSource (plainSource source) = Assembler.ofSource source := by
  rcases parse_cases source with ⟨statements, hstatements, -⟩ | ⟨e, hfault, herror⟩
  · unfold Assembler.ofSource
    rw [readProgram_plainSource h hstatements]
  · obtain ⟨plain, hplain, hnote⟩ := exists_error_plainSource h hfault
    rw [Assembler.ofSource_of_error hplain, Assembler.ofSource_of_error herror, hnote]

/-! ## Text files -/

theorem decodeFile?_encodeFile (text : String) :
    decodeFile? (encodeFile text) = some (String.ofList (unifyLineEnds text.toList)) := by
  have hbytes : (⟨(encodeFile text).toArray⟩ : ByteArray) = text.toByteArray := rfl
  have hdecode : String.fromUTF8? text.toByteArray = some text := by
    unfold String.fromUTF8?
    rw [dif_pos text.isValidUTF8]
    rfl
  rw [decodeFile?, hbytes, hdecode, Option.map_some]

theorem readText_of_read {tree : FileTree} {path : String} (h : Paired source.toList)
    (hread : tree.read path = .ok (encodeFile source)) :
    tree.readText path = .ok (plainSource source) := by
  unfold FileTree.readText
  rw [hread, plainSource, h.plainEnds_eq, ← h.unifyLineEnds_eq]
  simp only [decodeFile?_encodeFile]

theorem Loader.value_assemble_plainSource (h : Paired source.toList) :
    (assemble (plainSource source)).value = (assemble source).value := by
  rw [value_assemble, value_assemble, ofSource, ofSource, ofSource_plainSource h]

/-- Where every carriage return stands before a line feed, an assembler is the same after a source
and after the source with plain line ends, and a loader does with a file of the source what it does
with the source. -/
theorem assemble_plain_line_ends (source : String) (h : Paired source.toList) :
    (∀ a : Assembler, (a.serve (.assemble (plainSource source))).value =
      (a.serve (.assemble source)).value) ∧
    ∀ (tree : FileTree) (path : String) (l : Loader), tree.read path = .ok (encodeFile source) →
      (l.serve tree (.assembleFile path)).value = (l.serve tree (.assemble source)).value := by
  refine ⟨fun a => ?_, fun tree path l hread => ?_⟩
  · rw [Assembler.value_serve_assemble, Assembler.value_serve_assemble, ofSource_plainSource h]
  · have hfile : (l.assembleFile tree path).value = (Loader.assemble source).value := by
      unfold Loader.assembleFile
      rw [readText_of_read h hread]
      exact Loader.value_assemble_plainSource h
    have hserve : (l.serve tree (.assembleFile path)).value =
        ((l.assembleFile tree path).value.1.map .image, (l.assembleFile tree path).value.2) := rfl
    rw [hserve, hfile, Loader.value_assemble, Loader.value_serve_assemble, Loader.value_assemble]

/-- A carriage return where a control is expected, in a text and in a file of it. -/
theorem assemble_plain_line_ends_cut_line :
    Paired "ld 0o1\r\nld 0o1 0b0".toList ∧
      (Assembler.serve {} (.assemble (plainSource "ld 0o1\r\nld 0o1 0b0"))).value.errors =
        [⟨.line 1, "expected control at column 7"⟩] ∧
      (Loader.serve ⟨[([['a']], .file (encodeFile "ld 0o1\r\nld 0o1 0b0"))], []⟩ {}
          (.assembleFile "a")).value =
        (Loader.serve ⟨[([['a']], .file (encodeFile "ld 0o1\r\nld 0o1 0b0"))], []⟩ {}
          (.assemble "ld 0o1\r\nld 0o1 0b0")).value := by
  have hpaired : Paired "ld 0o1\r\nld 0o1 0b0".toList := by decide
  have hread (content : List UInt8) :
      FileTree.read ⟨[([['a']], .file content)], []⟩ "a" = .ok content := rfl
  obtain ⟨hstate, hfile⟩ := assemble_plain_line_ends _ hpaired
  have hload := hfile ⟨[([['a']], .file (encodeFile "ld 0o1\r\nld 0o1 0b0"))], []⟩ "a" {} (hread _)
  refine ⟨hpaired, ?_, hload⟩
  rw [hstate]
  rfl

end OneBit
