import OneBit.Proofs.Source.Outcome
/-!
# Programs as text

A program is written with one line for each node, every field in binary or octal.  Reading the text
gives the program back and cuts no value, as long as each comment is on one line and ends with no
blank.  The comments of a program that was read are always so.
-/

namespace OneBit

open Text

/-! ## Writing programs -/

/-- The base in which a field is written. -/
inductive Base
  | binary | octal
  deriving DecidableEq, Repr

/-- A field as a numeral in a base, given its digits in each. -/
def Base.numeral (base : Base) (binary octal : String) : String :=
  match base with
  | .binary => "0b" ++ binary
  | .octal => "0o" ++ octal

namespace Node

/-- The line of a node, its fields in the given bases. -/
def text (base : Operand → Base) : Node → String
  | word w =>
    w.instruction.mnemonic ++ " " ++ (base .address).numeral w.address.binary w.address.octal ++
      " " ++ (base .control).numeral w.control.binary w.control.octal
  | comment body => ";" ++ body

/-- A node that a line can hold: a comment holds no line feed and ends with no blank. -/
def OneLine : Node → Prop
  | word _ => True
  | comment body => '\n' ∉ body.toList ∧ EndsSolid body.toList

instance : DecidablePred OneLine
  | word _ => isTrue trivial
  | comment body => inferInstanceAs (Decidable ('\n' ∉ body.toList ∧ EndsSolid body.toList))

end Node

/-- The text of a program, the fields of each line in bases of their own. -/
def programText (bases : Nat → Operand → Base) (nodes : List Node) : String :=
  "\n".intercalate (nodes.mapIdx fun line node => node.text (bases line))

namespace Grammar

/-! ## Digits -/

theorem digits_toDigits {radix : Nat} (hradix : 1 < radix) (number : Nat) :
    Digits radix (Nat.toDigits radix number) number := by
  induction number using Nat.strong_induction_on with
  | _ number ih =>
      rw [Nat.toDigits_eq_if hradix]
      split_ifs with hlt
      · have h := Digits.snoc Digits.nil hlt (.inl rfl)
        rwa [Nat.zero_mul, Nat.zero_add, List.nil_append] at h
      · have hquotient : number / radix < number := Nat.div_lt_self (by omega) hradix
        have h := Digits.snoc (ih _ hquotient) (Nat.mod_lt number (by omega)) (.inl rfl)
        rwa [Nat.mul_comm, Nat.div_add_mod] at h

theorem Digits.zeros_append {radix value : Nat} {run : List Char} (hradix : 0 < radix)
    (h : Digits radix run value) (count : Nat) :
    Digits radix (List.replicate count '0' ++ run) value := by
  induction h with
  | nil =>
      rw [List.append_nil]
      induction count with
      | zero => exact .nil
      | succ count ih =>
          have h := Digits.snoc ih hradix (.inl rfl)
          rw [Nat.zero_mul, Nat.zero_add] at h
          rw [List.replicate_succ']
          exact h
  | snoc hrun hdigit hc ih =>
      rw [← List.append_assoc]
      exact .snoc ih hdigit hc

theorem digits_paddedDigits {radix : Nat} (hradix : 1 < radix) (width number : Nat) :
    Digits radix (paddedDigits radix width number) number :=
  (digits_toDigits hradix number).zeros_append (by omega) _

theorem length_paddedDigits {radix width number : Nat} (hradix : 1 < radix) (hwidth : 0 < width)
    (hnumber : number < radix ^ width) : (paddedDigits radix width number).length = width := by
  have hle := (Nat.length_toDigits_le_iff hradix hwidth).2 hnumber
  rw [paddedDigits, List.length_leftpad, digits]
  exact Nat.max_eq_left hle

/-- A number of bounded width is a numeral in either base. -/
theorem numeralToken_numeral (base : Base) {bits octals number : Nat} (hbits : 0 < bits)
    (hbits' : bits ≤ 32) (hnumber : number < 2 ^ bits) (hoctals : 0 < octals)
    (hoctals' : octals ≤ 11) (hnumber' : number < 8 ^ octals) :
    NumeralToken (base.numeral (String.ofList (paddedDigits 2 bits number))
      (String.ofList (paddedDigits 8 octals number))).toList number := by
  cases base with
  | binary =>
      have hlength := length_paddedDigits (by decide) hbits hnumber
      have htoken : NumeralToken ('0' :: 'b' :: paddedDigits 2 bits number) number :=
        .binary (List.ne_nil_of_length_pos (by omega)) (by omega)
          (digits_paddedDigits (by decide) bits number)
      simpa [Base.numeral] using htoken
  | octal =>
      have hlength := length_paddedDigits (by decide) hoctals hnumber'
      have htoken : NumeralToken ('0' :: 'o' :: paddedDigits 8 octals number) number :=
        .octal (List.ne_nil_of_length_pos (by omega)) (by omega)
          (digits_paddedDigits (by decide) octals number)
      simpa [Base.numeral] using htoken

theorem numeralToken_address (base : Base) (a : Address) :
    NumeralToken (base.numeral a.binary a.octal).toList a.value := by
  have hvalue : (a.value : Nat) < 64 := a.value.isLt
  exact numeralToken_numeral base (by decide) (by decide) hvalue (by decide) (by decide) hvalue

theorem numeralToken_control (base : Base) (c : Control) :
    NumeralToken (base.numeral c.binary c.octal).toList c.code := by
  have hcode : (c.code : Nat) < 4 := c.code.isLt
  have hcode' : (c.code : Nat) < 8 ^ 1 := by omega
  exact numeralToken_numeral base (by decide) (by decide) hcode (by decide) (by decide) hcode'

theorem spelling_mnemonic (i : Instruction) : Spelling i i.mnemonic.toList := by
  refine .inr (.inl ?_)
  cases i <;> decide

/-! ## Lines of nodes -/

/-- What the line of a node says. -/
def statementOf : Node → Statement
  | .word w => .word w.instruction w.address.value w.control.code
  | .comment body => .comment body.toList

theorem spaces_nil : Spaces [] := List.forall_mem_nil _

theorem argument_of_numeral {token : List Char} {value : Nat} (h : NumeralToken token value) :
    Argument (' ' :: token) value :=
  ⟨[' '], token, rfl, List.cons_ne_nil _ _, List.forall_mem_singleton.2 (by decide), h⟩

theorem line_of_indented {indent mnemonic address control : List Char} {i : Instruction} {a c : Nat}
    (hindent : Spaces indent) (hmnemonic : Spelling i mnemonic) (haddress : Argument address a)
    (hcontrol : Argument control c) :
    Line (indent ++ mnemonic ++ address ++ control) (.word i a c) := by
  have h := Line.word hindent hmnemonic haddress hcontrol spaces_nil (.inl rfl)
  rwa [List.append_nil, List.append_nil] at h

theorem line_of_parts {mnemonic address control : List Char} {i : Instruction} {a c : Nat}
    (hmnemonic : Spelling i mnemonic) (haddress : Argument address a)
    (hcontrol : Argument control c) : Line (mnemonic ++ address ++ control) (.word i a c) :=
  line_of_indented spaces_nil hmnemonic haddress hcontrol

/-- The line of a word in parts: the mnemonic and the arguments. -/
theorem exists_text_word (base : Operand → Base) (w : Word) : ∃ address control,
    ((Node.word w).text base).toList = w.instruction.mnemonic.toList ++ address ++ control ∧
      Argument address w.address.value ∧ Argument control w.control.code := by
  refine ⟨_, _, ?_, argument_of_numeral (numeralToken_address (base .address) w.address),
    argument_of_numeral (numeralToken_control (base .control) w.control)⟩
  simp [Node.text]

theorem toList_text_comment (base : Operand → Base) (body : String) :
    ((Node.comment body).text base).toList = ';' :: body.toList := by
  rw [Node.text, String.toList_append]
  rfl

theorem line_text (base : Operand → Base) (node : Node) :
    Line (node.text base).toList (statementOf node) := by
  cases node with
  | word w =>
      obtain ⟨address, control, htext, haddress, hcontrol⟩ := exists_text_word base w
      rw [htext, statementOf]
      exact line_of_parts (spelling_mnemonic w.instruction) haddress hcontrol
  | comment body =>
      rw [toList_text_comment, statementOf, ← List.nil_append (';' :: _)]
      exact .comment spaces_nil

theorem addressOf_value (a : Address) : addressOf a.value = a := by
  have hvalue : (a.value : Nat) % 64 = a.value := Nat.mod_eq_of_lt a.value.isLt
  simp only [addressOf, hvalue]

theorem controlOf_code (c : Control) : controlOf c.code = c := by
  have hcode : (c.code : Nat) % 4 = c.code := Nat.mod_eq_of_lt c.code.isLt
  simp only [controlOf, hcode, Fin.eta, Control.ofCode_code]

theorem node_statementOf {node : Node} (h : node.OneLine) : (statementOf node).node = node := by
  cases node with
  | word w =>
      rw [statementOf, Statement.node, addressOf_value, controlOf_code]
  | comment body =>
      rw [statementOf, Statement.node, h.2.trimRight_eq, String.ofList_toList]

theorem truncations_statementOf (node : Node) : (statementOf node).truncations = [] := by
  cases node with
  | word w =>
      have haddress := w.address.value.isLt
      have hcontrol := w.control.code.isLt
      rw [statementOf, Statement.truncations, if_neg (by omega), if_neg (by omega), List.append_nil]
  | comment body => rfl

theorem truncationsFrom_statements (start : Nat) (nodes : List Node) :
    truncationsFrom start (nodes.map statementOf) = [] := by
  induction nodes generalizing start with
  | nil => rfl
  | cons node nodes ih =>
      rw [List.map_cons, truncationsFrom, truncations_statementOf, ih]
      rfl

/-! ## Lines without blanks around them -/

/-- A line that is a line of any program it is joined into: not empty, with no blank at its ends
and no line feed. -/
structure Tidy (line : List Char) : Prop where
  ne_nil : line ≠ []
  starts : Stops isBlank line
  ends : EndsSolid line
  single : '\n' ∉ line

theorem stops_joinLines {lines : List (List Char)} (h : ∀ line ∈ lines, Tidy line) :
    Stops isBlank (joinLines lines) := by
  cases lines with
  | nil => exact stops_nil
  | cons first rest =>
      obtain ⟨c, line, rfl⟩ := List.exists_cons_of_ne_nil (h _ List.mem_cons_self).ne_nil
      have hstarts := stops_cons.1 (h _ List.mem_cons_self).starts
      cases rest with
      | nil => exact stops_cons.2 hstarts
      | cons second rest => exact stops_cons.2 hstarts

/-- The lines of joined lines, of which the first starts with no blank: only the last one is
trimmed. -/
theorem programLines_joinLines_concat {before : List (List Char)} {last : List Char}
    (hlines : ∀ line ∈ before ++ [last], '\n' ∉ line)
    (hstarts : Stops isBlank (joinLines (before ++ [last]))) (hlast : trimRight last ≠ []) :
    programLines (joinLines (before ++ [last])) = before ++ [trimRight last] := by
  obtain ⟨trail, htrail, hblank⟩ := exists_append_trimRight last
  have hjoin (line : List Char) : joinLines (before ++ [line]) = endLines before ++ line := by
    rw [joinLines_append_cons, joinLines_singleton]
  have htrim : trim (joinLines (before ++ [last])) = joinLines (before ++ [trimRight last]) := by
    rw [trim, hstarts.trimLeft_eq, hjoin, hjoin, htrail, ← List.append_assoc,
      trimRight_append_of_blank hblank, ← htrail]
    exact ((endsSolid_trimRight last).append hlast _).trimRight_eq
  have hne : joinLines (before ++ [trimRight last]) ≠ [] := by
    rw [hjoin]
    simp [hlast]
  have hsingle : ∀ line ∈ before ++ [trimRight last], '\n' ∉ line := by
    rw [List.forall_mem_append, List.forall_mem_singleton] at hlines ⊢
    refine ⟨hlines.1, fun hmem => hlines.2 ?_⟩
    rw [htrail]
    exact List.mem_append_left _ hmem
  unfold programLines
  rw [htrim, if_neg hne, splitAt_joinLines (by simp) hsingle]

theorem programLines_joinLines {lines : List (List Char)} (h : ∀ line ∈ lines, Tidy line) :
    programLines (joinLines lines) = lines := by
  rcases List.eq_nil_or_concat lines with rfl | ⟨before, last, rfl⟩
  · rfl
  rw [List.concat_eq_append] at h ⊢
  have hlast := h last (by simp)
  have htrim : trimRight last = last := hlast.ends.trimRight_eq
  have hne : trimRight last ≠ [] := by
    rw [htrim]
    exact hlast.ne_nil
  have hlines := programLines_joinLines_concat (fun line hline => (h line hline).single)
    (stops_joinLines h) hne
  rwa [htrim] at hlines

theorem endsSolid_of_numeral {token : List Char} {value : Nat} (h : NumeralToken token value) :
    EndsSolid token :=
  fun c hc => not_isBlank_of_isTokenChar (h.isTokenChar c (List.mem_of_getLast? hc))

theorem Argument.endsSolid_append {text : List Char} {value : Nat} (h : Argument text value)
    (lead : List Char) : EndsSolid (lead ++ text) := by
  obtain ⟨gap, token, rfl, -, -, htoken⟩ := h
  rw [← List.append_assoc]
  exact (endsSolid_of_numeral htoken).append htoken.ne_nil _

theorem endsSolid_semicolon {body : List Char} (h : EndsSolid body) (lead : List Char) :
    EndsSolid (lead ++ ';' :: body) := by
  by_cases hbody : body = []
  · intro c hc
    obtain rfl : ';' = c := by simpa [hbody] using hc
    decide
  · rw [List.append_cons]
    exact h.append hbody _

theorem tidy_of_parts {mnemonic address control : List Char} {i : Instruction} {a c : Nat}
    (hmnemonic : Spelling i mnemonic) (haddress : Argument address a)
    (hcontrol : Argument control c) : Tidy (mnemonic ++ address ++ control) := by
  obtain ⟨first, rest, hcons⟩ := List.exists_cons_of_ne_nil hmnemonic.ne_nil
  have hstarts := not_isBlank_of_isTokenChar (hmnemonic.isTokenChar first (by simp [hcons]))
  refine ⟨by simp [hcons], ?_, ?_, ?_⟩
  · rw [hcons]
    exact stops_cons.2 hstarts
  · exact hcontrol.endsSolid_append _
  · simp only [List.mem_append, not_or]
    exact ⟨⟨Source.notMem_of_spelling hmnemonic, Source.notMem_of_argument haddress⟩,
      Source.notMem_of_argument hcontrol⟩

theorem tidy_text (base : Operand → Base) {node : Node} (h : node.OneLine) :
    Tidy (node.text base).toList := by
  cases node with
  | word w =>
      obtain ⟨address, control, htext, haddress, hcontrol⟩ := exists_text_word base w
      rw [htext]
      exact tidy_of_parts (spelling_mnemonic w.instruction) haddress hcontrol
  | comment body =>
      rw [toList_text_comment]
      refine ⟨List.cons_ne_nil _ _, stops_cons.2 (by decide), endsSolid_semicolon h.2 [], ?_⟩
      simpa using h.1

/-! ## Texts of programs -/

theorem toList_programText (bases : Nat → Operand → Base) (nodes : List Node) :
    (programText bases nodes).toList =
      joinLines (nodes.mapIdx fun line node => (node.text (bases line)).toList) := by
  unfold programText
  rw [String.toList_intercalate, List.mapIdx_eq_zipIdx_map, List.map_map,
    List.mapIdx_eq_zipIdx_map]
  rfl

example :
    programText (fun _ _ => .octal) [.comment " start", .comment "", .word ⟨.ld, ⟨40⟩, .stopTape⟩] =
      "; start\n;\nld 0o50 0o3" := by
  decide

theorem statements_texts (bases : Nat → Operand → Base) (nodes : List Node) :
    List.Forall₂ Line (nodes.mapIdx fun line node => (node.text (bases line)).toList)
      (nodes.map statementOf) := by
  induction nodes generalizing bases with
  | nil => exact .nil
  | cons node nodes ih =>
      rw [List.mapIdx_cons, List.map_cons]
      exact .cons (line_text _ node) (ih fun line => bases (line + 1))

theorem programLines_programText (bases : Nat → Operand → Base) {nodes : List Node}
    (h : ∀ node ∈ nodes, node.OneLine) :
    programLines (programText bases nodes).toList =
      nodes.mapIdx fun line node => (node.text (bases line)).toList := by
  rw [toList_programText, programLines_joinLines]
  intro line hline
  obtain ⟨i, hi, rfl⟩ := List.mem_mapIdx.1 hline
  exact tidy_text _ (h _ (List.getElem_mem hi))

/-- The node of a line is one that a line can hold. -/
theorem Line.oneLine {line : List Char} {s : Statement} (h : Line line s) (hline : '\n' ∉ line) :
    s.node.OneLine := by
  cases h with
  | word hindent hmnemonic haddress hcontrol htrail hending => trivial
  | @comment indent body hindent =>
      -- A line feed in the trimmed text would be one in the line.
      obtain ⟨trail, hbody, -⟩ := exists_append_trimRight body
      rw [Statement.node, Node.OneLine, String.toList_ofList]
      refine ⟨fun hmem => hline ?_, endsSolid_trimRight body⟩
      have hmem' : '\n' ∈ body := by
        rw [hbody]
        exact List.mem_append_left _ hmem
      simp [hmem']

end Grammar

namespace Source

open Grammar

variable {nodes : List Node}

theorem readProgram_programText (bases : Nat → Operand → Base)
    (h : ∀ node ∈ nodes, node.OneLine) :
    readProgram (programText bases nodes) = ⟨.ok nodes, []⟩ := by
  have hlines : List.Forall₂ Line (programLines (programText bases nodes).toList)
      (nodes.map statementOf) := by
    rw [programLines_programText bases h]
    exact statements_texts bases nodes
  have hnodes : (nodes.map statementOf).map Statement.node = nodes := by
    calc (nodes.map statementOf).map Statement.node
      _ = nodes.map (Statement.node ∘ statementOf) := List.map_map
      _ = nodes.map id := List.map_congr_left fun node hnode => node_statementOf (h node hnode)
      _ = nodes := List.map_id nodes
  rw [readProgram_of_statements hlines, hnodes, truncationsFrom_statements]

theorem oneLine_of_statements {lines : List (List Char)} {statements : List Statement}
    (h : List.Forall₂ Line lines statements) (hlines : ∀ line ∈ lines, '\n' ∉ line) :
    ∀ node ∈ statements.map Statement.node, node.OneLine := by
  induction h with
  | nil => exact List.forall_mem_nil _
  | cons hline _ ih =>
      rw [List.map_cons, List.forall_mem_cons]
      rw [List.forall_mem_cons] at hlines
      exact ⟨hline.oneLine hlines.1, ih hlines.2⟩

/-- Reading inverts writing, and every program that was read can be written. -/
theorem program_round_trip :
    (∀ (bases : Nat → Operand → Base) (nodes : List Node), (∀ node ∈ nodes, node.OneLine) →
      readProgram (programText bases nodes) = ⟨.ok nodes, []⟩) ∧
    ∀ (text : String) (nodes : List Node), parse text = .ok nodes →
      (∀ node ∈ nodes, node.OneLine) ∧
        ∀ bases, parse (programText bases nodes) = .ok nodes := by
  refine ⟨fun bases nodes h => readProgram_programText bases h, fun text nodes h => ?_⟩
  obtain ⟨statements, hlines, rfl⟩ := statements_of_parse h
  have honeLine := oneLine_of_statements hlines fun line => notMem_of_mem_programLines
  refine ⟨honeLine, fun bases => ?_⟩
  rw [parse, readProgram_programText bases honeLine]

theorem program_round_trip_octal :
    readProgram (programText (fun _ _ => .octal)
      [.comment " start", .comment "", .word ⟨.ld, ⟨40⟩, .stopTape⟩]) =
      ⟨.ok [.comment " start", .comment "", .word ⟨.ld, ⟨40⟩, .stopTape⟩], []⟩ :=
  program_round_trip.1 _ _ (by decide)

end Source

end OneBit
