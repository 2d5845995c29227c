import OneBit.Diagnostic
import OneBit.Numeral
import OneBit.Proofs.Text.Lines
import OneBit.Proofs.Text.Runs
import OneBit.Text.Alphanumeric
import OneBit.Word
/-!
# The grammar of assembly text

What a line of assembly text may be, and what is wrong with a line that is none, said without a
cursor.  A line is a comment or a word; `Line` gives it with what it says.  `Fault` gives the first
part of a line that is missing, read from left to right, with its offset in the line.  That every
line has one of the two, and that the scanner finds it, is proved elsewhere.
-/

namespace OneBit.Grammar

open Text

/-! ## Tokens -/

/-- A run of spaces and tabs, which may be empty. -/
def Spaces (run : List Char) : Prop := ∀ c ∈ run, isSpace c = true

/-- A run of digits of a radix and the number that it spells, the most significant digit first.
Letters count in either case. -/
inductive Digits (radix : Nat) : List Char → Nat → Prop
  | nil : Digits radix [] 0
  | snoc {run : List Char} {value digit : Nat} {c : Char} (hrun : Digits radix run value)
      (hdigit : digit < radix) (hc : c = digit.digitChar ∨ c = digit.digitChar.toUpper) :
      Digits radix (run ++ [c]) (value * radix + digit)

/-- A numeral and its value: a mark and a bounded number of digits. -/
inductive NumeralToken : List Char → Nat → Prop
  | binary {run : List Char} {value : Nat} (hne : run ≠ []) (hmax : run.length ≤ 32)
      (hrun : Digits 2 run value) : NumeralToken ('0' :: 'b' :: run) value
  | octal {run : List Char} {value : Nat} (hne : run ≠ []) (hmax : run.length ≤ 11)
      (hrun : Digits 8 run value) : NumeralToken ('0' :: 'o' :: run) value
  | hexadecimal {run : List Char} {value : Nat} (hne : run ≠ []) (hmax : run.length ≤ 8)
      (hrun : Digits 16 run value) : NumeralToken ('0' :: 'h' :: run) value

/-- A token is one of the three spellings of an instruction: as tabled, all in lower case, or all
in upper case. -/
def Spelling (i : Instruction) (token : List Char) : Prop :=
  token = i.mixedCase.toList ∨ token = i.mixedCase.toList.map Char.toLower ∨
    token = i.mixedCase.toList.map Char.toUpper

instance (i : Instruction) (token : List Char) : Decidable (Spelling i token) :=
  inferInstanceAs (Decidable (_ ∨ _ ∨ _))

/-- An argument of a word and its value: spaces, at least one, then a numeral. -/
def Argument (text : List Char) (value : Nat) : Prop :=
  ∃ gap token, text = gap ++ token ∧ gap ≠ [] ∧ Spaces gap ∧ NumeralToken token value

/-! ## Lines -/

/-- What a line says: a comment, or a word with the values as they are written. -/
inductive Statement
  | comment (body : List Char)
  | word (instruction : Instruction) (address control : Nat)

/-- The address that a value gives: the value without the bits that do not fit. -/
def addressOf (value : Nat) : Address := ⟨⟨value % 64, Nat.mod_lt value (by decide)⟩⟩

/-- The control that a value gives. -/
def controlOf (value : Nat) : Control := .ofCode ⟨value % 4, Nat.mod_lt value (by decide)⟩

namespace Statement

/-- The node of a statement. A comment loses the blanks at its end, and values are cut to the
width of their fields. -/
def node : Statement → Node
  | comment body => .comment (String.ofList (trimRight body))
  | word i address control => .word ⟨i, addressOf address, controlOf control⟩

/-- The values of a statement that do not fit their fields, the address before the control. -/
def truncations : Statement → List Truncation
  | comment _ => []
  | word _ address control =>
    (if 63 < address then [⟨.address, address⟩] else []) ++
      (if 3 < control then [⟨.control, control⟩] else [])

end Statement

/-- A line and what it says. -/
inductive Line : List Char → Statement → Prop
  | comment {indent body : List Char} (hindent : Spaces indent) :
      Line (indent ++ ';' :: body) (.comment body)
  | word {indent mnemonic address control trail ending : List Char} {i : Instruction} {a c : Nat}
      (hindent : Spaces indent) (hmnemonic : Spelling i mnemonic) (haddress : Argument address a)
      (hcontrol : Argument control c) (htrail : Spaces trail)
      (hending : ending = [] ∨ ending = ['\r']) :
      Line (indent ++ mnemonic ++ address ++ control ++ trail ++ ending) (.word i a c)

/-- The lines of a program: those of the text without the blanks around it. A blank text has
none. -/
def programLines (text : List Char) : List (List Char) :=
  if trim text = [] then [] else splitAt '\n' (trim text)

/-- The truncations of statements on consecutive lines, each with the number of its line. -/
def truncationsFrom : Nat → List Statement → List (Nat × Truncation)
  | _, [] => []
  | line, s :: rest => s.truncations.map (line, ·) ++ truncationsFrom (line + 1) rest

/-! ## Faults -/

/-- What is wrong where an argument should follow, with its offset: the program ends there, no
space follows, or no numeral follows the spaces. -/
inductive ArgumentFault (last : Prop) (expected : Expected) : List Char → Nat → Expected → Prop
  | ended (hlast : last) : ArgumentFault last expected [] 0 .moreInput
  | unspaced {rest : List Char} (hlast : rest = [] → ¬ last) (hrest : Stops isSpace rest) :
      ArgumentFault last expected rest 0 expected
  | unnumbered {gap token rest : List Char} (hgap : gap ≠ []) (hspaces : Spaces gap)
      (htoken : Longest isTokenChar token rest) (hstops : Stops isSpace (token ++ rest))
      (hnumeral : ∀ value, ¬ NumeralToken token value) :
      ArgumentFault last expected (gap ++ token ++ rest) gap.length expected

/-- What is wrong with a line, with its offset: the first part that is missing. The end of the last
line is the end of the program. -/
inductive Fault (last : Prop) : List Char → Nat → Expected → Prop
  | instruction {indent token rest : List Char} (hindent : Spaces indent)
      (htoken : Longest isNameChar token rest) (hstops : Stops isSpace (token ++ rest))
      (hcomment : (token ++ rest).head? ≠ some ';') (hspelling : ∀ i, ¬ Spelling i token) :
      Fault last (indent ++ token ++ rest) indent.length .instruction
  | address {indent mnemonic rest : List Char} {i : Instruction} {offset : Nat}
      {expected : Expected} (hindent : Spaces indent) (hmnemonic : Spelling i mnemonic)
      (hname : Stops isNameChar rest) (hrest : ArgumentFault last .address rest offset expected) :
      Fault last (indent ++ mnemonic ++ rest) ((indent ++ mnemonic).length + offset) expected
  | control {indent mnemonic address rest : List Char} {i : Instruction} {a offset : Nat}
      {expected : Expected} (hindent : Spaces indent) (hmnemonic : Spelling i mnemonic)
      (haddress : Argument address a) (htoken : Stops isTokenChar rest)
      (hrest : ArgumentFault last .control rest offset expected) :
      Fault last (indent ++ mnemonic ++ address ++ rest)
        ((indent ++ mnemonic ++ address).length + offset) expected
  | endOfLine {indent mnemonic address control trail rest : List Char} {i : Instruction}
      {a c : Nat} (hindent : Spaces indent) (hmnemonic : Spelling i mnemonic)
      (haddress : Argument address a) (hcontrol : Argument control c) (htrail : Spaces trail)
      (htoken : Stops isTokenChar (trail ++ rest)) (hstops : Stops isSpace rest)
      (hne : rest ≠ []) (hreturn : rest ≠ ['\r']) :
      Fault last (indent ++ mnemonic ++ address ++ control ++ trail ++ rest)
        (indent ++ mnemonic ++ address ++ control ++ trail).length .endOfLine

/-- The instructions that an error names: all of them where an instruction was expected. -/
def candidates : Expected → List Instruction
  | .instruction => Instruction.all
  | _ => []

end OneBit.Grammar
