import OneBit.Mnemonic
import OneBit.Numeral
import OneBit.Source.Cursor
import OneBit.Text.Blank
import OneBit.Word
/-!
# Reading assembly text

The grammar is line by line. A line is a comment, from a semicolon to the end of the line, or a
word: mnemonic, address and control with spaces between. A line ends with a line feed, which a
carriage return may precede, or with the text.

A scan is a step of reading: it moves the cursor and gives a value or an error. After an error the
cursor stays where the error was found.
-/

namespace OneBit.Source

open Text

abbrev Scan := EStateM SyntaxError Cursor

namespace Scan

def fail {α : Type} (expected : Expected) : Scan α := do
  throw ((← get).error expected)

@[simp] theorem run_fail {α : Type} (expected : Expected) (c : Cursor) :
    (fail expected : Scan α).run c = .error (c.error expected) c := rfl

def advance (count : Nat) : Scan Unit := modify (·.advance count)

/-- Takes the result of a look at the text, or fails as it does. -/
def ofLook {α : Type} (result : Except SyntaxError α) : Scan α :=
  match result with
  | .ok value => return value
  | .error e => throw e

@[simp] theorem run_ofLook_ok {α : Type} (value : α) (c : Cursor) :
    (ofLook (.ok value)).run c = .ok value c := rfl

@[simp] theorem run_ofLook_error {α : Type} (e : SyntaxError) (c : Cursor) :
    (ofLook (.error e) : Scan α).run c = .error e c := rfl

def peek : Scan (Option Char) := do
  ofLook (← get).next

theorem run_peek {c : Cursor} (h : c.Inside) : peek.run c = .ok c.ahead.head? c := by
  simp [peek, Cursor.next, h.look_eq, List.head?_eq_getElem?]

/-- Skips spaces and tabs, and looks at what follows them. -/
def skipSpace : Scan Unit := do
  advance ((← get).reach.takeWhile isSpace).length
  let _ ← peek

/-- Skips spaces and tabs, of which there must be one at least. -/
def separator (expected : Expected) : Scan Unit := do
  if (← get).atEnd then fail .moreInput
  if (← peek).any isSpace then skipSpace else fail expected

/-- Skips spaces and tabs and the end of the line. The end of what is to be read ends a line
too. -/
def newline (expected : Expected) : Scan Unit := do
  skipSpace
  let c ← get
  if c.atEnd then return
  match c.pair with
  | '\r' :: '\n' :: _ => advance 2
  | '\n' :: _ => advance 1
  | _ => fail expected

/-- Skips the end of a line, after which nothing may be left to read. -/
def finish (expected : Expected) : Scan Unit := do
  newline expected
  if !(← get).atEnd then fail expected

/-- Reads a numeral. A cursor before the start of the text finds it at the start. -/
def numeral (expected : Expected) : Scan Nat := do
  let c ← get
  if c.atEnd then fail .moreInput
  if isUnreachable c.text c.pos || isUnreachable c.text c.stop then fail .offset
  match Numeral.read c.inText with
  | some (value, length) =>
    modify (·.moveTo (c.pos.toNat + length))
    return value
  | none => fail expected

/-- Reads a numeral for an operand. A value that does not fit is noted with the line it stands
on. -/
def operand (operand : Operand) (expected : Expected) : Scan Nat := do
  let c ← get
  let value ← numeral expected
  if let some truncation := Truncation.check operand value then
    modify (·.warn (lineAt c.text c.pos) truncation)
  return value

/-- Reads a mnemonic of a table, the first that fits, where names are made of the given
characters. -/
def mnemonic (inName : Char → Bool) (table : List (List Char × Instruction)) :
    Scan Instruction := do
  let c ← get
  if c.atEnd then fail .moreInput
  match ← ofLook (Mnemonic.readFrom inName c.ahead c.look table) with
  | some (i, length) =>
    advance length
    return i
  | none => throw { c.error .instruction with candidates := Instruction.all }

def instruction : Scan Instruction := mnemonic isNameChar Mnemonic.table

def address : Scan Address := do
  return Address.ofInt (← operand .address .address)

def control : Scan Control := do
  return Control.ofBits (← operand .control .control)

/-- Reads a comment up to the end of its line. -/
def comment : Scan String := do
  if (← peek) = some ';' then
    let c ← get
    let body := (c.advance 1).ahead
    let text := body.takeWhile (· ≠ '\n')
    let isLast := (body.dropWhile (· ≠ '\n')).isEmpty
    set (c.moveTo (if isLast then c.stop else index c.text (c.pos + 1) + text.length))
    return String.ofList (trimRight text)
  else fail .comment

def word : Scan Word := do
  let instruction ← instruction
  separator .address
  let address ← address
  separator .control
  let control ← control
  return { instruction, address, control }

def line : Scan Node := do
  skipSpace
  if (← peek) = some ';' then
    let text ← comment
    newline .comment
    return .comment text
  else
    let w ← word
    newline .endOfLine
    return .word w

/-- Reads lines until nothing is left, at most as many as given. -/
def lines : Nat → Scan (List Node)
  | 0 => return []
  | limit + 1 => do
    if (← get).atEnd then return []
    let node ← line
    return node :: (← lines limit)

/-- Reads a whole program. Blanks around it do not count. Each line takes one character at least,
so there are no more lines than characters. -/
def program : Scan (List Node) := do
  let text := (← get).text
  let pos := text.length - (trimLeft text).length
  let stop := max (trimRight text).length pos
  modify fun c => (c.moveTo pos).stopAt stop
  lines (stop - pos)

end Scan

end OneBit.Source
