import OneBit.Instruction
import OneBit.Text.Position
/-!
# Errors in assembly text

An error names the part of the grammar that was expected, and where. Offsets count characters of
the whole text.
-/

namespace OneBit

open Text

inductive Expected
  | construct
  | instruction
  | address
  | control
  /-- After a word, only spaces may stand on the line. -/
  | endOfLine
  | comment
  /-- The text ended inside a word. -/
  | moreInput
  /-- The part of the text to be read reaches beyond the text itself. -/
  | character
  /-- An offset that no text has. -/
  | offset
  deriving DecidableEq, Repr

def Expected.describe : Expected → String
  | construct => "expected construct"
  | instruction => "expected instruction"
  | address => "expected address"
  | control => "expected control"
  | endOfLine => "expected end of line after word"
  | comment => "expected comment"
  | moreInput => "unexpected end of input"
  | character => "string index out of range"
  | offset => "offset out of range"

structure SyntaxError where
  expected : Expected
  offset : Int
  position : Position
  /-- The instructions that would have been accepted. -/
  candidates : List Instruction
  deriving DecidableEq, Repr

namespace SyntaxError

def inText (text : List Char) (offset : Int) (expected : Expected)
    (candidates : List Instruction) : SyntaxError :=
  ⟨expected, offset, Position.ofOffset text offset, candidates⟩

/-- The error at an offset of a text that is not known. -/
def withoutText (offset : Int) (expected : Expected) (candidates : List Instruction) :
    SyntaxError :=
  ⟨expected, offset, Position.onFirstLine offset, candidates⟩

def describe (e : SyntaxError) : String := e.expected.describe

/-- The full message: what was expected, and at which line and column. A place outside of the text
has no line. -/
def message (e : SyntaxError) : String :=
  let line := e.position.line
  let column := e.position.column
  match e.expected with
  | .character =>
    if fitsWord e.offset then e.describe else "cannot fit 'int' into an index-sized integer"
  | .offset => e.describe
  | _ => e.describe ++ s!" at line {line}, column {column}"

end SyntaxError

end OneBit
