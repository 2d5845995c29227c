import OneBit.Text.Offset
/-!
# Lines and columns

An offset into a text counts characters from zero. Its position is the line, counted from one,
and the column within the line, counted from one. Only a line feed ends a line.
-/

namespace OneBit.Text

structure Position where
  line : Nat
  column : Int
  deriving DecidableEq, Repr

def lineAt (text : List Char) (offset : Int) : Nat := (before text offset).count '\n' + 1

/-- How many characters lie before the last line of a text. -/
def lastLineStart (text : List Char) : Nat := (text.reverse.dropWhile (· ≠ '\n')).length

/-- The position of an offset in a text. The column is counted from the offset as given. -/
def Position.ofOffset (text : List Char) (offset : Int) : Position :=
  ⟨lineAt text offset, offset - lastLineStart (before text offset) + 1⟩

/-- The position of an offset when the text is not known: all of it is taken for one line. -/
def Position.onFirstLine (offset : Int) : Position := ⟨1, offset + 1⟩

end OneBit.Text
