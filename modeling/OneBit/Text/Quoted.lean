import OneBit.Text.Printable
import OneBit.Text.Radix
/-!
# Quoted texts

In messages, a text stands between single quotes, or between double quotes if it holds single ones
and no double one. Backslashes, the quote itself and characters without a glyph are escaped.
-/

namespace OneBit.Text

def quoteMark (text : List Char) : Char :=
  if text.contains '\'' && !text.contains '"' then '"' else '\''

/-- An escape by code point: two, four or eight digits, as few as hold it. -/
def escapeCode (c : Char) : List Char :=
  if c.toNat < 0x100 then '\\' :: 'x' :: paddedDigits 16 2 c.toNat
  else if c.toNat < 0x10000 then '\\' :: 'u' :: paddedDigits 16 4 c.toNat
  else '\\' :: 'U' :: paddedDigits 16 8 c.toNat

def quotedChar (mark c : Char) : List Char :=
  if c = mark ∨ c = '\\' then ['\\', c]
  else if c = '\t' then ['\\', 't']
  else if c = '\n' then ['\\', 'n']
  else if c = '\r' then ['\\', 'r']
  else if isPrintable c then [c]
  else escapeCode c

def quoted (text : String) : String :=
  let mark := quoteMark text.toList
  String.ofList (mark :: text.toList.flatMap (quotedChar mark) ++ [mark])

end OneBit.Text
