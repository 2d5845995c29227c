import OneBit.SyntaxError
import OneBit.Text.Radix
/-!
# Numerals

Addresses and controls are written as numerals with a mark in front: `0b101000` in binary, `0o50`
in octal, `0h28` in hexadecimal. A numeral is a whole token: no letter, digit or underscore may
follow it.
-/

namespace OneBit

open Text

structure NumeralForm where
  name : String
  /-- The characters in front of the digits. -/
  mark : String
  radix : Nat
  maxDigits : Nat
  deriving DecidableEq, Repr

namespace NumeralForm

def binary : NumeralForm := ⟨"binary", "0b", 2, 32⟩

def octal : NumeralForm := ⟨"octal", "0o", 8, 11⟩

def hexadecimal : NumeralForm := ⟨"hexadecimal", "0h", 16, 8⟩

def all : List NumeralForm := [binary, octal, hexadecimal]

end NumeralForm

/-- A character that would continue a numeral: an ASCII letter or digit, or an underscore. -/
def isTokenChar (c : Char) : Bool := c.isAlphanum || c == '_'

namespace NumeralForm

/-- Reads a numeral of the form from the front of a text: its value and its length. -/
def read (form : NumeralForm) (text : List Char) : Option (Nat × Nat) :=
  if form.mark.toList.isPrefixOf text then
    let body := text.drop form.mark.length
    let run := body.takeWhile (isDigitOf form.radix)
    let rest := body.dropWhile (isDigitOf form.radix)
    if 1 ≤ run.length ∧ run.length ≤ form.maxDigits ∧ !rest.head?.any isTokenChar then
      some (ofDigits form.radix run, form.mark.length + run.length)
    else none
  else none

end NumeralForm

namespace Numeral

def readFirst (forms : List NumeralForm) (text : List Char) : Option (Nat × Nat) :=
  forms.findSome? fun form => form.read text

def read (text : List Char) : Option (Nat × Nat) := readFirst NumeralForm.all text

/-- Reads a numeral inside a text with the given reader: its value and the distance from `start`
to its end. -/
def readWithin (reader : List Char → Option (Nat × Nat)) (text : List Char)
    (start stop : Int) (expected : Expected) : Except SyntaxError (Nat × Int) :=
  if isUnreachable text start || isUnreachable text stop then
    .error (.inText text start .offset [])
  else
    match reader (window text start stop) with
    | some (value, length) => .ok (value, start.toNat + length - start)
    | none => .error (.inText text start expected [])

def readFormAt (form : NumeralForm) (text : List Char) (start stop : Int)
    (expected : Expected) : Except SyntaxError (Nat × Int) :=
  readWithin form.read text start stop expected

def readAt (text : List Char) (start stop : Int) (expected : Expected) :
    Except SyntaxError (Nat × Int) :=
  if stop ≤ start then .error (.inText text start .moreInput [])
  else readWithin read text start stop expected

end Numeral

end OneBit
