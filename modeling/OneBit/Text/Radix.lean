/-!
# Numbers in a radix

Numbers are written with the digits `0` to `9` and `a` to `f`, most significant first, and read
back with either case of letter.
-/

namespace OneBit.Text

/-- The digits of a number in the given base, at least one of them. -/
def digits (base number : Nat) : List Char := Nat.toDigits base number

/-- The digits of a number, with zeros in front up to `width` characters. -/
def paddedDigits (base width number : Nat) : List Char :=
  (digits base number).leftpad width '0'

/-- The value of a digit, in either case of letter. -/
def digitValue? (c : Char) : Option Nat :=
  if '0' ≤ c ∧ c ≤ '9' then some (c.toNat - '0'.toNat)
  else if 'a' ≤ c ∧ c ≤ 'f' then some (c.toNat - 'a'.toNat + 10)
  else if 'A' ≤ c ∧ c ≤ 'F' then some (c.toNat - 'A'.toNat + 10)
  else none

def isDigitOf (base : Nat) (c : Char) : Bool := (digitValue? c).any (· < base)

/-- The number that a run of digits spells; a character that is no digit counts as zero. -/
def ofDigits (base : Nat) (run : List Char) : Nat :=
  run.foldl (fun value c => value * base + (digitValue? c).getD 0) 0

/-- The letters of a text as capitals; only the letters `a` to `z` have one. -/
def capitals (text : List Char) : List Char := text.map Char.toUpper

end OneBit.Text
