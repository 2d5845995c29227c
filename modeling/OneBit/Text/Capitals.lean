import OneBit.Text.Radix
/-!
# Capitals of all scripts

Some letters and ligatures beyond ASCII have capitals within it: the long s, the dotless i, the
sharp s and the Latin ligatures. No other character beyond ASCII has.
-/

namespace OneBit.Text

/-- The capitals of a character, if they are ASCII; any other character stands for itself. -/
def fullCapital (c : Char) : List Char :=
  match c with
  | 'ı' => ['I']
  | 'ſ' => ['S']
  | 'ß' => ['S', 'S']
  | 'ﬀ' => ['F', 'F']
  | 'ﬁ' => ['F', 'I']
  | 'ﬂ' => ['F', 'L']
  | 'ﬃ' => ['F', 'F', 'I']
  | 'ﬄ' => ['F', 'F', 'L']
  | 'ﬅ' => ['S', 'T']
  | 'ﬆ' => ['S', 'T']
  | c => [c.toUpper]

def fullCapitals (text : List Char) : List Char := text.flatMap fullCapital

end OneBit.Text
