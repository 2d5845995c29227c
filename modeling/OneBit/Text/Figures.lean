import OneBit.Text.Layout
/-!
# Numbers in figures

The notations in which a layout can have a number written: in a radix, as a character, with a fixed
number of places, with an exponent, or with as many digits as count. The number is whole, and
rounding is to the nearest, to the even digit in the middle.
-/

namespace OneBit.Text

structure Figures where
  /-- The mark of the radix. -/
  mark : List Char := []
  /-- The digits that can be divided into groups. -/
  whole : List Char
  /-- Places after the point, an exponent, or a character. -/
  tail : List Char := []
  deriving DecidableEq, Repr

namespace Figures

/-- A number in a radix, marked with a letter if the layout asks for it. -/
def inRadix (marked : Bool) (letter : Char) (base value : Nat) : Figures :=
  { mark := if marked then ['0', letter] else [], whole := digits base value }

def capital (figures : Figures) : Figures :=
  ⟨capitals figures.mark, capitals figures.whole, capitals figures.tail⟩

/-- The places of a number behind a point. Without places there is no point, unless the layout asks
for one. -/
def places (marked : Bool) (run : List Char) : List Char :=
  if run.isEmpty && !marked then [] else '.' :: run

/-- A whole number with so many places, all of them zero. -/
def fixed (marked : Bool) (count value : Nat) : Figures :=
  { whole := digits 10 value, tail := places marked (List.replicate count '0') }

/-- The first digits of a run, as many as given, rounded by those that are left out, and the
exponent of ten of the first. -/
def leading (count : Nat) (run : List Char) : List Char × Nat :=
  let kept := ofDigits 10 (run.take count)
  let isUp := match run.drop count with
    | [] => false
    | c :: rest => c > '5' || c == '5' && (rest.any (· ≠ '0') || kept % 2 == 1)
  let rounded := if isUp then digits 10 (kept + 1) else run.take count
  let carry := rounded.length - (run.take count).length
  ((rounded ++ List.replicate count '0').take count, run.length - 1 + carry)

/-- An exponent of ten, in two digits at least. -/
def exponentText (exponent : Nat) : List Char := 'e' :: '+' :: paddedDigits 10 2 exponent

/-- A number with one digit before the point, so many after it, and an exponent. -/
def scientific (marked : Bool) (count value : Nat) : Figures :=
  let (run, exponent) := leading (count + 1) (digits 10 value)
  { whole := run.take 1, tail := places marked (run.drop 1) ++ exponentText exponent }

/-- A number with so many digits that count, with an exponent if it has more before the point.
Zeros at the end of its places are left out, unless the layout asks for them. -/
def general (marked : Bool) (count value : Nat) : Figures :=
  let count := max count 1
  let (run, exponent) := leading count (digits 10 value)
  let shown (rest : List Char) : List Char :=
    places marked (if marked then rest else (rest.reverse.dropWhile (· == '0')).reverse)
  if exponent < count then
    { whole := run.take (exponent + 1), tail := shown (run.drop (exponent + 1)) }
  else { whole := run.take 1, tail := shown (run.drop 1) ++ exponentText exponent }

end Figures

namespace Layout

/-- The number of places or digits when the layout names none. -/
def usualPrecision : Nat := 6

def pointFigures (layout : Layout) (write : Bool → Nat → Nat → Figures) (value : Nat) :
    Except LayoutError Figures :=
  let precision := layout.precision?.getD usualPrecision
  if 0x80000000 ≤ precision then .error .precisionTooBig
  else .ok (write layout.marked precision value)

def wholeFigures (layout : Layout) (figures : Figures) : Except LayoutError Figures :=
  if layout.precision?.isSome then .error .numberPrecision
  else if layout.plainZero then .error .numberZero
  else .ok figures

def characterFigures (layout : Layout) (value : Nat) : Except LayoutError Figures := do
  let figures ← layout.wholeFigures { whole := [], tail := [Char.ofNat value] }
  if layout.sign?.isSome then throw .characterSign
  if layout.marked then throw .characterMark
  return figures

def figures (layout : Layout) (value : Nat) : Except LayoutError Figures :=
  let radix (letter : Char) (base : Nat) := Figures.inRadix layout.marked letter base value
  match layout.type with
  | 'd' | 'n' => layout.wholeFigures { whole := digits 10 value }
  | 'b' => layout.wholeFigures (radix 'b' 2)
  | 'o' => layout.wholeFigures (radix 'o' 8)
  | 'x' => layout.wholeFigures (radix 'x' 16)
  | 'X' => layout.wholeFigures (radix 'x' 16).capital
  | 'c' => layout.characterFigures value
  | 'f' | 'F' => layout.pointFigures Figures.fixed value
  | 'e' => layout.pointFigures Figures.scientific value
  | 'E' => return (← layout.pointFigures Figures.scientific value).capital
  | 'g' => layout.pointFigures Figures.general value
  | 'G' => return (← layout.pointFigures Figures.general value).capital
  | '%' => do
    let figures ← layout.pointFigures Figures.fixed (value * 100)
    return { figures with tail := figures.tail ++ ['%'] }
  | type => .error (.unknownType type (LayoutValue.number value).kind)

end Layout

end OneBit.Text
