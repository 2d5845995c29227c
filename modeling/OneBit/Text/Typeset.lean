import OneBit.Text.Figures
/-!
# Setting values in a layout

A text stands on the left of its columns and a number on the right, unless the layout says
otherwise.
-/

namespace OneBit.Text

namespace Layout

/-- Fills a text up to the width. What is filled stands between `front` and `back` if the layout
aligns so. A centred text has the smaller half of the fill in front. -/
def pad (layout : Layout) (align : Alignment) (front back : List Char) : List Char :=
  let gap := layout.width - (front.length + back.length)
  let filled (count : Nat) : List Char := List.replicate count layout.fill
  match align with
  | .left => front ++ back ++ filled gap
  | .right => filled gap ++ front ++ back
  | .centre => filled (gap / 2) ++ front ++ back ++ filled (gap - gap / 2)
  | .inner => front ++ filled gap ++ back

def setText (layout : Layout) (text : List Char) : Except LayoutError (List Char) := do
  if layout.type ≠ 's' then throw (.unknownType layout.type (LayoutValue.text text).kind)
  if let some sign := layout.sign? then throw (.textSign sign)
  if layout.plainZero then throw .textZero
  if layout.marked then throw .textMark
  let align := layout.align?.getD .left
  if align = .inner then throw .innerText
  let shown := match layout.precision? with
    | some precision => text.take precision
    | none => text
  return layout.pad align [] shown

/-- How many digits a separator divides from the next group. -/
def groupSize (layout : Layout) : Nat := if isBinaryType layout.type then 4 else 3

/-- Puts a separator in front of each group of digits but the first, counted from the end. -/
def separated (separator : Char) (size : Nat) (run : List Char) : List Char :=
  run.zipIdx.flatMap fun (c, place) =>
    if 0 < place ∧ (run.length - place) % size = 0 then [separator, c] else [c]

/-- Digits with separators, and with zeros in front until they take up the least width. No
separator stands in front of all digits, so they can take up one place more. -/
def grouped (layout : Layout) (run : List Char) (least : Nat) : List Char :=
  match layout.separator? with
  | none => run.leftpad least '0'
  | some separator =>
    let size := layout.groupSize
    separated separator.char size (run.leftpad (least - (least - 1) / (size + 1)) '0')

def signText (layout : Layout) : List Char :=
  match layout.sign? with
  | some .plus => ['+']
  | some .space => [' ']
  | _ => []

/-- Sets a number. Zeros that fill behind the sign are digits of it. -/
def setNumber (layout : Layout) (value : Nat) : Except LayoutError (List Char) := do
  let figures ← layout.figures value
  let align := layout.align?.getD (if layout.zeros then .inner else .right)
  let front := layout.signText ++ figures.mark
  let least :=
    if layout.fill = '0' ∧ align = .inner then layout.width - (front.length + figures.tail.length)
    else 0
  let whole := if figures.whole.isEmpty then [] else layout.grouped figures.whole least
  return layout.pad align front (whole ++ figures.tail)

def apply (layout : String) (value : LayoutValue) : Except LayoutError String := do
  let parts ← parse value layout.toList
  match value with
  | .text text => return String.ofList (← parts.setText text)
  | .number number => return String.ofList (← parts.setNumber number)

end Layout

end OneBit.Text
