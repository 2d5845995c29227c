import OneBit.Text.DecimalDigit
import OneBit.Text.Radix
/-!
# Layouts

A layout is a short text that says how a value is set. Its parts are all optional, and come in this
order: an alignment, with the character that fills in front of it; the sign of numbers; `z` and
`#`; a zero that asks for zeros as fill; the width; a separator of digits; a point and the
precision; and a letter for the notation. `*^12` centres in twelve columns between asterisks,
`04d` writes four decimal digits.
-/

namespace OneBit.Text

/-- What a layout is applied to. -/
inductive LayoutValue
  | text (characters : List Char)
  | number (value : Nat)
  deriving DecidableEq, Repr

def LayoutValue.kind : LayoutValue → String
  | .text _ => "str"
  | .number _ => "int"

/-- The notation of a value when the layout names none. -/
def LayoutValue.usualType : LayoutValue → Char
  | .text _ => 's'
  | .number _ => 'd'

/-- Where a value stands in its columns; `inner` fills between the sign and the digits. -/
inductive Alignment
  | left | right | centre | inner
  deriving DecidableEq, Repr

def Alignment.ofChar? : Char → Option Alignment
  | '<' => some .left
  | '>' => some .right
  | '^' => some .centre
  | '=' => some .inner
  | _ => none

/-- What stands in front of a number that is not negative. -/
inductive Sign
  | plus | minus | space
  deriving DecidableEq, Repr

def Sign.ofChar? : Char → Option Sign
  | '+' => some .plus
  | '-' => some .minus
  | ' ' => some .space
  | _ => none

inductive Separator
  | comma | underscore
  deriving DecidableEq, Repr

def Separator.char : Separator → Char
  | comma => ','
  | underscore => '_'

/-- The notations with a radix that is a power of two. -/
def isBinaryType (type : Char) : Bool := ['b', 'o', 'x', 'X'].contains type

def isDecimalType (type : Char) : Bool := ['d', 'e', 'E', 'f', 'F', 'g', 'G', '%'].contains type

/-- The notations whose digits a separator may divide. -/
def Separator.divides (separator : Separator) (type : Char) : Bool :=
  isDecimalType type || separator = .underscore && isBinaryType type

structure Layout where
  fill : Char := ' '
  align? : Option Alignment := none
  sign? : Option Sign := none
  /-- A zero has no minus sign. -/
  plainZero : Bool := false
  /-- The radix is marked, or a point is written in any case. -/
  marked : Bool := false
  /-- Zeros fill a number behind its sign. -/
  zeros : Bool := false
  width : Nat := 0
  separator? : Option Separator := none
  precision? : Option Nat := none
  type : Char
  deriving DecidableEq, Repr

inductive LayoutError
  /-- The text is no layout. -/
  | malformed (layout kind : String)
  /-- A width or a precision that no machine word holds. -/
  | tooManyDigits
  /-- A point without digits after it. -/
  | missingPrecision
  | bothSeparators
  /-- The digits of this notation are not divided so. -/
  | separatorType (separator : Separator) (type : Char)
  /-- The notation does not exist for this kind of value. -/
  | unknownType (type : Char) (kind : String)
  /-- Texts have no sign. -/
  | textSign (sign : Sign)
  /-- Texts are never zero. -/
  | textZero
  /-- Texts have no radix. -/
  | textMark
  /-- Texts have no sign to fill behind. -/
  | innerText
  /-- Whole numbers are never cut. -/
  | numberPrecision
  /-- Whole numbers have no negative zero. -/
  | numberZero
  /-- Characters have no sign. -/
  | characterSign
  /-- Characters have no radix. -/
  | characterMark
  /-- More places than can be counted. -/
  | precisionTooBig
  deriving DecidableEq, Repr

/-- A letter of a layout in messages. What is no visible ASCII character is shown by its code
point. -/
def shownType (type : Char) : String :=
  if 32 < type.toNat ∧ type.toNat < 128 then type.toString
  else "\\x" ++ String.ofList (digits 16 type.toNat)

def LayoutError.message : LayoutError → String
  | .malformed layout kind => s!"Invalid format specifier '{layout}' for object of type '{kind}'"
  | .tooManyDigits => "Too many decimal digits in format string"
  | .missingPrecision => "Format specifier missing precision"
  | .bothSeparators => "Cannot specify both ',' and '_'."
  | .separatorType separator type =>
    "Cannot specify '" ++ separator.char.toString ++ "' with '" ++ shownType type ++ "'."
  | .unknownType type kind =>
    "Unknown format code '" ++ shownType type ++ s!"' for object of type '{kind}'"
  | .textSign .space => "Space not allowed in string format specifier"
  | .textSign _ => "Sign not allowed in string format specifier"
  | .textZero => "Negative zero coercion (z) not allowed in string format specifier"
  | .textMark => "Alternate form (#) not allowed in string format specifier"
  | .innerText => "'=' alignment not allowed in string format specifier"
  | .numberPrecision => "Precision not allowed in integer format specifier"
  | .numberZero => "Negative zero coercion (z) not allowed in integer format specifier"
  | .characterSign => "Sign not allowed with integer format specifier 'c'"
  | .characterMark => "Alternate form (#) not allowed with integer format specifier 'c'"
  | .precisionTooBig => "precision too big"

namespace Layout

/-- The alignment at the front of a layout, with its fill character if one is given. -/
def readAlignment : List Char → Option Char × Option Alignment × List Char
  | fill :: sign :: rest =>
    match Alignment.ofChar? sign, Alignment.ofChar? fill with
    | some align, _ => (some fill, some align, rest)
    | none, some align => (none, some align, sign :: rest)
    | none, none => (none, none, fill :: sign :: rest)
  | [sign] =>
    match Alignment.ofChar? sign with
    | some align => (none, some align, [])
    | none => (none, none, [sign])
  | [] => (none, none, [])

def readSign (text : List Char) : Option Sign × List Char :=
  match text.head?.bind Sign.ofChar? with
  | some sign => (some sign, text.tail)
  | none => (none, text)

/-- Whether a text begins with a character, and what follows it. -/
def readFlag (flag : Char) (text : List Char) : Bool × List Char :=
  if text.head? = some flag then (true, text.tail) else (false, text)

/-- The decimal number at the front of a text, if there is one. -/
def readNumber (text : List Char) : Except LayoutError (Option Nat × List Char) :=
  let run := text.takeWhile isDecimalDigit
  let value := run.foldl (fun value c => value * 10 + decimalValue c) 0
  if run.isEmpty then .ok (none, text)
  else if value < 0x8000000000000000 then .ok (some value, text.dropWhile isDecimalDigit)
  else .error .tooManyDigits

def readSeparator : List Char → Except LayoutError (Option Separator × List Char)
  | ',' :: '_' :: _ | '_' :: ',' :: _ => .error .bothSeparators
  | ',' :: rest => .ok (some .comma, rest)
  | '_' :: rest => .ok (some .underscore, rest)
  | text => .ok (none, text)

/-- The precision at the front of a text: a point and digits. -/
def readPrecision : List Char → Except LayoutError (Option Nat × List Char)
  | '.' :: rest => do
    match ← readNumber rest with
    | (none, _) => throw .missingPrecision
    | (precision?, rest) => return (precision?, rest)
  | text => .ok (none, text)

/-- Takes a layout for a value apart. A zero in front of the width asks for zeros as fill, unless a
fill character is given. -/
def parse (value : LayoutValue) (layout : List Char) : Except LayoutError Layout := do
  let (fill?, align?, rest) := readAlignment layout
  let (sign?, rest) := readSign rest
  let (plainZero, rest) := readFlag 'z' rest
  let (marked, rest) := readFlag '#' rest
  let zeros := fill?.isNone && rest.head? == some '0'
  let (width?, rest) ← readNumber rest
  let (separator?, rest) ← readSeparator rest
  let (precision?, rest) ← readPrecision rest
  let type ← match rest with
    | [] => pure value.usualType
    | [type] => pure type
    | _ => throw (.malformed (String.ofList layout) value.kind)
  if let some separator := separator? then
    if !separator.divides type then throw (.separatorType separator type)
  return {
    fill := fill?.getD (if zeros then '0' else ' ')
    align?, sign?, plainZero, marked, zeros, width := width?.getD 0, separator?, precision?, type }

end Layout

end OneBit.Text
