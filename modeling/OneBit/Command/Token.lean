import OneBit.Command.Option
import OneBit.Text.DecimalDigit
/-!
# Telling options from arguments

An argument that begins with a dash is an option, unless it is the dash alone, a negative number or
has a space in it. A long option may be shortened as long as only one fits, and a value may be
joined to its option: `--format=hex`, `-fhex`. After `--` no argument is an option.
-/

namespace OneBit.Command

open Text

structure Found where
  spec : OptionSpec
  /-- Written with one dash. -/
  isShort : Bool
  /-- The text that is joined to it. -/
  joined? : Option Raw
  deriving DecidableEq, Repr

/-- The two dashes after which no argument is an option. -/
def twoDashes : Raw := [.char '-', .char '-']

/-- An argument, by the part it plays. -/
inductive Token
  | argument (text : Raw)
  | dashes
  /-- An option, known or not. -/
  | option (text : Raw) (found? : Option Found)
  deriving DecidableEq, Repr

namespace Token

def text : Token → Raw
  | argument text => text
  | dashes => twoDashes
  | option text _ => text

def isOption : Token → Bool
  | option .. => true
  | _ => false

def isDashes : Token → Bool
  | dashes => true
  | _ => false

end Token

/-- The part of a text before its first equals sign, and the part after it if there is one. -/
def splitEquals (text : Raw) : Raw × Option Raw :=
  match text.dropWhile (· ≠ .char '=') with
  | _ :: value => (text.takeWhile (· ≠ .char '='), some value)
  | [] => (text, none)

def exactOption? (options : List OptionSpec) (text : Raw) : Option OptionSpec :=
  options.find? fun spec => spec.names.any fun name => Raw.ofString name == text

/-- The options that an argument may stand for: long ones that begin with it, or a short one with
its value joined. -/
def candidates (options : List OptionSpec) (text : Raw) : List Found :=
  match text with
  | .char '-' :: .char '-' :: _ =>
    let (name, value?) := splitEquals text
    options.filter (fun spec => name.isPrefixOf (Raw.ofString ("--" ++ spec.long)))
      |>.map fun spec => ⟨spec, false, value?⟩
  | .char '-' :: mark :: value =>
    options.filter (fun spec => spec.isShort mark)
      |>.map fun spec => ⟨spec, true, some value⟩
  | _ => []

/-- A negative decimal number, with or without a point. A line feed may end it. -/
def isNegativeNumber (text : List Char) : Bool :=
  match text with
  | '-' :: rest =>
    let digits := if rest.getLast? = some '\n' then rest.dropLast else rest
    match digits.dropWhile Text.isDecimalDigit with
    | [] => !digits.isEmpty
    | '.' :: places => !places.isEmpty && places.all Text.isDecimalDigit
    | _ => false
  | _ => false

/-- An option that is written in full, with its value if an equals sign joins one. -/
def fullOption? (options : List OptionSpec) (text : Raw) : Option Found :=
  let isShort := (text.drop 1).head? ≠ some (.char '-')
  match exactOption? options text, splitEquals text with
  | some spec, _ => some ⟨spec, isShort, none⟩
  | none, (name, some value) =>
    (exactOption? options name).map fun spec => ⟨spec, isShort, some value⟩
  | none, (_, none) => none

/-- The part that an argument plays. A dash alone, a negative number and an argument with a space
are no options. -/
def classify (options : List OptionSpec) (text : Raw) : Except UsageError Token :=
  if text.head? ≠ some (.char '-') ∨ text.length = 1 then .ok (.argument text)
  else
    match fullOption? options text, candidates options text with
    | some found, _ => .ok (.option text (some found))
    | none, [found] => .ok (.option text (some found))
    | none, [] =>
      if text.chars?.any isNegativeNumber || text.contains (.char ' ') then .ok (.argument text)
      else .ok (.option text none)
    | none, several => .error (.ambiguous text (several.map fun found => "--" ++ found.spec.long))

def tokens (options : List OptionSpec) : List Raw → Except UsageError (List Token)
  | [] => .ok []
  | text :: rest =>
    if text = twoDashes then .ok (.dashes :: rest.map .argument)
    else do
      let token ← classify options text
      return token :: (← tokens options rest)

end OneBit.Command
