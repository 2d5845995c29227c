import OneBit.Log
import OneBit.Text.Raw
/-!
# Invocations

What a command line asks for: a task, and how much of the log is to be shown.
-/

namespace OneBit.Command

open Text

inductive OutputFormat
  | bin | hex | mem
  deriving DecidableEq, Repr

namespace OutputFormat

def all : List OutputFormat := [bin, hex, mem]

def name : OutputFormat → String
  | bin => "bin"
  | hex => "hex"
  | mem => "mem"

def ofName? (name : String) : Option OutputFormat := all.find? fun format => format.name = name

end OutputFormat

/-- What a command line says of a value. -/
inductive Given (α : Type)
  /-- Nothing, so that the usual value holds. -/
  | absent
  /-- Two dashes stand in its place. -/
  | blank
  | present (value : α)
  deriving DecidableEq, Repr

/-- The value that holds, unless dashes stand in its place. -/
def Given.orUsual {α : Type} (given : Given α) (usual : α) : Option α :=
  match given with
  | .absent => some usual
  | .blank => none
  | .present value => some value

/-- What the program is asked to do. A value that is `none` has dashes in its place. -/
inductive Task
  | assemble (input : Raw) (output? : Option Raw) (format? : Option OutputFormat) (quiet : Bool)
  | list (input : Raw)
  deriving DecidableEq, Repr

structure Invocation where
  task : Task
  verbose : Bool
  /-- The level of the log, unless dashes stand in its place. -/
  level? : Option Level
  deriving DecidableEq, Repr

def levelVariable : String := "UE14500ASM_LOG_LEVEL"

/-- The level that the environment sets, in either case of letter; any other text counts as
`warning`. Only ASCII letters have a place in the name of a level. -/
def levelOfEnvironment (value : Option Raw) : Level :=
  let text := (value.bind Raw.toString?).getD ""
  let name := String.ofList (text.toList.map Char.toLower)
  (Level.ofName? name).getD .warning

namespace Invocation

/-- The least weight of the events that are shown at a level; a verbose run shows at least those of
`info`. -/
def threshold (i : Invocation) (level : Level) : Nat :=
  if i.verbose then min level.weight Level.info.weight else level.weight

def shown (i : Invocation) (level : Level) (events : List Event) : List Event :=
  events.filter fun event => i.threshold level ≤ event.level.weight

end Invocation

end OneBit.Command
