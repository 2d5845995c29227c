import OneBit.Command.Invocation
import OneBit.Command.Usage
/-!
# Options and arguments of each command

The options that a command knows, and the arguments it knows by their place.
-/

namespace OneBit.Command

inductive OptionKey
  | help | verbose | logLevel | format | quiet
  deriving DecidableEq, Repr

structure OptionSpec where
  key : OptionKey
  short? : Option Char
  long : String
  /-- The values it takes; an option without values is a switch. -/
  choices? : Option (List String)
  deriving DecidableEq, Repr

namespace OptionSpec

def help : OptionSpec := ⟨.help, some 'h', "help", none⟩

def verbose : OptionSpec := ⟨.verbose, some 'v', "verbose", none⟩

def logLevel : OptionSpec := ⟨.logLevel, none, "log-level", some (Level.all.map Level.name)⟩

def format : OptionSpec :=
  ⟨.format, some 'f', "format", some (OutputFormat.all.map OutputFormat.name)⟩

def quiet : OptionSpec := ⟨.quiet, some 'q', "quiet", none⟩

def names (spec : OptionSpec) : List String :=
  (spec.short?.map fun c => String.ofList ['-', c]).toList ++ ["--" ++ spec.long]

def isShort (spec : OptionSpec) (mark : Text.Mark) : Bool := spec.short?.map .char == some mark

def title (spec : OptionSpec) : String := "/".intercalate spec.names

end OptionSpec

/-- An argument that is known by its place. -/
inductive Positional
  | command | input | output
  deriving DecidableEq, Repr

def Positional.name : Positional → String
  | command => "command"
  | input => "input"
  | output => "output"

def Topic.options : Topic → List OptionSpec
  | main => [.help, .verbose, .logLevel]
  | assemble => [.help, .format, .quiet]
  | list => [.help]

def Topic.positionals : Topic → List Positional
  | main => [.command]
  | assemble => [.input, .output]
  | list => [.input]

def subcommands : List (String × Topic) := [("asm", .assemble), ("list", .list)]

def Topic.ofName? (name : Text.Raw) : Option Topic :=
  name.toString?.bind fun text => subcommands.lookup text

end OneBit.Command
