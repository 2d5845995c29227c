import OneBit.Text.Raw
/-!
# Usage of the command line

The texts that explain the command line, and the wording of the errors in it. Each subcommand has
texts of its own.
-/

namespace OneBit.Command

open Text

/-- What a usage text explains: the command line as a whole, or that of a subcommand. -/
inductive Topic
  | main | assemble | list
  deriving DecidableEq, Repr

namespace Topic

def program : Topic → String
  | main => "ue14500asm"
  | assemble => "ue14500asm asm"
  | list => "ue14500asm list"

def usage : Topic → String
  | main =>
    "usage: ue14500asm [-h] [-v] [--log-level \x7bdebug,info,warning,error\x7d]\n" ++
    "                  \x7basm,list\x7d ...\n"
  | assemble => "usage: ue14500asm asm [-h] [-f \x7bbin,hex,mem\x7d] [-q] input output\n"
  | list => "usage: ue14500asm list [-h] input\n"

def details : Topic → String
  | main =>
    "UE14500 Assembler\n\n" ++
    "positional arguments:\n" ++
    "  \x7basm,list\x7d\n" ++
    "    asm                 assemble binary\n" ++
    "    list                list binary contents\n\n" ++
    "options:\n" ++
    "  -h, --help            show this help message and exit\n" ++
    "  -v, --verbose         Verbose output\n" ++
    "  --log-level \x7bdebug,info,warning,error\x7d\n" ++
    "                        Log level (default: $UE14500ASM_LOG_LEVEL or warning)\n\n" ++
    "Output formats:\n" ++
    "  bin     Packed 12-bit words (default)\n" ++
    "  hex     Hex dump with word indexes\n" ++
    "  mem     Verilog $readmemh format\n\n" ++
    "Examples:\n" ++
    "  ue14500asm asm input.asm output.bin\n" ++
    "  ue14500asm asm input.asm output.mem --format mem\n" ++
    "  ue14500asm list output.bin\n"
  | assemble =>
    "positional arguments:\n" ++
    "  input                 Input assembly file\n" ++
    "  output                Output file\n\n" ++
    "options:\n" ++
    "  -h, --help            show this help message and exit\n" ++
    "  -f \x7bbin,hex,mem\x7d, --format \x7bbin,hex,mem\x7d\n" ++
    "                        Output format (default: bin)\n" ++
    "  -q, --quiet           Do not print the listing\n"
  | list =>
    "positional arguments:\n" ++
    "  input       Input binary file\n\n" ++
    "options:\n" ++
    "  -h, --help  show this help message and exit\n"

def help (topic : Topic) : String := topic.usage ++ "\n" ++ topic.details

end Topic

inductive UsageError
  | required (names : List String)
  | invalidChoice (argument : String) (value : Raw) (choices : List String)
  /-- An option without the value it needs. -/
  | missingValue (argument : String)
  /-- A value for an option that takes none. -/
  | ignoredValue (argument : String) (value : Raw)
  /-- A shortened option that could be more than one. -/
  | ambiguous (option : Raw) (names : List String)
  | unrecognized (arguments : List Raw)
  deriving DecidableEq, Repr

def UsageError.message : UsageError → String
  | required names => "the following arguments are required: " ++ ", ".intercalate names
  | invalidChoice argument value choices =>
    s!"argument {argument}: invalid choice: " ++ value.quoted ++
      " (choose from " ++ ", ".intercalate (choices.map quoted) ++ ")"
  | missingValue argument => s!"argument {argument}: expected one argument"
  | ignoredValue argument value =>
    s!"argument {argument}: ignored explicit argument " ++ value.quoted
  | ambiguous option names =>
    "ambiguous option: " ++ option.shown ++ " could match " ++ ", ".intercalate names
  | unrecognized arguments =>
    "unrecognized arguments: " ++ " ".intercalate (arguments.map Raw.shown)

/-- Why a command line gives no task. -/
inductive Interruption
  | help (topic : Topic)
  | usage (topic : Topic) (error : UsageError)
  deriving DecidableEq, Repr

namespace Interruption

def stdout : Interruption → String
  | help topic => topic.help
  | usage .. => ""

def stderr : Interruption → String
  | help _ => ""
  | usage topic error => topic.usage ++ topic.program ++ ": error: " ++ error.message ++ "\n"

def exitCode : Interruption → Nat
  | help _ => 0
  | usage .. => 2

end Interruption

end OneBit.Command
