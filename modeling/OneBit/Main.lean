import OneBit.Command.Run
/-!
# The program

Runs the command line on the files of the machine.
-/

namespace OneBit.Command

open Text

/-- The fault behind a failed operation. A file of the wrong type is told from a directory by the
number that the operating system gives, with either sign. -/
def faultOf : IO.Error → FileFault
  | .noFileOrDirectory .. => .notFound
  | .inappropriateType _ code _ =>
    if code = 20 ∨ code = 0 - 20 then .notDirectory else .isDirectory
  | e => .other (toString e)

def onFile {α : Type} (path : Raw) (operation : String → IO α) : IO (Except FileFault α) := do
  match path.toString? with
  | none => return .error .unencodable
  | some text =>
    if text.toList.contains '\x00' then return .error .zeroInPath
    try return .ok (← operation text)
    catch e => return .error (faultOf e)

def readFile (path : Raw) : IO (Except FileFault (List UInt8)) :=
  onFile path fun text => return (← IO.FS.readBinFile text).toList

def createFile (path : Raw) : IO (Except FileFault IO.FS.Handle) :=
  onFile path fun text => IO.FS.Handle.mk text .write

def writeFile (file : IO.FS.Handle) (content : List UInt8) : IO (Option FileFault) := do
  try
    file.write ⟨content.toArray⟩
    file.flush
    return none
  catch e => return some (faultOf e)

def Breakdown.message : Breakdown → String
  | undecodable => "the input is not well-formed UTF-8"
  | noLevel => "no log level"
  | unprintable text => text
  | noOutput => "no output file"
  | noFormat => "no output format"
  | badPath fault => fault.describe

def Task.runOnMachine (task : Task) : IO Report := do
  match task.step Console.plain (← readFile task.input) with
  | .done report => return report
  | .write path content? report events =>
    match ← createFile path, content? with
    | .error fault, _ => return report.unwritable path fault
    | .ok _, none => return { report with status := .broken .noFormat }
    | .ok file, some content => return report.finish path events (← writeFile file content)

def printReport (report : Report) : IO UInt32 := do
  IO.print report.stdout
  for event in report.events do
    IO.eprintln event.message
  IO.eprint report.stderr
  match report.status with
  | .exit code => return UInt32.ofNat code
  | .broken reason =>
    IO.eprintln reason.message
    return 1

end OneBit.Command

open OneBit OneBit.Command Text in
def main (arguments : List String) : IO UInt32 := do
  let environment ← IO.getEnv levelVariable
  match Invocation.ofArguments (environment.map Raw.ofString) (arguments.map Raw.ofString) with
  | .error e =>
    printReport { status := .exit e.exitCode, stdout := e.stdout, stderr := e.stderr }
  | .ok invocation =>
    match invocation.level? with
    | none => printReport { status := .broken .noLevel }
    | some level =>
      let report ← invocation.task.runOnMachine
      printReport { report with events := invocation.shown level report.events }
