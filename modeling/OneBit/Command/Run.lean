import OneBit.Assembler
import OneBit.Command.Arguments
import OneBit.Command.Host
/-!
# Running a task

A task reads one file, prints a listing, and the assembling task then writes one file. What happens
up to the output file is a function of the bytes that were read and of what the console makes of the
listing.
-/

namespace OneBit.Command

open Text

/-- Why a run breaks off. -/
inductive Breakdown
  /-- The source is not well-formed UTF-8. -/
  | undecodable
  /-- The level of the log is blank. -/
  | noLevel
  /-- The console cannot print the listing. -/
  | unprintable (text : String)
  /-- The output is blank. -/
  | noOutput
  /-- The format is blank, and nothing is written to the output. -/
  | noFormat
  /-- The fault of a path is not one that the operating system finds. -/
  | badPath (fault : FileFault)
  deriving DecidableEq, Repr

inductive Status
  | exit (code : Nat)
  | broken (reason : Breakdown)
  deriving DecidableEq, Repr

/-- What a run leaves beside files. -/
structure Report where
  status : Status
  /-- The listing that was handed to the console. -/
  listing : Option Listing := none
  stdout : String := ""
  stderr : String := ""
  events : List Event := []
  deriving DecidableEq, Repr

/-- A task after its input was read. -/
inductive Step
  | done (report : Report)
  /-- The output is to be opened, and the content written to it if there is one. The report holds if
  nothing goes wrong, and then the events are recorded too. -/
  | write (path : Raw) (content? : Option (List UInt8)) (report : Report) (events : List Event)
  deriving DecidableEq, Repr

def Task.input : Task → Raw
  | assemble input .. => input
  | list input => input

def Report.refuse (report : Report) (fault : FileFault) (line : String) : Report :=
  if fault.isSystem then { report with status := .exit 1, stderr := report.stderr ++ line ++ "\n" }
  else { report with status := .broken (.badPath fault) }

def unreadable (path : Raw) (fault : FileFault) : Report :=
  Report.refuse { status := .exit 1 } fault <|
    if fault = .notFound then "Error: File not found: " ++ path.shown
    else "Error reading " ++ path.shown ++ ": " ++ fault.message path.quoted

def Report.unwritable (report : Report) (path : Raw) (fault : FileFault) : Report :=
  report.refuse fault ("Error writing " ++ path.shown ++ ": " ++ fault.message path.quoted)

def Report.finish (report : Report) (path : Raw) (events : List Event) : Option FileFault → Report
  | none => { report with events := report.events ++ events }
  | some fault => report.unwritable path fault

/-- Lines that each begin with a word for what they are. -/
def noteLines (kind : String) (notes : List Diagnostic) : String :=
  String.join (notes.map fun note => kind ++ ": " ++ note.render ++ "\n")

def outputContent (a : Assembler) : OutputFormat → Logged (List UInt8)
  | .bin => a.image
  | .hex => return encodeFile (a.hexText ++ "\n")
  | .mem => return encodeFile (a.memText ++ "\n")

def Report.withListing (report : Report) (listing : Listing) : Except String String → Report
  | .ok text => { report with listing := some listing, stdout := text }
  | .error text => { report with listing := some listing, status := .broken (.unprintable text) }

def listStep (print : Console) (input : Raw) (data : List UInt8) : Step :=
  let words := Image.decodeLogged data
  let listing := Listing.ofWords words.value (some input)
  .done (Report.withListing { status := .exit 0, events := words.events } listing (print listing))

def outputStep (a : Assembler) (output? : Option Raw) (format? : Option OutputFormat)
    (report : Report) : Step :=
  let content? := format?.map (outputContent a)
  let events := report.events ++ ((content?.map Logged.events).getD [])
  match output? with
  | none => .done { report with status := .broken .noOutput, events }
  | some output =>
    .write output (content?.map Logged.value) { report with events }
      [.assembled a.words.length a.comments.length output.shown]

/-- Shows an assembled program and writes it. A listing that cannot be printed breaks the run off
before the output is opened. -/
def showStep (print : Console) (a : Assembler) (input : Raw) (output? : Option Raw)
    (format? : Option OutputFormat) (quiet : Bool) (report : Report) : Step :=
  let listing := a.listing (some input)
  match quiet, print listing with
  | true, _ => outputStep a output? format? report
  | false, .ok text => outputStep a output? format? (report.withListing listing (.ok text))
  | false, .error text => .done (report.withListing listing (.error text))

def assembleStep (print : Console) (input : Raw) (output? : Option Raw)
    (format? : Option OutputFormat) (quiet : Bool) (source : String) : Step :=
  let assembled := Assembler.assemble source
  let a := assembled.value
  let warnings := noteLines "Warning" a.warnings
  if a.succeeded then
    showStep print a input output? format? quiet
      { status := .exit 0, stderr := warnings, events := assembled.events }
  else
    .done
      { status := .exit 1, stderr := warnings ++ noteLines "Error" a.errors,
        events := assembled.events }

def Task.step (task : Task) (print : Console)
    (read : Except FileFault (List UInt8)) : Step :=
  match read with
  | .error fault => .done (unreadable task.input fault)
  | .ok content =>
    match task with
    | .list input => listStep print input content
    | .assemble input output? format? quiet =>
      match decodeFile? content with
      | some source => assembleStep print input output? format? quiet source
      | none => .done { status := .broken .undecodable }

def Task.run {σ : Type} (host : Host σ) (task : Task) (files : σ) : Report × σ :=
  match task.step host.print (host.read files task.input) with
  | .done report => (report, files)
  | .write path content? report events =>
    match host.create files path, content? with
    | .error fault, _ => (report.unwritable path fault, files)
    | .ok opened, none => ({ report with status := .broken .noFormat }, opened)
    | .ok opened, some content =>
      let (fault?, after) := host.write opened path content
      (report.finish path events fault?, after)

def run {σ : Type} (host : Host σ) (environment : Option Raw) (arguments : List Raw) (files : σ) :
    Report × σ :=
  match Invocation.ofArguments environment arguments with
  | .error e =>
    ({ status := .exit e.exitCode, stdout := e.stdout, stderr := e.stderr }, files)
  | .ok invocation =>
    match invocation.level? with
    | none => ({ status := .broken .noLevel }, files)
    | some level =>
      let (report, after) := invocation.task.run host files
      ({ report with events := invocation.shown level report.events }, after)

end OneBit.Command
