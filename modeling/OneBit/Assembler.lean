import OneBit.Dump
import OneBit.Image
import OneBit.Listing
import OneBit.Source.Reading
/-!
# The assembler

Assembling a source keeps its nodes and collects its diagnostics: one error if the source cannot be
read, otherwise a warning for each value that was cut and for a program without words.
-/

namespace OneBit

/-- What is known of a source after assembling it. -/
structure Assembler where
  nodes : List Node := []
  errors : List Diagnostic := []
  warnings : List Diagnostic := []
  deriving DecidableEq, Repr

namespace Assembler

def words (a : Assembler) : List Word := wordsOf a.nodes

def comments (a : Assembler) : List String := commentsOf a.nodes

def errorNote (e : SyntaxError) : Diagnostic :=
  let column := e.position.column
  ⟨.line e.position.line, e.describe ++ s!" at column {column}"⟩

def emptyNote : Diagnostic := ⟨.program, "Program contains no words"⟩

def ofReading (reading : Source.Reading (List Node)) : Assembler :=
  match reading.outcome with
  | .error e => { errors := [errorNote e] }
  | .ok nodes =>
    let warnings := if (wordsOf nodes).isEmpty then reading.notes ++ [emptyNote] else reading.notes
    { nodes, warnings }

def ofSource (source : String) : Assembler := ofReading (Source.readProgram source)

def succeeded (a : Assembler) : Bool := a.errors.isEmpty

/-- Assembles a source and records the values that were cut, also of a source with an error. -/
def assemble (source : String) : Logged Assembler :=
  let reading := Source.readProgram source
  ⟨ofReading reading, reading.logged.events⟩

def addError (a : Assembler) (line : Int) (text : String) : Assembler :=
  { a with errors := a.errors ++ [⟨.line line, text⟩] }

def addWarning (a : Assembler) (line : Int) (text : String) : Assembler :=
  { a with warnings := a.warnings ++ [⟨.line line, text⟩] }

def image (a : Assembler) : Logged (List UInt8) := Image.encodeLogged a.nodes

def hexText (a : Assembler) : String := Dump.hexText a.words

def memText (a : Assembler) : String := Dump.memText a.words

def listing (a : Assembler) (title : Option Text.Raw) : Listing := .ofWords a.words title

end Assembler

end OneBit
