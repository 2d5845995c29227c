import OneBit.Log
import OneBit.Source.Scan
/-!
# Reading whole texts

Each reader takes a text and gives what it found, or the first error, together with the values that
were cut on the way. Programs may have blanks around them; a single word or comment is one line and
nothing after it.
-/

namespace OneBit.Source

/-- What was read from a text, with the values that were cut, each with its line. -/
structure Reading (α : Type) where
  outcome : Except SyntaxError α
  warnings : List (Nat × Truncation)

def truncationNote (warning : Nat × Truncation) : Diagnostic :=
  ⟨.line warning.1, warning.2.message⟩

/-- The values that were cut since an earlier place, as events. -/
def Cursor.eventsSince (c earlier : Cursor) : List Event :=
  (c.warnings.drop earlier.warnings.length).map fun warning => .truncated (truncationNote warning)

def read {α : Type} (scan : Scan α) (text : String) : Reading α :=
  match scan.run (Cursor.start text.toList) with
  | .ok value c => ⟨.ok value, c.warnings⟩
  | .error e c => ⟨.error e, c.warnings⟩

namespace Reading

def notes {α : Type} (reading : Reading α) : List Diagnostic :=
  reading.warnings.map truncationNote

def logged {α : Type} (reading : Reading α) : Logged (Except SyntaxError α) :=
  ⟨reading.outcome, reading.notes.map Event.truncated⟩

end Reading

def readProgram (text : String) : Reading (List Node) := read Scan.program text

/-- The nodes of a program, or the first error in its text. -/
def parse (text : String) : Except SyntaxError (List Node) := (readProgram text).outcome

/-- Reads a program and records how large it is. -/
def parseLogged (text : String) : Logged (Except SyntaxError (List Node)) := do
  let outcome ← (readProgram text).logged
  match outcome with
  | .ok nodes => ⟨outcome, [.parsed (wordsOf nodes).length (commentsOf nodes).length]⟩
  | .error _ => return outcome

def readComment (text : String) : Reading String :=
  read (do let comment ← Scan.comment; Scan.finish .comment; return comment) text

def readWord (text : String) : Reading Word :=
  read (do let word ← Scan.word; Scan.finish .endOfLine; return word) text

def readInstruction (text : String) : Reading Instruction := read Scan.instruction text

def readAddress (text : String) : Reading Address := read Scan.address text

def readControl (text : String) : Reading Control := read Scan.control text

end OneBit.Source
