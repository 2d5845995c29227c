import OneBit.Assembler
import OneBit.Files
import OneBit.Text.Capitals
/-!
# The loader

A loader assembles sources and files, builds programs from lists of entries, and loads images. It
remembers the last source it assembled, and the diagnostics of the last program it made.
-/

namespace OneBit

open Text

/-- An instruction of a program that is given as a list. A field left out is zero. -/
structure ProgramEntry where
  mnemonic : String
  address? : Option Int := none
  control? : Option Int := none
  deriving DecidableEq, Repr

namespace ProgramEntry

def address (e : ProgramEntry) : Int := e.address?.getD 0

def control (e : ProgramEntry) : Int := e.control?.getD 0

/-- The instruction with the mnemonic of the entry, in any case. -/
def instruction? (e : ProgramEntry) : Option Instruction :=
  Instruction.all.find? fun i => i.name.toList == fullCapitals e.mnemonic.toList

def truncations (e : ProgramEntry) : List Truncation :=
  (Truncation.check .address e.address).toList ++ (Truncation.check .control e.control).toList

end ProgramEntry

inductive LoadError
  | assembly (errors : List Diagnostic)
  | file (error : FileError)
  | undecodable
  | unknownMnemonic (mnemonic : String)
  | emptyEntry
  deriving DecidableEq, Repr

namespace LoadError

def message : LoadError → String
  | assembly errors => "Assembly failed:\n" ++ "\n".intercalate (errors.map Diagnostic.render)
  | file error => error.message
  | undecodable => "not well-formed text"
  | unknownMnemonic mnemonic => s!"Unknown mnemonic: {mnemonic}"
  | emptyEntry => "tuple index out of range"

def ofTextFile : TextFileError → LoadError
  | .file error => file error
  | .undecodable => undecodable

end LoadError

/-- The words of a list of entries, and the diagnostics of the values that were cut. The first entry
that is no instruction ends the list. -/
def wordsOfEntries (index : Nat) :
    List (Option ProgramEntry) → Except LoadError (List Word) × List Diagnostic
  | [] => (.ok [], [])
  | none :: _ => (.error .emptyEntry, [])
  | some entry :: rest =>
    match entry.instruction? with
    | none => (.error (.unknownMnemonic entry.mnemonic), [])
    | some instruction =>
      let word : Word := ⟨instruction, .ofInt entry.address, .ofBits entry.control⟩
      let notes := entry.truncations.map fun t => ⟨.entry index, t.message⟩
      let (words, more) := wordsOfEntries (index + 1) rest
      (words.map (word :: ·), notes ++ more)

structure Loader where
  /-- The source that was assembled last. -/
  assembler : Assembler := {}
  /-- The warnings about the program that was made last. -/
  warnings : List Diagnostic := []
  deriving DecidableEq, Repr

namespace Loader

def errors (l : Loader) : List Diagnostic := l.assembler.errors

def words (l : Loader) : List Word := l.assembler.words

def comments (l : Loader) : List String := l.assembler.comments

def assemble (source : String) : Logged (Except LoadError (List UInt8) × Loader) := do
  let assembler ← Assembler.assemble source
  let loader : Loader := { assembler, warnings := assembler.warnings }
  if assembler.succeeded then
    return (.ok (← assembler.image), loader)
  else
    return (.error (.assembly loader.errors), loader)

/-- Assembles a file into an image. A file that cannot be read leaves the loader as it is. -/
def assembleFile (tree : FileTree) (path : String) (l : Loader) :
    Logged (Except LoadError (List UInt8) × Loader) :=
  match tree.readText path with
  | .ok source => assemble source
  | .error e => return (.error (.ofTextFile e), l)

/-- Builds an image from a list of entries. Only the warnings of the loader change. -/
def build (entries : List (Option ProgramEntry)) (l : Loader) :
    Logged (Except LoadError (List UInt8) × Loader) := do
  let (outcome, notes) := wordsOfEntries 0 entries
  let loader := { l with warnings := notes }
  Logged.record (notes.map .truncated)
  match outcome with
  | .ok words => return (.ok (← Image.encodeLogged (words.map .word)), loader)
  | .error e => return (.error e, loader)

end Loader

end OneBit
