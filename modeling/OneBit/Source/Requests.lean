import OneBit.Source.Scan
/-!
# A cursor that is kept

Each step of reading can be asked for on its own, in any order. A request finds the cursor as the
one before left it, whether that one succeeded or failed.
-/

namespace OneBit.Source.Cursor

/-- What can be asked of a cursor that is kept. -/
inductive Request
  | program
  | line
  | comment
  | word
  | instruction
  | address
  | control
  | numeral (expected : Expected)
  | separator (expected : Expected)
  | newline (expected : Expected)
  | finish (expected : Expected)
  | skipSpace
  | peek
  deriving DecidableEq, Repr

inductive Response
  | nodes (nodes : List Node)
  | node (node : Node)
  | comment (text : String)
  | word (word : Word)
  | instruction (i : Instruction)
  | address (a : Address)
  | control (c : Control)
  | number (value : Nat)
  | character (char? : Option Char)
  | done
  deriving DecidableEq, Repr

def Request.scan : Request → Scan Response
  | program => return .nodes (← Scan.program)
  | line => return .node (← Scan.line)
  | comment => return .comment (← Scan.comment)
  | word => return .word (← Scan.word)
  | instruction => return .instruction (← Scan.instruction)
  | address => return .address (← Scan.address)
  | control => return .control (← Scan.control)
  | numeral expected => return .number (← Scan.numeral expected)
  | separator expected => do
    Scan.separator expected
    return .done
  | newline expected => do
    Scan.newline expected
    return .done
  | finish expected => do
    Scan.finish expected
    return .done
  | skipSpace => do
    Scan.skipSpace
    return .done
  | peek => return .character (← Scan.peek)

def serve (c : Cursor) (request : Request) : Except SyntaxError Response × Cursor :=
  match request.scan.run c with
  | .ok response next => (.ok response, next)
  | .error e next => (.error e, next)

end OneBit.Source.Cursor
