import OneBit.Field
import OneBit.Text.Radix
/-!
# Controls

The two-bit field that drives input, output and the tape.
-/

namespace OneBit

/-- What the machine does beside the operation. -/
inductive Control
  | null | copyShift | undefined | stopTape
  deriving DecidableEq, Repr

namespace Control

def all : List Control := [null, copyShift, undefined, stopTape]

def code : Control → Fin 4
  | null => 0b00
  | copyShift => 0b01
  | undefined => 0b10
  | stopTape => 0b11

def ofCode (code : Fin 4) : Control := all.get code

def ofInt (code : Int) : Except FieldError Control :=
  match all.find? fun c => (c.code : Int) = code with
  | some control => .ok control
  | none => .error (.control code)

def ofBits (bits : Int) : Control := ofCode (Field.control.extract bits)

def label : Control → String
  | null => "null"
  | copyShift => "copy and shift out"
  | undefined => "undefined"
  | stopTape => "stop tape"

def binary (c : Control) : String := String.ofList (Text.paddedDigits 2 2 c.code)

def octal (c : Control) : String := String.ofList (Text.paddedDigits 8 1 c.code)

@[simp] theorem ofCode_code (c : Control) : ofCode c.code = c := by
  cases c <;> rfl

@[simp] theorem code_ofCode (code : Fin 4) : (ofCode code).code = code := by
  revert code; decide

end Control

end OneBit
