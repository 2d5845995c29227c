import OneBit.Field
import OneBit.Text.Radix
/-!
# Instructions

The sixteen operation codes of the one-bit processor, with the spellings that assembly text
accepts for them.
-/

namespace OneBit

inductive Instruction
  | nop0 | ld | add | sub | one | nand | or | xor
  | sto | stoc | ien | oen | ioc | rtn | skz | nopf
  deriving DecidableEq, Repr

namespace Instruction

def all : List Instruction :=
  [nop0, ld, add, sub, one, nand, or, xor, sto, stoc, ien, oen, ioc, rtn, skz, nopf]

def code : Instruction → Fin 16
  | nop0 => 0b0000
  | ld => 0b0001
  | add => 0b0010
  | sub => 0b0011
  | one => 0b0100
  | nand => 0b0101
  | or => 0b0110
  | xor => 0b0111
  | sto => 0b1000
  | stoc => 0b1001
  | ien => 0b1010
  | oen => 0b1011
  | ioc => 0b1100
  | rtn => 0b1101
  | skz => 0b1110
  | nopf => 0b1111

def ofCode (code : Fin 16) : Instruction := all.get code

def ofInt (code : Int) : Except FieldError Instruction :=
  match all.find? fun i => (i.code : Int) = code with
  | some instruction => .ok instruction
  | none => .error (.instruction code)

def ofBits (bits : Int) : Instruction := ofCode (Field.instruction.extract bits)

def mnemonic : Instruction → String
  | nop0 => "nop0"
  | ld => "ld"
  | add => "add"
  | sub => "sub"
  | one => "one"
  | nand => "nand"
  | or => "or"
  | xor => "xor"
  | sto => "sto"
  | stoc => "stoc"
  | ien => "ien"
  | oen => "oen"
  | ioc => "ioc"
  | rtn => "rtn"
  | skz => "skz"
  | nopf => "nopf"

def mixedCase : Instruction → String
  | nop0 => "Nop0"
  | ld => "Ld"
  | add => "Add"
  | sub => "Sub"
  | one => "One"
  | nand => "Nand"
  | or => "Or"
  | xor => "Xor"
  | sto => "Sto"
  | stoc => "StoC"
  | ien => "Ien"
  | oen => "Oen"
  | ioc => "Ioc"
  | rtn => "Rtn"
  | skz => "Skz"
  | nopf => "NopF"

def name (i : Instruction) : String := String.ofList (Text.capitals i.mnemonic.toList)

/-- The spellings that assembly text accepts: mixed, lower and upper case. -/
def spellings (i : Instruction) : List String := [i.mixedCase, i.mnemonic, i.name]

def binary (i : Instruction) : String := String.ofList (Text.paddedDigits 2 4 i.code)

def octal (i : Instruction) : String := String.ofList (Text.paddedDigits 8 2 i.code)

@[simp] theorem ofCode_code (i : Instruction) : ofCode i.code = i := by
  cases i <;> rfl

@[simp] theorem code_ofCode (code : Fin 16) : (ofCode code).code = code := by
  revert code; decide

theorem mem_all (i : Instruction) : i ∈ all := by
  cases i <;> decide

end Instruction

end OneBit
