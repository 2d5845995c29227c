import OneBit.Field
import OneBit.Text.Radix
/-!
# Addresses

A six-bit operand address. Fixed ranges of the address space stand for different sources and
sinks of the operand, so the addressing mode follows from the value.
-/

namespace OneBit

inductive AddressKind
  | general | parallelRead | externalInput | qrr | rr | highInput | lowInput
  deriving DecidableEq, Repr

namespace AddressKind

def all : List AddressKind :=
  [general, parallelRead, externalInput, qrr, rr, highInput, lowInput]

def label : AddressKind → String
  | general => "general"
  | parallelRead => "parallel read"
  | externalInput => "external input"
  | qrr => "qrr"
  | rr => "rr"
  | highInput => "high input"
  | lowInput => "low input / high-z"

def first : AddressKind → Nat
  | general => 0b000000
  | parallelRead => 0b101000
  | externalInput => 0b110000
  | qrr => 0b111000
  | rr => 0b111001
  | highInput => 0b111010
  | lowInput => 0b111100

def last : AddressKind → Nat
  | general => 0b100111
  | parallelRead => 0b101111
  | externalInput => 0b110111
  | qrr => 0b111000
  | rr => 0b111001
  | highInput => 0b111011
  | lowInput => 0b111111

def find? (value : Int) : Option AddressKind :=
  all.find? fun kind => (kind.first : Int) ≤ value ∧ value ≤ kind.last

def ofInt (value : Int) : Except FieldError AddressKind :=
  match find? value with
  | some kind => .ok kind
  | none => .error (.address value)

theorem isSome_find? (value : Fin 64) : (find? (value : Nat)).isSome := by
  revert value; decide

end AddressKind

structure Address where
  value : Fin 64
  deriving DecidableEq, Repr

namespace Address

/-- The address that the low six bits of an integer give. -/
def ofInt (value : Int) : Address := ⟨Field.address.keep value⟩

def ofBits (bits : Int) : Address := ⟨Field.address.extract bits⟩

def kind (a : Address) : AddressKind :=
  (AddressKind.find? (a.value : Nat)).get (AddressKind.isSome_find? a.value)

def binary (a : Address) : String := String.ofList (Text.paddedDigits 2 6 a.value)

def octal (a : Address) : String := String.ofList (Text.paddedDigits 8 2 a.value)

end Address

end OneBit
