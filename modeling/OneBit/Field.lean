/-!
# The fields of a code word

A code word has twelve bits, `IIII AAAAAA CC`: the instruction, the address and the control.
Field values are taken from integers of any sign and size, read as two's complement without end,
so that cutting a field is taking a remainder.
-/

namespace OneBit

/-- A run of `width` bits of a code word, the lowest of them at `position`. -/
structure Field where
  width : Nat
  position : Nat
  deriving DecidableEq, Repr

namespace Field

def size (field : Field) : Nat := 1 <<< field.width

def limit (field : Field) : Nat := field.size - 1

/-- The bits of a code word that belong to the field. -/
def mask (field : Field) : Nat := field.limit <<< field.position

theorem size_pos (field : Field) : 0 < field.size := by
  rw [size, Nat.shiftLeft_eq, Nat.one_mul]
  exact Nat.two_pow_pos field.width

/-- The low bits of a value, as many as the field holds. -/
def keep (field : Field) (value : Int) : Fin field.size :=
  ⟨(value % field.size).toNat, by
    have hpos : (0 : Int) < field.size := Int.natCast_pos.2 field.size_pos
    have hlt := Int.emod_lt_of_pos value hpos
    have hnonneg := Int.emod_nonneg value (Int.ne_of_gt hpos)
    omega⟩

def extract (field : Field) (bits : Int) : Fin field.size := field.keep (bits >>> field.position)

def instruction : Field := ⟨4, 8⟩

def address : Field := ⟨6, 2⟩

def control : Field := ⟨2, 0⟩

end Field

def wordBits : Nat := 12

def version : String := "1.0.0"

/-- A value that no field of the word model takes. -/
inductive FieldError
  | instruction (code : Int)
  | control (code : Int)
  | address (value : Int)
  deriving DecidableEq, Repr

def FieldError.message : FieldError → String
  | .instruction code => s!"{code} is not a valid Instruction"
  | .control code => s!"{code} is not a valid Control"
  | .address value => s!"address out of range: {value}"

end OneBit
