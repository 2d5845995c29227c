import Mathlib.Algebra.Order.Ring.Nat
import OneBit.Word
/-!
# Words and their numbers

A word and its twelve bits determine each other: encoding the word that an integer spells gives the
integer without its higher bits, and spelling a word from its bits gives the word.
-/

namespace OneBit

theorem Instruction.ofInt_code (code : Fin 16) : ofInt (code : Nat) = .ok (ofCode code) := by
  revert code; decide

theorem Control.ofInt_code (code : Fin 4) : ofInt (code : Nat) = .ok (ofCode code) := by
  revert code; decide

theorem Instruction.code_ofBits (bits : Int) :
    ((Instruction.ofBits bits).code : Int) = bits / 256 % 16 := by
  have hcode : (Instruction.ofBits bits).code = Field.instruction.extract bits :=
    Instruction.code_ofCode _
  have hval : (Field.instruction.extract bits).val = (bits >>> (8 : Nat) % 16).toNat := rfl
  have hshift : bits >>> (8 : Nat) = bits / 256 := Int.shiftRight_eq_div_pow bits 8
  rw [hcode, hval, hshift]
  omega

theorem Address.value_ofBits (bits : Int) :
    ((Address.ofBits bits).value : Int) = bits / 4 % 64 := by
  have hval : (Address.ofBits bits).value.val = (bits >>> (2 : Nat) % 64).toNat := rfl
  have hshift : bits >>> (2 : Nat) = bits / 4 := Int.shiftRight_eq_div_pow bits 2
  rw [hval, hshift]
  omega

theorem Control.code_ofBits (bits : Int) : ((Control.ofBits bits).code : Int) = bits % 4 := by
  have hcode : (Control.ofBits bits).code = Field.control.extract bits := Control.code_ofCode _
  have hval : (Field.control.extract bits).val = (bits >>> (0 : Nat) % 4).toNat := rfl
  rw [hcode, hval, Int.shiftRight_zero]
  omega

namespace Word

theorem toBits_eq (w : Word) :
    w.toBits = w.instruction.code * 256 + w.address.value * 4 + w.control.code := by
  rw [toBits, Nat.shiftLeft_eq, Nat.shiftLeft_eq, Nat.shiftLeft_eq]
  change w.instruction.code.val * 256 + w.address.value.val * 4 + w.control.code.val * 1 = _
  rw [Nat.mul_one]

theorem toBits_lt (w : Word) : w.toBits < 4096 := by
  have hinstruction := w.instruction.code.isLt
  have haddress := w.address.value.isLt
  have hcontrol := w.control.code.isLt
  rw [toBits_eq]
  omega

theorem toBits_ofBits (bits : Int) : ((ofBits bits).toBits : Int) = bits % 4096 := by
  have hinstruction : ((ofBits bits).instruction.code : Int) = bits / 256 % 16 :=
    Instruction.code_ofBits bits
  have haddress : ((ofBits bits).address.value : Int) = bits / 4 % 64 := Address.value_ofBits bits
  have hcontrol : ((ofBits bits).control.code : Int) = bits % 4 := Control.code_ofBits bits
  rw [toBits_eq]
  omega

theorem toBits_injective : Function.Injective toBits := by
  intro first second h
  rw [toBits_eq, toBits_eq] at h
  have haddress := first.address.value.isLt
  have haddress' := second.address.value.isLt
  have hcontrol := first.control.code.isLt
  have hcontrol' := second.control.code.isLt
  have hi : first.instruction.code = second.instruction.code := Fin.ext (by omega)
  have ha : first.address.value = second.address.value := Fin.ext (by omega)
  have hc : first.control.code = second.control.code := Fin.ext (by omega)
  obtain ⟨i, ⟨a⟩, c⟩ := first
  obtain ⟨i', ⟨a'⟩, c'⟩ := second
  obtain rfl : i = i' := by rw [← Instruction.ofCode_code i, hi, Instruction.ofCode_code]
  obtain rfl : a = a' := ha
  obtain rfl : c = c' := by rw [← Control.ofCode_code c, hc, Control.ofCode_code]
  rfl

theorem ofBits_toBits (w : Word) : ofBits w.toBits = w := by
  apply toBits_injective
  have h := toBits_ofBits w.toBits
  have hlt := w.toBits_lt
  omega

end Word

end OneBit
