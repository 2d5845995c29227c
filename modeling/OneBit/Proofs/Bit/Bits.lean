import Mathlib.Algebra.Order.Ring.Nat
import Mathlib.Data.List.Induction
import OneBit.Bit.Writer
/-!
# Numbers and bytes as lists of bits

Writers and readers keep bits as numbers and bytes.  Here both are lists of bits, the most
significant bit first, so that shifting and masking become taking lists apart and putting them
together.
-/

namespace OneBit.Bit

/-! ## Numbers -/

/-- The low `count` bits of a number, the most significant first. -/
def bitsOf : Nat → Nat → List Bool
  | 0, _ => []
  | count + 1, value => value.testBit count :: bitsOf count value

/-- The number that bits spell. -/
def numberOf (bits : List Bool) : Nat := bits.foldl (fun number bit => 2 * number + bit.toNat) 0

@[simp] theorem length_bitsOf (count value : Nat) : (bitsOf count value).length = count := by
  induction count with
  | zero => rfl
  | succ count ih => rw [bitsOf, List.length_cons, ih]

theorem bitsOf_congr {count first second : Nat}
    (h : ∀ i < count, first.testBit i = second.testBit i) :
    bitsOf count first = bitsOf count second := by
  induction count with
  | zero => rfl
  | succ count ih =>
      rw [bitsOf, bitsOf, h count (by omega), ih fun i hi => h i (by omega)]

theorem bitsOf_mod (count value : Nat) : bitsOf count (value % 2 ^ count) = bitsOf count value := by
  apply bitsOf_congr
  intro i hi
  rw [Nat.testBit_mod_two_pow]
  simp [hi]

theorem bitsOf_and (count first second : Nat) :
    bitsOf count (first &&& second) =
      List.zipWith (· && ·) (bitsOf count first) (bitsOf count second) := by
  induction count with
  | zero => rfl
  | succ count ih => rw [bitsOf, Nat.testBit_and, ih, bitsOf, bitsOf, List.zipWith_cons_cons]

theorem bitsOf_zero (count : Nat) : bitsOf count 0 = List.replicate count false := by
  induction count with
  | zero => rfl
  | succ count ih => rw [bitsOf, Nat.zero_testBit, ih, List.replicate_succ]

/-- The bits of a number, cut in two. -/
theorem bitsOf_add (front back value : Nat) :
    bitsOf (front + back) value = bitsOf front (value >>> back) ++ bitsOf back value := by
  induction front with
  | zero => rw [Nat.zero_add, bitsOf, List.nil_append]
  | succ front ih =>
      rw [Nat.add_right_comm, bitsOf, bitsOf, ih, Nat.testBit_shiftRight, Nat.add_comm back,
        List.cons_append]

/-- The bits of a number that is put together from two. -/
theorem bitsOf_shiftLeft_add (front back high : Nat) {low : Nat} (hlow : low < 2 ^ back) :
    bitsOf (front + back) (high <<< back + low) = bitsOf front high ++ bitsOf back low := by
  have hhigh : (high <<< back + low) >>> back = high := by
    rw [Nat.shiftLeft_eq, Nat.shiftRight_eq_div_pow, Nat.add_comm,
      Nat.add_mul_div_right _ _ (Nat.two_pow_pos back), Nat.div_eq_of_lt hlow, Nat.zero_add]
  have hrest : (high <<< back + low) % 2 ^ back = low := by
    rw [Nat.shiftLeft_eq, Nat.mul_add_mod_self_right, Nat.mod_eq_of_lt hlow]
  rw [bitsOf_add, hhigh, ← bitsOf_mod back, hrest]

theorem numberOf_append_singleton (bits : List Bool) (bit : Bool) :
    numberOf (bits ++ [bit]) = 2 * numberOf bits + bit.toNat := by
  rw [numberOf, List.foldl_append]
  rfl

theorem numberOf_lt (bits : List Bool) : numberOf bits < 2 ^ bits.length := by
  induction bits using List.reverseRecOn with
  | nil => decide
  | append_singleton bits bit ih =>
      have hbit := Bool.toNat_lt bit
      rw [numberOf_append_singleton, List.length_append, List.length_singleton, Nat.pow_succ]
      omega

theorem bitsOf_succ (count value : Nat) :
    bitsOf (count + 1) value = bitsOf count (value / 2) ++ [value.testBit 0] := by
  rw [bitsOf_add, Nat.shiftRight_eq_div_pow, Nat.pow_one, bitsOf, bitsOf]

theorem numberOf_bitsOf (count value : Nat) : numberOf (bitsOf count value) = value % 2 ^ count := by
  induction count generalizing value with
  | zero => rw [Nat.pow_zero, Nat.mod_one, bitsOf, numberOf, List.foldl_nil]
  | succ count ih =>
      have hbit : (value.testBit 0).toNat = value % 2 := by
        rw [Nat.testBit_zero]
        rcases Nat.mod_two_eq_zero_or_one value with h | h <;> rw [h] <;> rfl
      rw [bitsOf_succ, numberOf_append_singleton, ih, hbit, Nat.pow_succ, Nat.mul_comm (2 ^ count),
        Nat.mod_mul, Nat.add_comm]

theorem bitsOf_numberOf (bits : List Bool) : bitsOf bits.length (numberOf bits) = bits := by
  induction bits using List.reverseRecOn with
  | nil => rfl
  | append_singleton bits bit ih =>
      have hhalf : (2 * numberOf bits + bit.toNat) / 2 = numberOf bits := by
        have hbit := Bool.toNat_lt bit
        omega
      have hlow : (2 * numberOf bits + bit.toNat).testBit 0 = bit := by
        rw [Nat.testBit_zero, Nat.mul_add_mod]
        cases bit <;> rfl
      rw [numberOf_append_singleton, List.length_append, List.length_singleton, bitsOf_succ, hhalf,
        hlow, ih]

/-! ## Bytes -/

/-- The bits of bytes. -/
def bitsOfBytes (bytes : List UInt8) : List Bool := bytes.flatMap fun byte => bitsOf 8 byte.toNat

@[simp] theorem bitsOfBytes_nil : bitsOfBytes [] = [] := rfl

@[simp] theorem bitsOfBytes_cons (byte : UInt8) (bytes : List UInt8) :
    bitsOfBytes (byte :: bytes) = bitsOf 8 byte.toNat ++ bitsOfBytes bytes := rfl

@[simp] theorem bitsOfBytes_append (first second : List UInt8) :
    bitsOfBytes (first ++ second) = bitsOfBytes first ++ bitsOfBytes second :=
  List.flatMap_append

@[simp] theorem length_bitsOfBytes (bytes : List UInt8) :
    (bitsOfBytes bytes).length = 8 * bytes.length := by
  induction bytes with
  | nil => rfl
  | cons byte bytes ih =>
      rw [bitsOfBytes_cons, List.length_append, length_bitsOf, ih, List.length_cons]
      omega

/-- Runs of bits of one length, one for each part, can be told apart. -/
theorem flatMap_injective {α : Type} {f : α → List Bool} {width : Nat} (hwidth : 0 < width)
    (hlength : ∀ a, (f a).length = width) (hf : Function.Injective f) :
    Function.Injective fun parts : List α => parts.flatMap f := by
  intro first second h
  induction first generalizing second with
  | nil =>
      cases second with
      | nil => rfl
      | cons b second =>
          have hzero := congrArg List.length h
          simp only [List.flatMap_nil, List.flatMap_cons, List.length_nil, List.length_append,
            hlength] at hzero
          omega
  | cons a first ih =>
      cases second with
      | nil =>
          have hzero := congrArg List.length h
          simp only [List.flatMap_nil, List.flatMap_cons, List.length_nil, List.length_append,
            hlength] at hzero
          omega
      | cons b second =>
          obtain ⟨hhead, htail⟩ := List.append_inj h ((hlength a).trans (hlength b).symm)
          rw [hf hhead, ih htail]

theorem bitsOf_byte_injective : Function.Injective fun byte : UInt8 => bitsOf 8 byte.toNat := by
  intro first second h
  have hnumber := congrArg numberOf h
  simp only [numberOf_bitsOf] at hnumber
  rw [Nat.mod_eq_of_lt first.toNat_lt, Nat.mod_eq_of_lt second.toNat_lt] at hnumber
  exact UInt8.toNat_inj.1 hnumber

theorem bitsOfBytes_injective : Function.Injective bitsOfBytes :=
  flatMap_injective (by decide) (fun _ => length_bitsOf 8 _) bitsOf_byte_injective

end OneBit.Bit
