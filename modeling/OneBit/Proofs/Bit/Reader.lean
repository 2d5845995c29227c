import OneBit.Bit.Reader
import OneBit.Proofs.Bit.Writer
/-!
# What a reader has left to read

A reader stands for the bits it has fetched and those of the bytes it has not.  Fetching changes
none of them.  Reading takes a field off the front, or finds too few bits and keeps them all.
-/

namespace OneBit.Bit.Reader

/-- The bits that are left to read. -/
def bits (r : Reader) : List Bool := bitsOf r.available r.acc ++ bitsOfBytes r.rest

/-- The number of a reader has no bits beyond those that are available. -/
def Bounded (r : Reader) : Prop := r.acc < 2 ^ r.available

theorem bounded_start (data : List UInt8) : Bounded { rest := data } := Nat.zero_lt_one

@[simp] theorem bits_start (data : List UInt8) : bits { rest := data } = bitsOfBytes data := rfl

variable {r : Reader} {count : Nat}

/-- Fetching stops with bits enough or without bytes. -/
theorem fetch_spec (count : Nat) (rest : List UInt8) (acc available : Nat)
    (hacc : acc < 2 ^ available) :
    (fetch count rest acc available).bits = bits ⟨rest, acc, available⟩ ∧
      (fetch count rest acc available).Bounded ∧
      (count ≤ (fetch count rest acc available).available ∨
        (fetch count rest acc available).rest = []) := by
  induction rest generalizing acc available with
  | nil => exact ⟨rfl, hacc, .inr rfl⟩
  | cons byte rest ih =>
      rw [fetch]
      split_ifs with henough
      · have hbyte : byte.toNat < 2 ^ 8 := byte.toNat_lt
        have hnext : acc <<< 8 + byte.toNat < 2 ^ (available + 8) := by
          rw [Nat.shiftLeft_eq, Nat.pow_add]
          omega
        obtain ⟨hbits, hbounded, hstop⟩ := ih _ _ hnext
        refine ⟨?_, hbounded, hstop⟩
        rw [hbits, bits, bits, bitsOf_shiftLeft_add _ _ _ hbyte, bitsOfBytes_cons, List.append_assoc]
      · exact ⟨rfl, hacc, .inl (by simpa using henough)⟩

theorem length_bits (r : Reader) : r.bits.length = r.available + 8 * r.rest.length := by
  rw [bits, List.length_append, length_bitsOf, length_bitsOfBytes]

/-- A field of the fetched bits, cut off the front of all that are left. -/
theorem bits_split {left : Nat} (hleft : r.available = count + left) :
    r.bits = bitsOf count (r.acc >>> left) ++ bits ⟨r.rest, lowBits r.acc left, left⟩ := by
  rw [bits, bits, hleft, bitsOf_add, bitsOf_lowBits, List.append_assoc]

theorem shiftRight_acc {left : Nat} (hr : r.Bounded) (hleft : r.available = count + left) :
    r.acc >>> left = numberOf (bitsOf count (r.acc >>> left)) := by
  have hlt : r.acc >>> left < 2 ^ count := by
    rw [Nat.shiftRight_eq_div_pow]
    apply Nat.div_lt_of_lt_mul
    rw [← Nat.pow_add, Nat.add_comm, ← hleft]
    exact hr
  rw [numberOf_bitsOf, Nat.mod_eq_of_lt hlt]

/-- Bits enough: the field is read off the front. -/
theorem read_ok (hr : r.Bounded) (hcount : count ≤ r.bits.length) :
    ∃ next : Reader, r.read count = (.ok (numberOf (r.bits.take count)), next) ∧
      next.bits = r.bits.drop count ∧ next.Bounded := by
  obtain ⟨hbits, hbounded, hstop⟩ := fetch_spec count r.rest r.acc r.available hr
  unfold read
  dsimp only
  -- From here on only the specification of fetching counts.
  generalize fetch count r.rest r.acc r.available = fetched at *
  have hlength : fetched.bits.length = r.bits.length := congrArg List.length hbits
  have henough : count ≤ fetched.available := by
    rcases hstop with h | h
    · exact h
    · rw [length_bits, h, List.length_nil] at hlength
      omega
  obtain ⟨left, hleft⟩ := Nat.exists_eq_add_of_le henough
  have hdrop : (fetched.available - count : Int).toNat = left := by omega
  have hsplit : r.bits = _ := hbits.symm.trans (bits_split hleft)
  refine ⟨⟨fetched.rest, lowBits fetched.acc left, left⟩, ?_, ?_, lowBits_lt fetched.acc left⟩
  · rw [if_neg (by omega), hdrop, hsplit, List.take_left' (length_bitsOf _ _),
      ← shiftRight_acc hbounded hleft]
  · rw [hsplit, List.drop_left' (length_bitsOf _ _)]

/-- Too few bits: all are kept, and none is behind those that were fetched. -/
theorem read_short (hr : r.Bounded) (hcount : r.bits.length < count) :
    ∃ next : Reader, r.read count = (.error (.short r.bits.length count), next) ∧
      next.bits = r.bits ∧ next.Bounded ∧ next.rest = [] := by
  obtain ⟨hbits, hbounded, hstop⟩ := fetch_spec count r.rest r.acc r.available hr
  unfold read
  dsimp only
  generalize fetch count r.rest r.acc r.available = fetched at *
  have hlength : fetched.bits.length = r.bits.length := congrArg List.length hbits
  rw [length_bits] at hlength
  have hrest : fetched.rest = [] := by
    rcases hstop with h | h
    · omega
    · exact h
  rw [hrest, List.length_nil, Nat.mul_zero, Nat.add_zero] at hlength
  refine ⟨fetched, ?_, hbits, hbounded, hrest⟩
  rw [if_pos (by omega), hlength]

end OneBit.Bit.Reader
