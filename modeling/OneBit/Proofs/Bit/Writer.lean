import OneBit.Proofs.Bit.Bits
/-!
# What a writer has written

A writer stands for the bits of its bytes and its pending bits.  Appending a field appends its bits,
and padding appends zeros.  Whether whole bytes are put out at once or one after the other makes no
difference.
-/

namespace OneBit.Bit

theorem lowBits_eq (value : Int) (count : Nat) :
    lowBits value count = (value % (2 ^ count : Nat)).toNat := by
  rw [lowBits, Nat.shiftLeft_eq, Nat.one_mul]

theorem lowBits_natCast (value count : Nat) : lowBits value count = value % 2 ^ count := by
  rw [lowBits_eq, ← Int.natCast_emod, Int.toNat_natCast]

theorem bitsOf_lowBits (value count : Nat) :
    bitsOf count (lowBits value count) = bitsOf count value := by
  rw [lowBits_natCast, bitsOf_mod]

theorem lowBits_lt (value : Int) (count : Nat) : lowBits value count < 2 ^ count := by
  have hpos : (0 : Int) < (2 ^ count : Nat) := Int.natCast_pos.2 (Nat.two_pow_pos count)
  have hlt := Int.emod_lt_of_pos value hpos
  have hnonneg := Int.emod_nonneg value (Int.ne_of_gt hpos)
  rw [lowBits_eq]
  omega

/-- The whole bytes and the bits behind them are all the bits of a number. The induction is on the
bytes, the last of which is cut off with the bits behind it. -/
theorem bitsOfBytes_wholeBytes (number count : Nat) :
    bitsOfBytes (wholeBytes number count) ++ bitsOf (count % 8) number = bitsOf count number := by
  have hbytes (whole behind : Nat) :
      bitsOfBytes ((List.range whole).map fun i =>
        UInt8.ofNat (number >>> (8 * whole + behind - 8 * (i + 1)))) ++ bitsOf behind number =
      bitsOf (8 * whole + behind) number := by
    induction whole generalizing behind with
    | zero => rw [Nat.mul_zero, Nat.zero_add, List.range_zero, List.map_nil, bitsOfBytes_nil,
        List.nil_append]
    | succ whole ih =>
        have hcount : 8 * (whole + 1) + behind = 8 * whole + (8 + behind) := by omega
        have hlast : 8 * whole + (8 + behind) - 8 * (whole + 1) = behind := by omega
        have hbyte : bitsOf 8 (UInt8.ofNat (number >>> behind)).toNat =
            bitsOf 8 (number >>> behind) := by
          rw [UInt8.toNat_ofNat', bitsOf_mod]
        rw [hcount, List.range_succ, List.map_append, bitsOfBytes_append, List.append_assoc,
          List.map_singleton, hlast, bitsOfBytes_cons, bitsOfBytes_nil, List.append_nil, hbyte,
          ← bitsOf_add, ih]
  have hcount : 8 * (count / 8) + count % 8 = count := Nat.div_add_mod count 8
  have h := hbytes (count / 8) (count % 8)
  rw [hcount] at h
  exact h

namespace Writer

/-- The bits that were written. -/
def bits (w : Writer) : List Bool := bitsOfBytes w.bytes ++ bitsOf w.pending w.acc

@[simp] theorem bits_empty : bits {} = [] := rfl

theorem length_bits (w : Writer) : w.bits.length = 8 * w.bytes.length + w.pending := by
  rw [bits, List.length_append, length_bitsOfBytes, length_bitsOf]

@[simp] theorem bits_append (w : Writer) (value : Int) (count : Nat) :
    (w.append value count).bits = w.bits ++ bitsOf count (lowBits value count) := by
  unfold append bits
  dsimp only
  rw [bitsOfBytes_append, bitsOf_lowBits, List.append_assoc, bitsOfBytes_wholeBytes,
    bitsOf_shiftLeft_add _ _ _ (lowBits_lt value count), List.append_assoc]

/-! ## Byte by byte -/

/-- Puts out a byte as long as there are eight pending bits. -/
def flush (w : Writer) : Writer :=
  if 8 ≤ w.pending then
    let left := w.pending - 8
    flush { w with bytes := w.bytes ++ [UInt8.ofNat (w.acc >>> left &&& 0xFF)], pending := left }
  else w
termination_by w.pending

/-- Appends the low bits of a value to the pending ones, and then puts out byte by byte. -/
def appendBytewise (w : Writer) (value : Int) (count : Nat) : Writer :=
  let w := flush { w with
    acc := w.acc <<< count ||| lowBits value count
    pending := w.pending + count }
  { w with acc := w.acc &&& ((1 <<< w.pending) - 1) }

theorem wholeBytes_of_lt {count : Nat} (h : count < 8) (number : Nat) :
    wholeBytes number count = [] := by
  rw [wholeBytes, Nat.div_eq_of_lt h, List.range_zero, List.map_nil]

theorem wholeBytes_of_le {count : Nat} (h : 8 ≤ count) (number : Nat) :
    wholeBytes number count =
      UInt8.ofNat (number >>> (count - 8)) :: wholeBytes number (count - 8) := by
  have hbytes : count / 8 = (count - 8) / 8 + 1 := by omega
  rw [wholeBytes, wholeBytes, hbytes, List.range_succ_eq_map, List.map_cons, List.map_map]
  refine congrArg _ (List.map_congr_left fun i _ => ?_)
  have hshift : count - 8 * (i + 1 + 1) = count - 8 - 8 * (i + 1) := by omega
  exact congrArg (fun shift => UInt8.ofNat (number >>> shift)) hshift

theorem flush_eq (w : Writer) :
    w.flush = ⟨w.bytes ++ wholeBytes w.acc w.pending, w.acc, w.pending % 8⟩ := by
  fun_induction flush w with
  | case1 w h left ih =>
      -- A byte keeps no more of a number than the mask does.
      have hbyte : UInt8.ofNat (w.acc >>> left &&& 0xFF) = UInt8.ofNat (w.acc >>> left) := by
        apply UInt8.toNat_inj.1
        rw [UInt8.toNat_ofNat', UInt8.toNat_ofNat', Nat.and_two_pow_sub_one_eq_mod _ 8, Nat.mod_mod]
      have hpending : left % 8 = w.pending % 8 := by omega
      rw [ih, wholeBytes_of_le h, hbyte, List.append_assoc, hpending]
      rfl
  | case2 w h =>
      rw [wholeBytes_of_lt (by omega), List.append_nil, Nat.mod_eq_of_lt (by omega)]

/-- Nothing is lost by putting all whole bytes out at once. -/
theorem append_eq_appendBytewise (w : Writer) (value : Int) (count : Nat) :
    w.append value count = w.appendBytewise value count := by
  have hor : w.acc <<< count ||| lowBits value count = w.acc <<< count + lowBits value count :=
    (Nat.shiftLeft_add_eq_or_of_lt (lowBits_lt value count) w.acc).symm
  have hacc (number left : Nat) : lowBits number left = number &&& ((1 <<< left) - 1) := by
    rw [lowBits_natCast, Nat.shiftLeft_eq, Nat.one_mul, Nat.and_two_pow_sub_one_eq_mod]
  unfold append appendBytewise
  simp only [flush_eq, hor, hacc]

theorem pending_append (w : Writer) (value : Int) (count : Nat) :
    (w.append value count).pending = (w.pending + count) % 8 := rfl

/-- A padded writer has no pending bits, and all its bits are in its bytes. -/
theorem bitsOfBytes_pad {w : Writer} (hw : w.pending < 8) :
    bitsOfBytes w.pad.bytes = w.bits ++ List.replicate ((8 - w.pending) % 8) false := by
  by_cases hzero : w.pending = 0
  · rw [pad, if_pos hzero, bits, hzero, bitsOf, Nat.sub_zero, Nat.mod_self, List.replicate_zero,
      List.append_nil, List.append_nil]
  · have hfill : (8 - w.pending) % 8 = 8 - w.pending := Nat.mod_eq_of_lt (by omega)
    have hpending : (w.append 0 (8 - w.pending)).pending = 0 := by
      rw [pending_append]
      omega
    have hlow : lowBits 0 (8 - w.pending) = 0 := by
      rw [lowBits_eq, Int.zero_emod, Int.toNat_zero]
    have hbits := bits_append w 0 (8 - w.pending)
    rw [hlow, bitsOf_zero, bits, hpending, bitsOf, List.append_nil] at hbits
    rw [pad, if_neg hzero, hfill, hbits]

end Writer

end OneBit.Bit
