import OneBit.Proofs.Bit.Sequences
/-!
# Fields that are read back

Integers are written as fields of any widths, one after the other, and zeros fill the last byte.
A reader that asks for the same widths gets each integer without its higher bits.  What it has left
are the zeros: writer and reader both stand for the bits of the fields, so no field needs to start
or end with a byte.
-/

namespace OneBit.Bit

/-- The bits of fields, each an integer and its width, one after the other. -/
def fieldsBits (fields : List (Int × Nat)) : List Bool :=
  fields.flatMap fun field => fieldBits field.1 field.2

theorem length_fieldBits (value : Int) (count : Nat) : (fieldBits value count).length = count := by
  rw [fieldBits, List.length_map, List.length_reverse, List.length_range]

theorem numberOf_fieldBits (value : Int) (count : Nat) :
    numberOf (fieldBits value count) = (value % 2 ^ count).toNat := by
  rw [← bitsOf_lowBits_int, numberOf_bitsOf, Nat.mod_eq_of_lt (lowBits_lt value count), lowBits_eq,
    Nat.cast_pow, Nat.cast_ofNat]

namespace Writer

/-- The requests that write fields and fill the last byte. -/
def fieldRequests (fields : List (Int × Nat)) : List Request :=
  fields.map (fun field => .write field.1 field.2) ++ [.pad]

/-- The bytes that a new writer holds once it has written fields. -/
def bytesOfFields (fields : List (Int × Nat)) : List UInt8 := (after (fieldRequests fields)).bytes

theorem bitString_writes (fields : List (Int × Nat)) :
    bitString (fields.map fun field => .write field.1 field.2) = fieldsBits fields := by
  induction fields using List.reverseRecOn with
  | nil => rfl
  | append_singleton fields field ih =>
      have hcount : ¬ (field.2 : Int) < 0 := by omega
      rw [List.map_append, List.map_singleton, bitString_append_singleton, ih, Request.extend,
        if_neg hcount, Int.toNat_natCast, fieldsBits, fieldsBits, List.flatMap_append,
        List.flatMap_singleton]

/-- The bytes of fields: their bits, and zeros up to a whole byte. -/
theorem exists_bitsOfBytes_fields (fields : List (Int × Nat)) : ∃ left < 8,
    bitsOfBytes (bytesOfFields fields) = fieldsBits fields ++ List.replicate left false := by
  have hpad : after (fieldRequests fields) =
      (after (fields.map fun field => .write field.1 field.2)).pad :=
    after_concat _ .pad
  have hlt := (normal_after (fields.map fun field => .write field.1 field.2)).pending_lt
  have hbytes := bitsOfBytes_pad hlt
  rw [bits_after, bitString_writes, ← hpad] at hbytes
  exact ⟨_, Nat.mod_lt _ (by decide), hbytes⟩

end Writer

namespace Reader

variable {r : Reader}

/-- Reads of the widths of the fields at the front give the fields. Each read takes one field off
the bits that are left. -/
theorem outcomes_fields (hr : r.Bounded) (fields : List (Int × Nat)) {rest : List Bool}
    (h : r.bits = fieldsBits fields ++ rest) :
    r.outcomes (fields.map Prod.snd) =
        fields.map (fun field => .ok (field.1 % 2 ^ field.2).toNat) ∧
      (r.after (fields.map Prod.snd)).bits = rest ∧ (r.after (fields.map Prod.snd)).Bounded := by
  induction fields generalizing r with
  | nil => exact ⟨rfl, h, hr⟩
  | cons field fields ih =>
      have hlength := length_fieldBits field.1 field.2
      rw [fieldsBits, List.flatMap_cons, List.append_assoc] at h
      have hcount : field.2 ≤ r.bits.length := by
        rw [h, List.length_append]
        omega
      obtain ⟨next, hread, hbits, hnext⟩ := read_ok hr hcount
      rw [h, List.take_left' hlength, numberOf_fieldBits] at hread
      rw [h, List.drop_left' hlength] at hbits
      obtain ⟨houtcomes, hlast⟩ := ih hnext hbits
      have hafter : r.after ((field :: fields).map Prod.snd) =
          next.after (fields.map Prod.snd) := by
        rw [List.map_cons, after, List.foldl_cons, hread]
        rfl
      rw [hafter, List.map_cons, outcomes, hread, houtcomes]
      exact ⟨rfl, hlast⟩

/-- A reader with fewer than eight bits left, all of them zeros. -/
theorem eq_of_bits_zeros (hr : r.Bounded) {left : Nat} (hleft : left < 8)
    (h : r.bits = List.replicate left false) : r = ⟨[], 0, left⟩ := by
  obtain ⟨rest, acc, available⟩ := r
  have hlength := congrArg List.length h
  rw [length_bits, List.length_replicate] at hlength
  dsimp only at hlength
  obtain rfl : rest = [] := List.eq_nil_of_length_eq_zero (by omega)
  obtain rfl : available = left := by
    rw [List.length_nil] at hlength
    omega
  have hacc : acc < 2 ^ available := hr
  rw [bits, bitsOfBytes_nil, List.append_nil, ← bitsOf_zero] at h
  have hnumber := congrArg numberOf h
  rw [numberOf_bitsOf, numberOf_bitsOf, Nat.mod_eq_of_lt hacc, Nat.zero_mod] at hnumber
  rw [hnumber]

/-- Fields that were written are read back, each without its higher bits. No byte is left then, and
fewer than eight bits, which are zeros. -/
theorem fields_read_back (fields : List (Int × Nat)) :
    outcomes { rest := Writer.bytesOfFields fields } (fields.map Prod.snd) =
        fields.map (fun field => .ok (field.1 % 2 ^ field.2).toNat) ∧
      ∃ left < 8,
        ungiven (Writer.bytesOfFields fields) (fields.map Prod.snd) = List.replicate left false ∧
        after { rest := Writer.bytesOfFields fields } (fields.map Prod.snd) = ⟨[], 0, left⟩ := by
  obtain ⟨left, hleft, hdata⟩ := Writer.exists_bitsOfBytes_fields fields
  obtain ⟨houtcomes, hbits, hlast⟩ := outcomes_fields (bounded_start _) fields hdata
  refine ⟨houtcomes, left, hleft, ?_, eq_of_bits_zeros hlast hleft hbits⟩
  rw [← bits_after]
  exact hbits

example :
    outcomes { rest := Writer.bytesOfFields [(-1, 3), (5, 0), (0xABC, 11)] } [3, 0, 11] =
      [.ok 7, .ok 0, .ok 0x2BC] := by
  decide

end Reader

end OneBit.Bit
