import Mathlib.Data.Int.ModEq
import OneBit.Proofs.Bit.Sequences
import OneBit.Proofs.Word
/-!
# Fields cut out of integers, and changed

The fields of a word are cut out of an integer by masks and shifts, in two's complement without
end.  What a mask leaves is always a value of its field, so every integer spells a word, and two
integers spell the same word exactly if they agree in the low twelve bits.  Changes of different
fields do not touch each other: after any requests the word holds what was last written to each
field.
-/

namespace OneBit

/-! ## Masks -/

namespace Field

/-- The value of the field in an integer, cut out by the mask of the field. -/
def cut (field : Field) (bits : Int) : Int := Int.land bits field.mask >>> field.position

theorem testBit_mask (field : Field) (i : Nat) :
    field.mask.testBit (field.position + i) = decide (i < field.width) := by
  rw [mask, limit, size, Nat.testBit_shiftLeft, Nat.shiftLeft_eq, Nat.one_mul,
    Nat.add_sub_cancel_left, Nat.testBit_two_pow_sub_one]
  simp

theorem cut_eq_extract (field : Field) (bits : Int) :
    field.cut bits = (field.extract bits : Nat) := by
  -- A mask has no sign, and so has nothing that it leaves of an integer.
  obtain ⟨kept, hkept⟩ : ∃ kept : Nat, Int.land bits field.mask = kept := by
    cases bits <;> exact ⟨_, rfl⟩
  have hbit (i : Nat) : kept.testBit i = (bits.testBit i && field.mask.testBit i) := by
    have h := Int.testBit_land bits field.mask i
    rw [hkept] at h
    exact h
  have hextract : (field.extract bits : Nat) =
      Bit.lowBits (bits >>> field.position) field.width := rfl
  have hvalue : kept >>> field.position = (field.extract bits : Nat) := by
    apply Nat.eq_of_testBit_eq
    intro i
    rw [Nat.testBit_shiftRight, hbit, testBit_mask, hextract]
    by_cases hi : i < field.width
    · rw [Bit.testBit_lowBits _ hi, Bit.testBit_shiftRight]
      simp [hi]
    · have hlt := Bit.lowBits_lt (bits >>> field.position) field.width
      have hle : 2 ^ field.width ≤ 2 ^ i := Nat.pow_le_pow_right (by decide) (by omega)
      rw [Nat.testBit_lt_two_pow (Nat.lt_of_lt_of_le hlt hle)]
      simp [hi]
  rw [cut, hkept, ← hvalue]
  rfl

/-- A value of the field is kept as it is. -/
theorem keep_val (field : Field) (value : Fin field.size) : field.keep (value : Nat) = value := by
  apply Fin.ext
  change ((value : Nat) % (field.size : Int)).toNat = (value : Nat)
  rw [← Int.natCast_emod, Nat.mod_eq_of_lt value.isLt, Int.toNat_natCast]

end Field

/-! ## Codes -/

theorem Instruction.exists_of_code {code : Int} (h : 0 ≤ code ∧ code ≤ 15) :
    ∃ i, ofInt code = .ok i ∧ (i.code : Int) = code := by
  obtain ⟨code, rfl⟩ := Int.eq_ofNat_of_zero_le h.1
  have hlt : code < 16 := by omega
  refine ⟨ofCode ⟨code, hlt⟩, ofInt_code ⟨code, hlt⟩, ?_⟩
  rw [code_ofCode]

theorem Control.exists_of_code {code : Int} (h : 0 ≤ code ∧ code ≤ 3) :
    ∃ c, ofInt code = .ok c ∧ (c.code : Int) = code := by
  obtain ⟨code, rfl⟩ := Int.eq_ofNat_of_zero_le h.1
  have hlt : code < 4 := by omega
  refine ⟨ofCode ⟨code, hlt⟩, ofInt_code ⟨code, hlt⟩, ?_⟩
  rw [code_ofCode]

theorem Address.value_ofInt (value : Int) : ((ofInt value).value : Int) = value % 64 := by
  change ((value % 64).toNat : Int) = value % 64
  omega

namespace Word

/-! ## Words -/

/-- The word whose fields are cut out of an integer by their masks. A code could be refused. -/
def ofMasks (bits : Int) : Except FieldError Word := do
  let instruction ← Instruction.ofInt (Field.instruction.cut bits)
  let address := Address.ofInt (Field.address.cut bits)
  let control ← Control.ofInt (Field.control.cut bits)
  return { instruction, address, control }

/-- No integer is refused: a mask leaves no more than a value of its field. -/
theorem ofMasks_eq (bits : Int) : ofMasks bits = .ok (ofBits bits) := by
  have hinstruction : Instruction.ofInt (Field.instruction.cut bits) =
      .ok (Instruction.ofBits bits) := by
    rw [Field.cut_eq_extract]
    exact Instruction.ofInt_code _
  have haddress : Address.ofInt (Field.address.cut bits) = Address.ofBits bits := by
    rw [Field.cut_eq_extract, Address.ofInt, Field.keep_val, Address.ofBits]
  have hcontrol : Control.ofInt (Field.control.cut bits) = .ok (Control.ofBits bits) := by
    rw [Field.cut_eq_extract]
    exact Control.ofInt_code _
  rw [ofMasks, hinstruction, haddress, hcontrol]
  rfl

/-- The fields of a word do not overlap, so that adding them is joining their bits. -/
theorem toBits_eq_or (w : Word) :
    w.toBits = w.instruction.code.val <<< Field.instruction.position |||
      w.address.value.val <<< Field.address.position |||
      w.control.code.val <<< Field.control.position := by
  have haddress := w.address.value.isLt
  have hcontrol : w.control.code.val <<< Field.control.position < 2 ^ Field.address.position :=
    w.control.code.isLt
  have hlow : w.address.value.val <<< Field.address.position +
      w.control.code.val <<< Field.control.position < 2 ^ Field.instruction.position := by
    rw [Nat.shiftLeft_eq]
    change _ < 4 at hcontrol
    change _ * 4 + _ < 256
    omega
  rw [toBits, Nat.add_assoc, Nat.shiftLeft_add_eq_or_of_lt hlow,
    Nat.shiftLeft_add_eq_or_of_lt hcontrol, Nat.or_assoc]

theorem ofBits_eq_ofBits_iff (n m : Int) : ofBits n = ofBits m ↔ n ≡ m [ZMOD 4096] := by
  rw [Int.ModEq, ← toBits_ofBits, ← toBits_ofBits, Int.natCast_inj, toBits_injective.eq_iff]

/-! ## Requests -/

namespace Request

/-- The number is one that is taken: a code of the field, or any number for an address. -/
def Fits : Request → Prop
  | instruction code => 0 ≤ code ∧ code ≤ 15
  | address _ => True
  | control code => 0 ≤ code ∧ code ≤ 3

instance : DecidablePred Fits
  | instruction code => inferInstanceAs (Decidable (0 ≤ code ∧ code ≤ 15))
  | address _ => inferInstanceAs (Decidable True)
  | control code => inferInstanceAs (Decidable (0 ≤ code ∧ code ≤ 3))

/-- The field that is to be changed. -/
def field : Request → Field
  | instruction _ => .instruction
  | address _ => .address
  | control _ => .control

/-- The number that is given. -/
def value : Request → Int
  | instruction code => code
  | address value => value
  | control code => code

/-- The number that is given for a field, if this one is to be changed. -/
def valueFor? (field : Field) (request : Request) : Option Int :=
  if request.field = field then some request.value else none

end Request

/-- The last of the numbers that requests give for a field. -/
def lastGiven (field : Field) (requests : List Request) : Option Int :=
  (requests.filterMap (Request.valueFor? field)).getLast?

theorem getD_lastGiven_cons (field : Field) (request : Request) (requests : List Request)
    (value : Int) :
    (lastGiven field (request :: requests)).getD value =
      (lastGiven field requests).getD ((request.valueFor? field).getD value) := by
  unfold lastGiven
  cases h : request.valueFor? field with
  | none => rw [List.filterMap_cons_none h, Option.getD_none]
  | some given =>
      rw [List.filterMap_cons_some h, List.getLast?_cons, Option.getD_some, Option.getD_some]

theorem getD_emod (given : Option Int) (value modulus : Int) :
    given.getD (value % modulus) % modulus = given.getD value % modulus := by
  cases given with
  | none => exact Int.emod_emod_of_dvd _ (Int.dvd_refl modulus)
  | some given => rfl

/-- The word after requests, one after the other, or what is wrong with the first that is
refused. -/
def serveAll (w : Word) (requests : List Request) : Except FieldError Word :=
  requests.foldlM serve w

/-- A request that fits is served. It sets its field and keeps the others. -/
theorem serve_of_fits (w : Word) {request : Request} (h : request.Fits) :
    ∃ next, w.serve request = .ok next ∧
      (next.instruction.code : Int) = (request.valueFor? .instruction).getD w.instruction.code ∧
      (next.address.value : Int) = (request.valueFor? .address).getD w.address.value % 64 ∧
      (next.control.code : Int) = (request.valueFor? .control).getD w.control.code := by
  have hlt := w.address.value.isLt
  have hkeep : (w.address.value : Int) = (w.address.value : Int) % 64 := by omega
  cases request with
  | instruction code =>
      obtain ⟨i, hi, hcode⟩ := Instruction.exists_of_code h
      refine ⟨w.update (.instruction i), ?_, hcode, hkeep, rfl⟩
      rw [serve, Request.update, hi]
      rfl
  | address value =>
      exact ⟨w.update (.address (.ofInt value)), rfl, rfl, Address.value_ofInt value, rfl⟩
  | control code =>
      obtain ⟨c, hc, hcode⟩ := Control.exists_of_code h
      refine ⟨w.update (.control c), ?_, rfl, hkeep, hcode⟩
      rw [serve, Request.update, hc]
      rfl

/-- Requests that fit are all served. The induction is on the requests, from any word: what the
first leaves in a field is what the others keep of it. -/
theorem serveAll_of_fits (w : Word) {requests : List Request}
    (h : ∀ request ∈ requests, request.Fits) :
    ∃ last, w.serveAll requests = .ok last ∧
      (last.instruction.code : Int) =
        (lastGiven .instruction requests).getD w.instruction.code ∧
      (last.address.value : Int) =
        (lastGiven .address requests).getD w.address.value % 64 ∧
      (last.control.code : Int) =
        (lastGiven .control requests).getD w.control.code := by
  induction requests generalizing w with
  | nil =>
      have hlt := w.address.value.isLt
      refine ⟨w, rfl, rfl, ?_, rfl⟩
      change (w.address.value : Int) = (w.address.value : Int) % 64
      omega
  | cons request requests ih =>
      obtain ⟨next, hnext, hi, ha, hc⟩ := w.serve_of_fits (h request (by simp))
      obtain ⟨last, hlast, hi', ha', hc'⟩ := ih next fun r hr => h r (by simp [hr])
      refine ⟨last, ?_, ?_, ?_, ?_⟩
      · rw [serveAll, List.foldlM_cons, hnext]
        exact hlast
      · rw [getD_lastGiven_cons, ← hi, hi']
      · rw [getD_lastGiven_cons, ha', ha, getD_emod]
      · rw [getD_lastGiven_cons, ← hc, hc']

/-- Every integer spells a word: the masks cut out of it what the word holds, and the bits of the
word are those of the integer without the higher ones, joined from the fields. Integers spell one
word exactly if they agree modulo `4096`, and words are one exactly if their bits are. Requests that
fit are served in any number and order, and leave in each field the number that was last given for
it, or the bits of the integer. -/
theorem holds_last_written :
    (∀ n : Int, ofMasks n = .ok (ofBits n) ∧ ((ofBits n).toBits : Int) = n % 4096) ∧
    (∀ n m : Int, ofBits n = ofBits m ↔ n ≡ m [ZMOD 4096]) ∧
    (∀ w : Word, w.toBits = w.instruction.code.val <<< Field.instruction.position |||
      w.address.value.val <<< Field.address.position |||
      w.control.code.val <<< Field.control.position) ∧
    (∀ v w : Word, v = w ↔ v.toBits = w.toBits) ∧
    ∀ (n : Int) (requests : List Request), (∀ request ∈ requests, request.Fits) →
      ∃ w, (ofBits n).serveAll requests = .ok w ∧
        (w.toBits : Int) =
          (lastGiven .instruction requests).getD (n / 256 % 16) * 256 +
          (lastGiven .address requests).getD (n / 4) % 64 * 4 +
          (lastGiven .control requests).getD (n % 4) := by
  refine ⟨fun n => ⟨ofMasks_eq n, toBits_ofBits n⟩, ofBits_eq_ofBits_iff, toBits_eq_or,
    fun v w => toBits_injective.eq_iff.symm, ?_⟩
  intro n requests h
  obtain ⟨w, hw, hi, ha, hc⟩ := (ofBits n).serveAll_of_fits h
  have hinstruction : ((ofBits n).instruction.code : Int) = n / 256 % 16 :=
    Instruction.code_ofBits n
  have haddress : ((ofBits n).address.value : Int) = n / 4 % 64 := Address.value_ofBits n
  have hcontrol : ((ofBits n).control.code : Int) = n % 4 := Control.code_ofBits n
  refine ⟨w, hw, ?_⟩
  rw [hinstruction] at hi
  rw [haddress, getD_emod] at ha
  rw [hcontrol] at hc
  rw [toBits_eq, Int.natCast_add, Int.natCast_add, Int.natCast_mul, Int.natCast_mul, hi, ha, hc]
  rfl

/-- Of two changes of the address the last counts, and the instruction is that of the integer. -/
theorem holds_last_written_negative :
    let requests : List Request := [.address (-1), .control 2, .address 71]
    (∀ request ∈ requests, request.Fits) ∧
      ∃ w, (ofBits (-1)).serveAll requests = .ok w ∧ (w.toBits : Int) = 15 * 256 + 7 * 4 + 2 := by
  intro requests
  have hfits : ∀ request ∈ requests, request.Fits := by decide
  exact ⟨hfits, holds_last_written.2.2.2.2 (-1) requests hfits⟩

end Word

end OneBit
