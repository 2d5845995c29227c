import Mathlib.Data.Int.Bitwise
import OneBit.Proofs.Bit.Reader
/-!
# Sequences of writes and reads

A writer that serves any requests holds the bits that they append, one field after the other, and
nothing else of them: its state is a function of these bits.  A reader that is asked for any fields
gives out the bits of its bytes in order, and a read that finds too few of them takes none.
-/

namespace OneBit.Bit

/-! ## Fields of integers -/

/-- The low bits of an integer in two's complement, the most significant first. -/
def fieldBits (value : Int) (count : Nat) : List Bool :=
  (List.range count).reverse.map value.testBit

theorem fieldBits_succ (value : Int) (count : Nat) :
    fieldBits value (count + 1) = value.testBit count :: fieldBits value count := by
  rw [fieldBits, List.range_succ, List.reverse_append, List.reverse_singleton,
    List.singleton_append, List.map_cons, fieldBits]

theorem testBit_lowBits (value : Int) {count i : Nat} (hi : i < count) :
    (lowBits value count).testBit i = value.testBit i := by
  cases value with
  | ofNat value =>
      change (lowBits (value : Nat) count).testBit i = value.testBit i
      rw [lowBits_natCast, Nat.testBit_mod_two_pow]
      simp [hi]
  | negSucc value =>
      -- A negative integer is kept as what its complement leaves of all ones.
      have hlt : value % 2 ^ count < 2 ^ count := Nat.mod_lt _ (Nat.two_pow_pos count)
      have hpos : (0 : Int) < (2 ^ count : Nat) := Int.natCast_pos.2 (Nat.two_pow_pos count)
      have hlow : lowBits (Int.negSucc value) count = 2 ^ count - (value % 2 ^ count + 1) := by
        rw [lowBits_eq, Int.negSucc_emod value hpos, ← Int.natCast_emod]
        omega
      change _ = !value.testBit i
      rw [hlow, Nat.testBit_two_pow_sub_succ hlt, Nat.testBit_mod_two_pow]
      simp [hi]

theorem bitsOf_eq_fieldBits {count number : Nat} {value : Int}
    (h : ∀ i < count, number.testBit i = value.testBit i) :
    bitsOf count number = fieldBits value count := by
  induction count with
  | zero => rfl
  | succ count ih =>
      rw [bitsOf, fieldBits_succ, h count (by omega), ih fun i hi => h i (by omega)]

theorem bitsOf_lowBits_int (value : Int) (count : Nat) :
    bitsOf count (lowBits value count) = fieldBits value count :=
  bitsOf_eq_fieldBits fun _ hi => testBit_lowBits value hi

theorem testBit_shiftRight (value : Int) (back i : Nat) :
    (value >>> back).testBit i = value.testBit (back + i) := by
  cases value with
  | ofNat value => exact Nat.testBit_shiftRight value
  | negSucc value => exact congrArg not (Nat.testBit_shiftRight value)

/-- A field cut in two. -/
theorem fieldBits_add (value : Int) (front back : Nat) :
    fieldBits value (front + back) = fieldBits (value >>> back) front ++ fieldBits value back := by
  induction front with
  | zero => rw [Nat.zero_add]; rfl
  | succ front ih =>
      rw [Nat.add_right_comm, fieldBits_succ, fieldBits_succ, testBit_shiftRight, ih,
        List.cons_append, Nat.add_comm back]

/-! ## Writers in normal form -/

namespace Writer

variable {w w' : Writer}

/-- Fewer bits than a byte are pending, and the number has no bits beyond them. -/
structure Normal (w : Writer) : Prop where
  pending_lt : w.pending < 8
  acc_lt : w.acc < 2 ^ w.pending

theorem normal_empty : Normal {} := ⟨by decide, by decide⟩

theorem normal_append (w : Writer) (value : Int) (count : Nat) :
    (w.append value count).Normal where
  pending_lt := Nat.mod_lt _ (by decide)
  acc_lt := by
    unfold append
    dsimp only
    exact lowBits_lt _ _

theorem Normal.pad (hw : w.Normal) : w.pad.Normal := by
  unfold Writer.pad
  split_ifs with hzero
  · exact hw
  · exact normal_append _ _ _

theorem Normal.written_eq (hw : w.Normal) : w.written = w.bits.length / 8 := by
  have hlt := hw.pending_lt
  rw [length_bits, written]
  omega

theorem Normal.pending_eq (hw : w.Normal) : w.pending = w.bits.length % 8 := by
  have hlt := hw.pending_lt
  rw [length_bits]
  omega

theorem bitsOfBytes_bytes (w : Writer) : bitsOfBytes w.bytes = w.bits.take (8 * w.written) := by
  rw [bits, written, ← length_bitsOfBytes, List.take_left]

theorem Normal.acc_eq (hw : w.Normal) :
    w.acc = numberOf (w.bits.drop (w.bits.length - w.pending)) := by
  have hbytes : w.bits.length - w.pending = (bitsOfBytes w.bytes).length := by
    rw [length_bits, length_bitsOfBytes]
    omega
  rw [hbytes, bits, List.drop_left, numberOf_bitsOf, Nat.mod_eq_of_lt hw.acc_lt]

/-- The bits of a writer in normal form say all about it. -/
theorem Normal.eq_of_bits (hw : w.Normal) (hw' : w'.Normal) (h : w.bits = w'.bits) : w = w' := by
  have hpending : w.pending = w'.pending := by rw [hw.pending_eq, hw'.pending_eq, h]
  have hwritten : w.written = w'.written := by rw [hw.written_eq, hw'.written_eq, h]
  have hacc : w.acc = w'.acc := by rw [hw.acc_eq, hw'.acc_eq, h, hpending]
  have hbytes : w.bytes = w'.bytes := by
    apply bitsOfBytes_injective
    rw [bitsOfBytes_bytes, bitsOfBytes_bytes, h, hwritten]
  cases w
  cases w'
  simp_all

/-! ## One request -/

/-- The bits after a request: a field appends its own, one of negative width none, and padding
appends zeros up to a whole byte. -/
def Request.extend (bits : List Bool) : Request → List Bool
  | .write value count => if count < 0 then bits else bits ++ fieldBits value count.toNat
  | .pad => bits ++ List.replicate ((8 - bits.length % 8) % 8) false

theorem serve_write_neg (w : Writer) (value : Int) {count : Int} (h : count < 0) :
    w.serve (.write value count) = (.error .negativeCount, w) := by
  rw [serve, write, if_pos h]

theorem serve_write (w : Writer) (value : Int) {count : Int} (h : 0 ≤ count) :
    w.serve (.write value count) = (.ok (), w.append value count.toNat) := by
  rw [serve, write, if_neg (by omega)]

theorem bits_pad (hw : w.Normal) :
    w.pad.bits = w.bits ++ List.replicate ((8 - w.bits.length % 8) % 8) false := by
  have hpending : w.pad.pending = 0 := by
    have hlt := hw.pending_lt
    unfold pad
    split_ifs with hzero
    · exact hzero
    · rw [pending_append]
      omega
  rw [← hw.pending_eq, ← bitsOfBytes_pad hw.pending_lt, bits, hpending, bitsOf, List.append_nil]

theorem normal_serve (hw : w.Normal) (request : Request) : (w.serve request).2.Normal := by
  cases request with
  | write value count =>
      by_cases hneg : count < 0
      · rw [serve_write_neg w value hneg]
        exact hw
      · rw [serve_write w value (by omega)]
        exact normal_append _ _ _
  | pad => exact hw.pad

theorem bits_serve (hw : w.Normal) (request : Request) :
    (w.serve request).2.bits = request.extend w.bits := by
  cases request with
  | write value count =>
      by_cases hneg : count < 0
      · rw [serve_write_neg w value hneg, Request.extend, if_pos hneg]
      · rw [serve_write w value (by omega), Request.extend, if_neg hneg, bits_append,
          bitsOf_lowBits_int]
  | pad => exact bits_pad hw

/-! ## All requests -/

/-- The bits that requests append, one after the other. -/
def bitString (requests : List Request) : List Bool := requests.foldl Request.extend []

/-- A new writer after requests, one after the other. -/
def after (requests : List Request) : Writer :=
  requests.foldl (fun w request => (w.serve request).2) {}

theorem after_concat (requests : List Request) (request : Request) :
    after (requests ++ [request]) = ((after requests).serve request).2 := by
  rw [after, List.foldl_append]
  rfl

theorem bitString_append_singleton (requests : List Request) (request : Request) :
    bitString (requests ++ [request]) = request.extend (bitString requests) := by
  rw [bitString, List.foldl_append]
  rfl

theorem normal_after (requests : List Request) : (after requests).Normal := by
  induction requests using List.reverseRecOn with
  | nil => exact normal_empty
  | append_singleton requests request ih =>
      rw [after_concat]
      exact normal_serve ih request

theorem bits_after (requests : List Request) : (after requests).bits = bitString requests := by
  induction requests using List.reverseRecOn with
  | nil => rfl
  | append_singleton requests request ih =>
      rw [after_concat, bits_serve (normal_after requests), ih,
        bitString_append_singleton]

/-- Requests that append the same bits leave the same writer. -/
theorem after_eq_of_bitString {first second : List Request}
    (h : bitString first = bitString second) : after first = after second := by
  apply (normal_after first).eq_of_bits (normal_after second)
  rw [bits_after, bits_after, h]

theorem bitString_split (requests : List Request) (value : Int) (front back : Nat) :
    bitString (requests ++ [.write (value >>> back) front, .write value back]) =
      bitString (requests ++ [.write value (front + back)]) := by
  rw [← List.singleton_append, ← List.append_assoc, bitString_append_singleton,
    bitString_append_singleton, bitString_append_singleton]
  have hfront : ¬ (front : Int) < 0 := by omega
  have hback : ¬ (back : Int) < 0 := by omega
  have hboth : ¬ (front + back : Int) < 0 := by omega
  simp only [Request.extend, if_neg hfront, if_neg hback, if_neg hboth, Int.toNat_natCast]
  rw [List.append_assoc, ← fieldBits_add]
  rfl

theorem bitString_pad_pad (requests : List Request) :
    bitString (requests ++ [.pad, .pad]) = bitString (requests ++ [.pad]) := by
  rw [← List.singleton_append, ← List.append_assoc, bitString_append_singleton,
    bitString_append_singleton]
  have hwhole : (Request.pad.extend (bitString requests)).length % 8 = 0 := by
    rw [Request.extend, List.length_append, List.length_replicate]
    omega
  rw [Request.extend, hwhole, Nat.sub_zero, Nat.mod_self, List.replicate_zero, List.append_nil]

/-- After any requests a writer holds the bits they append: the whole bytes of them are written,
and the bits behind are pending. Only a field of negative width is refused, and it changes nothing.
Hence a field may be written in two parts, and a second padding does nothing. -/
theorem after_holds_bitString (requests : List Request) :
    let w := after requests
    let bits := bitString requests
    (w.pending = bits.length % 8 ∧ w.pending < 8 ∧
      w.acc = numberOf (bits.drop (bits.length - w.pending)) ∧ w.acc < 2 ^ w.pending ∧
      w.written = bits.length / 8 ∧ bitsOfBytes w.bytes = bits.take (8 * w.written)) ∧
    (∀ value count : Int, w.serve (.write value count) =
      if count < 0 then (.error .negativeCount, w)
      else (.ok (), after (requests ++ [.write value count]))) ∧
    w.serve .pad = (.ok (), after (requests ++ [.pad])) ∧
    (∀ (value : Int) (front back : Nat),
      after (requests ++ [.write (value >>> back) front, .write value back]) =
        after (requests ++ [.write value (front + back)])) ∧
    after (requests ++ [.pad, .pad]) = after (requests ++ [.pad]) := by
  intro w bits
  have hw : w.Normal := normal_after requests
  have hbits : w.bits = bits := bits_after requests
  refine ⟨?_, ?_, ?_, ?_, ?_⟩
  · rw [← hbits]
    exact ⟨hw.pending_eq, hw.pending_lt, hw.acc_eq, hw.acc_lt, hw.written_eq, bitsOfBytes_bytes w⟩
  · intro value count
    split_ifs with hneg
    · exact serve_write_neg w value hneg
    · rw [after_concat, serve_write _ value (by omega)]
  · rw [after_concat]
    rfl
  · intro value front back
    exact after_eq_of_bitString (bitString_split requests value front back)
  · exact after_eq_of_bitString (bitString_pad_pad requests)

example : after [.write (-1) 3, .write 5 (-2), .write 1029 11, .pad] = ⟨[0xF0, 0x14], 0, 0⟩ := by
  decide

end Writer

namespace Reader

variable {r : Reader}

/-! ## One read -/

/-- The bits that a read has given out. -/
def givenBits (count : Nat) : Except BitError Nat → List Bool
  | .ok value => bitsOf count value
  | .error _ => []

/-- A read gives out what it takes. -/
theorem givenBits_read (hr : r.Bounded) (count : Nat) :
    givenBits count (r.read count).1 ++ (r.read count).2.bits = r.bits ∧
      (r.read count).2.Bounded := by
  by_cases hcount : count ≤ r.bits.length
  · obtain ⟨next, hread, hbits, hnext⟩ := read_ok hr hcount
    have htake : bitsOf count (numberOf (r.bits.take count)) = r.bits.take count := by
      have h := bitsOf_numberOf (r.bits.take count)
      rwa [List.length_take_of_le hcount] at h
    rw [hread, givenBits, htake, hbits, List.take_append_drop]
    exact ⟨rfl, hnext⟩
  · obtain ⟨next, hread, hbits, hnext, -⟩ := read_short hr (Nat.lt_of_not_le hcount)
    rw [hread, givenBits, hbits, List.nil_append]
    exact ⟨rfl, hnext⟩

/-! ## All reads -/

/-- A reader after reads of the given widths, one after the other, whether they succeed or not. -/
def after (r : Reader) (counts : List Nat) : Reader :=
  counts.foldl (fun r (count : Nat) => (r.read count).2) r

/-- What these reads give, one after the other. -/
def outcomes (r : Reader) : List Nat → List (Except BitError Nat)
  | [] => []
  | count :: counts => (r.read count).1 :: (r.read count).2.outcomes counts

/-- The bits that these reads have given out. -/
def given (r : Reader) (counts : List Nat) : List Bool :=
  (List.zipWith givenBits counts (r.outcomes counts)).flatten

/-- The bits of bytes that reads have not given out. -/
def ungiven (data : List UInt8) (counts : List Nat) : List Bool :=
  (bitsOfBytes data).drop (given { rest := data } counts).length

theorem given_cons (r : Reader) (count : Nat) (counts : List Nat) :
    r.given (count :: counts) =
      givenBits count (r.read count).1 ++ (r.read count).2.given counts := rfl

/-- What was given out and what is left are all bits there were. -/
theorem given_append_bits (hr : r.Bounded) (counts : List Nat) :
    r.given counts ++ (r.after counts).bits = r.bits ∧ (r.after counts).Bounded := by
  induction counts generalizing r with
  | nil => exact ⟨rfl, hr⟩
  | cons count counts ih =>
      obtain ⟨hbits, hnext⟩ := givenBits_read hr count
      obtain ⟨hlater, hlast⟩ := ih hnext
      refine ⟨?_, hlast⟩
      rw [given_cons, List.append_assoc, ← hbits, ← hlater]
      rfl

theorem bits_after (data : List UInt8) (counts : List Nat) :
    (after { rest := data } counts).bits = ungiven data counts := by
  have hall := (given_append_bits (bounded_start data) counts).1
  rw [bits_start] at hall
  rw [ungiven, ← hall, List.drop_left]

theorem after_concat (data : List UInt8) (counts : List Nat) (count : Nat) :
    after { rest := data } (counts ++ [count]) = ((after { rest := data } counts).read count).2 := by
  rw [after, List.foldl_append]
  rfl

section

variable {data : List UInt8} {counts : List Nat} {count : Nat}

theorem read_after_of_le (h : count ≤ (ungiven data counts).length) :
    ((after { rest := data } counts).read count).1 =
        .ok (numberOf ((ungiven data counts).take count)) ∧
      ungiven data (counts ++ [count]) = (ungiven data counts).drop count := by
  have hr := (given_append_bits (bounded_start data) counts).2
  rw [← bits_after] at h
  obtain ⟨next, hread, hbits, -⟩ := read_ok hr h
  rw [← bits_after, ← bits_after, after_concat, hread]
  exact ⟨rfl, hbits⟩

theorem read_after_of_lt (h : (ungiven data counts).length < count) :
    ((after { rest := data } counts).read count).1 =
        .error (.short (ungiven data counts).length count) ∧
      (after { rest := data } (counts ++ [count])).available = (ungiven data counts).length ∧
      (after { rest := data } (counts ++ [count])).rest = [] ∧
      ungiven data (counts ++ [count]) = ungiven data counts := by
  have hr := (given_append_bits (bounded_start data) counts).2
  rw [← bits_after] at h
  obtain ⟨next, hread, hbits, -, hrest⟩ := read_short hr h
  have hlength := next.length_bits
  rw [hrest, List.length_nil, Nat.mul_zero, Nat.add_zero, hbits] at hlength
  rw [← bits_after, ← bits_after, after_concat, hread]
  exact ⟨rfl, hlength.symm, hrest, hbits⟩

end

/-- The bits of bytes are given out in order, each of them once. A read succeeds exactly if its bits
are left, and takes them. One that fails tells how many are left and fetches them all, but they stay
left, and reads that ask for fewer find them. -/
theorem reads_give_bits_in_order (data : List UInt8) (counts : List Nat) :
    given { rest := data } counts ++ ungiven data counts = bitsOfBytes data ∧
    let r := after { rest := data } counts
    let left := ungiven data counts
    bitsOf r.available r.acc ++ bitsOfBytes r.rest = left ∧
    r.acc < 2 ^ r.available ∧
    ∀ count : Nat,
      let next := after { rest := data } (counts ++ [count])
      ((∃ value, (r.read count).1 = .ok value) ↔ count ≤ left.length) ∧
      (count ≤ left.length →
        (r.read count).1 = .ok (numberOf (left.take count)) ∧
          ungiven data (counts ++ [count]) = left.drop count) ∧
      (left.length < count →
        (∃ e, (r.read count).1 = .error e ∧
          e.message = s!"{left.length} bits left, {count} requested") ∧
        next.available = left.length ∧ next.rest = [] ∧
        ungiven data (counts ++ [count]) = left ∧
        ∀ fewer ≤ left.length, (next.read fewer).1 = .ok (numberOf (left.take fewer))) := by
  obtain ⟨hall, hr⟩ := given_append_bits (bounded_start data) counts
  rw [bits_after, bits_start] at hall
  refine ⟨hall, ?_⟩
  intro r left
  refine ⟨bits_after data counts, hr, ?_⟩
  intro count next
  have hfits : count ≤ left.length → _ := read_after_of_le
  have hshort : left.length < count → _ := read_after_of_lt
  refine ⟨⟨?_, fun h => ⟨_, (hfits h).1⟩⟩, hfits, ?_⟩
  · rintro ⟨value, hvalue⟩
    apply Nat.le_of_not_lt
    intro h
    rw [(hshort h).1] at hvalue
    cases hvalue
  · intro h
    obtain ⟨hread, havailable, hrest, hleft⟩ := hshort h
    refine ⟨⟨_, hread, rfl⟩, havailable, hrest, hleft, ?_⟩
    intro fewer hfewer
    have hfound : fewer ≤ (ungiven data (counts ++ [count])).length := by
      rw [hleft]
      exact hfewer
    have hnext := (read_after_of_le hfound).1
    rw [hleft] at hnext
    exact hnext

/-- After four bits of two bytes a read of twenty fails, and one of five gives the next five. -/
theorem reads_give_bits_in_order_after_short :
    let r := after { rest := [0xAB, 0xCD] } [4]
    let next := after { rest := [0xAB, 0xCD] } [4, 20]
    ungiven [0xAB, 0xCD] [4] = bitsOf 12 0xBCD ∧
      (∃ e, (r.read 20).1 = .error e ∧ e.message = "12 bits left, 20 requested") ∧
      next = ⟨[], 0xBCD, 12⟩ ∧ (next.read 5).1 = .ok 0b10111 := by
  have hleft : ungiven [0xAB, 0xCD] [4] = bitsOf 12 0xBCD := by decide
  obtain ⟨-, -, -, hreads⟩ := reads_give_bits_in_order [0xAB, 0xCD] [4]
  obtain ⟨herror, -, -, -, hfewer⟩ := (hreads 20).2.2 (by rw [hleft]; decide)
  have hfive := hfewer 5 (by rw [hleft]; decide)
  rw [hleft] at herror hfive
  exact ⟨hleft, herror, by decide, hfive⟩

end Reader

end OneBit.Bit
