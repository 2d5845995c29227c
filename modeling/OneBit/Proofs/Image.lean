import Mathlib.Data.List.ModifyLast
import OneBit.Image
import OneBit.Proofs.Bit.Reader
import OneBit.Proofs.Word
/-!
# Images and their words

The bits of an image are those of its words and fewer than eight zeros.  Unpacking reads twelve bits
a word for as long as there are twelve, so the zeros are never taken for a word.  Two words take
three bytes: how an image ends, and what is lost when other bytes are unpacked, depends on the
number of bytes modulo three.
-/

namespace OneBit.Image

open Bit

/-! ## The bits of words -/

/-- The bits of a word. -/
def bitsOfWord (word : Word) : List Bool := bitsOf wordBits word.toBits

/-- The bits of words, one after the other. -/
def bitsOfWords (words : List Word) : List Bool := words.flatMap bitsOfWord

theorem length_bitsOfWord (word : Word) : (bitsOfWord word).length = 12 := length_bitsOf _ _

theorem length_bitsOfWords (words : List Word) : (bitsOfWords words).length = 12 * words.length := by
  induction words with
  | nil => rfl
  | cons word words ih =>
      rw [bitsOfWords, List.flatMap_cons, List.length_append, length_bitsOfWord, List.length_cons]
      rw [bitsOfWords] at ih
      omega

theorem numberOf_bitsOfWord (word : Word) : numberOf (bitsOfWord word) = word.toBits := by
  have hlt : word.toBits < 2 ^ wordBits := word.toBits_lt
  rw [bitsOfWord, numberOf_bitsOf, Nat.mod_eq_of_lt hlt]

theorem bitsOfWord_injective : Function.Injective bitsOfWord := by
  intro first second h
  apply Word.toBits_injective
  rw [← numberOf_bitsOfWord, ← numberOf_bitsOfWord, h]

theorem bitsOfWords_injective : Function.Injective bitsOfWords :=
  flatMap_injective (by decide) length_bitsOfWord bitsOfWord_injective

/-- The bits of a word are those of its fields. -/
theorem bitsOfWord_eq (word : Word) :
    bitsOfWord word = bitsOf 4 word.instruction.code ++ bitsOf 6 word.address.value ++
      bitsOf 2 word.control.code := by
  have haddress : (word.address.value : Nat) < 2 ^ 6 := word.address.value.isLt
  have hcontrol : (word.control.code : Nat) < 2 ^ 2 := word.control.code.isLt
  have hbits : word.toBits =
      (word.instruction.code.val <<< 6 + word.address.value) <<< 2 + word.control.code := by
    rw [Word.toBits_eq, Nat.shiftLeft_eq, Nat.shiftLeft_eq]
    omega
  rw [bitsOfWord, hbits]
  exact (bitsOf_shiftLeft_add 10 2 _ hcontrol).trans
    (congrArg (· ++ _) (bitsOf_shiftLeft_add 4 6 _ haddress))

theorem bitsOfWord_ofBits {bits : List Bool} (h : bits.length = 12) :
    bitsOfWord (Word.ofBits (numberOf bits)) = bits := by
  have hnumber := Word.toBits_ofBits (numberOf bits)
  have hlt := numberOf_lt bits
  rw [h] at hlt
  have hword : (Word.ofBits (numberOf bits)).toBits = numberOf bits := by omega
  have hbits := bitsOf_numberOf bits
  rw [h] at hbits
  rw [bitsOfWord, hword]
  exact hbits

/-! ## Packing -/

theorem bits_appendWord (w : Writer) (word : Word) :
    (appendWord w word).bits = w.bits ++ bitsOfWord word := by
  unfold appendWord
  rw [Writer.bits_append, Writer.bits_append, Writer.bits_append, bitsOf_lowBits, bitsOf_lowBits,
    bitsOf_lowBits, bitsOfWord_eq, List.append_assoc, List.append_assoc, List.append_assoc]
  rfl

theorem bits_foldl_appendWord (words : List Word) (w : Writer) :
    (words.foldl appendWord w).bits = w.bits ++ bitsOfWords words := by
  induction words generalizing w with
  | nil => rw [List.foldl_nil, bitsOfWords, List.flatMap_nil, List.append_nil]
  | cons word words ih =>
      rw [List.foldl_cons, ih, bits_appendWord, List.append_assoc]
      rfl

theorem pending_foldl_appendWord (words : List Word) :
    (words.foldl appendWord {}).pending = 12 * words.length % 8 := by
  induction words using List.reverseRecOn with
  | nil => rfl
  | append_singleton words word ih =>
      have hlast (w : Writer) : (appendWord w word).pending =
          (((w.pending + 4) % 8 + 6) % 8 + 2) % 8 := rfl
      rw [List.foldl_append, List.foldl_cons, List.foldl_nil, hlast, ih, List.length_append,
        List.length_singleton]
      omega

/-- The bits of an image: those of its words, and zeros up to a whole byte. -/
theorem bitsOfBytes_packWords (words : List Word) :
    bitsOfBytes (packWords words) =
      bitsOfWords words ++ List.replicate ((8 - 12 * words.length % 8) % 8) false := by
  have hpending := pending_foldl_appendWord words
  have hlt : (words.foldl appendWord {}).pending < 8 := by
    rw [hpending]
    exact Nat.mod_lt _ (by decide)
  unfold packWords
  rw [Writer.bitsOfBytes_pad hlt, bits_foldl_appendWord, Writer.bits_empty, List.nil_append,
    hpending]

theorem length_packWords (words : List Word) :
    (packWords words).length = (12 * words.length + 7) / 8 := by
  have hlength := congrArg List.length (bitsOfBytes_packWords words)
  rw [length_bitsOfBytes, List.length_append, length_bitsOfWords, List.length_replicate] at hlength
  omega

/-! ## Unpacking -/

section

variable {r next : Reader} {limit : Nat}

-- The proof is in parentheses: the equation is not to be tried by evaluating the reader.
theorem takeWords_succ (limit : Nat) (r : Reader) :
    takeWords (limit + 1) r =
      match r.read wordBits with
      | (.ok bits, next) => (Word.ofBits bits :: (takeWords limit next).1, (takeWords limit next).2)
      | (.error _, last) => ([], last) := (rfl)

theorem takeWords_succ_ok {bits : Nat} (h : r.read wordBits = (.ok bits, next)) (limit : Nat) :
    (takeWords (limit + 1) r).1 = Word.ofBits bits :: (takeWords limit next).1 := by
  rw [takeWords_succ, h]

theorem takeWords_succ_error {e : BitError} (h : r.read wordBits = (.error e, next))
    (limit : Nat) : (takeWords (limit + 1) r).1 = [] := by
  rw [takeWords_succ, h]

/-- The words that are read off a reader have its bits, twelve each, up to the last that do not
make a word. Each step takes one word off the front. -/
theorem bitsOfWords_takeWords (hr : r.Bounded) (hlimit : r.bits.length < 12 * (limit + 1)) :
    bitsOfWords (takeWords limit r).1 = r.bits.take (12 * (r.bits.length / 12)) := by
  induction limit generalizing r with
  | zero =>
      have hwords : r.bits.length / 12 = 0 := Nat.div_eq_of_lt (by omega)
      rw [hwords, Nat.mul_zero, List.take_zero]
      rfl
  | succ limit ih =>
      by_cases hcount : wordBits ≤ r.bits.length
      · obtain ⟨next, hread, hbits, hnext⟩ := Reader.read_ok hr hcount
        have hlength : next.bits.length = r.bits.length - 12 := by
          rw [hbits, List.length_drop]
          rfl
        have htwelve : 12 ≤ r.bits.length := hcount
        have hwords : 12 * (r.bits.length / 12) = 12 + 12 * (next.bits.length / 12) := by omega
        have hword : bitsOfWord (Word.ofBits (numberOf (r.bits.take wordBits))) =
            r.bits.take 12 :=
          bitsOfWord_ofBits (List.length_take_of_le hcount)
        rw [takeWords_succ_ok hread, bitsOfWords, List.flatMap_cons, hword, ← bitsOfWords,
          ih hnext (by omega), hwords, List.take_add, hbits]
        rfl
      · have hlt : r.bits.length < 12 := Nat.lt_of_not_le hcount
        obtain ⟨next, hread, -⟩ := Reader.read_short hr (Nat.lt_of_not_le hcount)
        rw [takeWords_succ_error hread, Nat.div_eq_of_lt hlt, Nat.mul_zero, List.take_zero]
        rfl

end

theorem bitsOfWords_decode (data : List UInt8) :
    bitsOfWords (decode data) = (bitsOfBytes data).take (12 * (8 * data.length / 12)) := by
  have hbits : (Reader.bits { rest := data }).length = 8 * data.length := by
    rw [Reader.bits_start, length_bitsOfBytes]
  have hlimit : (Reader.bits { rest := data }).length < 12 * (data.length + 1) := by omega
  have h := bitsOfWords_takeWords (Reader.bounded_start data) hlimit
  rw [hbits, Reader.bits_start] at h
  exact h

theorem length_decode (data : List UInt8) : (decode data).length = 8 * data.length / 12 := by
  have hlength := congrArg List.length (bitsOfWords_decode data)
  rw [length_bitsOfWords, List.length_take, length_bitsOfBytes] at hlength
  omega

/-! ## Round trips -/

theorem decode_packWords (words : List Word) : decode (packWords words) = words := by
  apply bitsOfWords_injective
  -- The filling is shorter than a word, so it adds none.
  have hcount : 12 * (8 * ((12 * words.length + 7) / 8) / 12) = 12 * words.length := by omega
  rw [bitsOfWords_decode, length_packWords, hcount, bitsOfBytes_packWords,
    List.take_left' (length_bitsOfWords words)]

/-- The bits that survive unpacking and packing: all that belong to a word. -/
theorem bitsOfBytes_packWords_decode (data : List UInt8) :
    bitsOfBytes (packWords (decode data)) =
      (bitsOfBytes data).take (12 * (8 * data.length / 12)) ++
        List.replicate ((8 - 12 * (8 * data.length / 12) % 8) % 8) false := by
  rw [bitsOfBytes_packWords, bitsOfWords_decode, length_decode]

theorem bitsOf_highNibble (byte : UInt8) :
    (bitsOf 8 byte.toNat).take 4 ++ List.replicate 4 false = bitsOf 8 (byte &&& 0xF0).toNat := by
  have hmask : bitsOf 8 (0xF0 : UInt8).toNat =
      [true, true, true, true, false, false, false, false] := by decide
  rw [UInt8.toNat_and, bitsOf_and, hmask]
  simp [bitsOf]

section

variable {front : List UInt8} {last : UInt8}

theorem packWords_decode_whole {data : List UInt8} (h : data.length % 3 = 0) :
    packWords (decode data) = data := by
  apply bitsOfBytes_injective
  have hcount : 12 * (8 * data.length / 12) = 8 * data.length := by omega
  have hfill : (8 - 8 * data.length % 8) % 8 = 0 := by omega
  rw [bitsOfBytes_packWords_decode, hcount, hfill, List.replicate_zero, List.append_nil,
    List.take_of_length_le (length_bitsOfBytes data).le]

/-- One byte too many: it makes no word. -/
theorem packWords_decode_byte (h : (front ++ [last]).length % 3 = 1) :
    packWords (decode (front ++ [last])) = front := by
  apply bitsOfBytes_injective
  rw [List.length_append, List.length_singleton] at h
  have hcount : 12 * (8 * (front.length + 1) / 12) = 8 * front.length := by omega
  have hfill : (8 - 8 * front.length % 8) % 8 = 0 := by omega
  rw [bitsOfBytes_packWords_decode, List.length_append, List.length_singleton, hcount, hfill,
    List.replicate_zero, List.append_nil, bitsOfBytes_append,
    List.take_left' (length_bitsOfBytes front)]

/-- Two bytes too many: they make a word and four bits. -/
theorem packWords_decode_nibble (h : (front ++ [last]).length % 3 = 2) :
    packWords (decode (front ++ [last])) = front ++ [last &&& 0xF0] := by
  apply bitsOfBytes_injective
  rw [List.length_append, List.length_singleton] at h
  have hcount : 12 * (8 * (front.length + 1) / 12) = 8 * front.length + 4 := by omega
  have hfill : (8 - (8 * front.length + 4) % 8) % 8 = 4 := by omega
  rw [bitsOfBytes_packWords_decode, List.length_append, List.length_singleton, hcount, hfill,
    bitsOfBytes_append, bitsOfBytes_append, ← length_bitsOfBytes, List.take_length_add_append,
    List.append_assoc, bitsOfBytes_cons, bitsOfBytes_cons, bitsOfBytes_nil, List.append_nil,
    List.append_nil, bitsOf_highNibble]

end

theorem wordsOf_map_word (words : List Word) : wordsOf (words.map Node.word) = words := by
  have hsome : Node.word? ∘ Node.word = some := rfl
  rw [wordsOf, List.filterMap_map, hsome, List.filterMap_some]

/-- Bytes are an image exactly if packing the words they hold gives them back. -/
theorem exists_encode_iff {data : List UInt8} :
    (∃ nodes, encode nodes = data) ↔ packWords (decode data) = data := by
  constructor
  · rintro ⟨nodes, rfl⟩
    rw [encode, decode_packWords]
  · intro h
    refine ⟨(decode data).map .word, ?_⟩
    rw [encode, wordsOf_map_word, h]

theorem highNibble_eq_iff (byte : UInt8) : byte &&& 0xF0 = byte ↔ byte &&& 0x0F = 0 := by
  have hsplit : byte = byte &&& 0xF0 ||| byte &&& 0x0F := by
    apply UInt8.toNat_inj.1
    rw [UInt8.toNat_or, UInt8.toNat_and, UInt8.toNat_and, ← Nat.and_or_distrib_left]
    exact (Nat.and_two_pow_sub_one_of_lt_two_pow byte.toNat_lt).symm
  constructor
  · intro h
    rw [← h, UInt8.and_assoc]
    exact UInt8.and_zero
  · intro h
    rw [h, UInt8.or_zero] at hsplit
    exact hsplit.symm

/-- Unpacking the image of a program gives its words. Packing the words of any bytes gives the bytes
without those bits at their end that make no word: none, a byte or half a byte. The images are the
bytes where these are none, or half a byte of zeros. -/
theorem image_round_trip :
    (∀ nodes, decode (encode nodes) = wordsOf nodes ∧
      (encode nodes).length = (12 * (wordsOf nodes).length + 7) / 8) ∧
    ∀ data : List UInt8,
      (decode data).length = 8 * data.length / 12 ∧
      (data.length % 3 = 0 → encode ((decode data).map .word) = data) ∧
      (data.length % 3 = 1 → encode ((decode data).map .word) = data.dropLast) ∧
      (data.length % 3 = 2 →
        encode ((decode data).map .word) = data.modifyLast (· &&& 0xF0)) ∧
      ((∃ nodes, encode nodes = data) ↔
        data.length % 3 = 0 ∨ data.length % 3 = 2 ∧ ∃ last ∈ data.getLast?, last &&& 0x0F = 0) := by
  refine ⟨fun nodes => ⟨decode_packWords _, length_packWords _⟩, fun data => ?_⟩
  rw [exists_encode_iff, encode, wordsOf_map_word]
  refine ⟨length_decode data, packWords_decode_whole, ?_⟩
  rcases List.eq_nil_or_concat data with rfl | ⟨front, last, rfl⟩
  · exact ⟨fun h => absurd h (by decide), fun h => absurd h (by decide),
      iff_of_true rfl (.inl rfl)⟩
  · rw [List.concat_eq_append, List.dropLast_concat, List.modifyLast_concat, List.getLast?_concat]
    refine ⟨packWords_decode_byte, packWords_decode_nibble, ?_⟩
    have hremainder : (front ++ [last]).length % 3 = 0 ∨ (front ++ [last]).length % 3 = 1 ∨
        (front ++ [last]).length % 3 = 2 := by omega
    rcases hremainder with h | h | h
    · exact iff_of_true (packWords_decode_whole h) (.inl h)
    · rw [packWords_decode_byte h, h]
      simp
    · rw [packWords_decode_nibble h, h, List.append_cancel_left_eq, List.singleton_inj,
        highNibble_eq_iff]
      simp

end OneBit.Image
