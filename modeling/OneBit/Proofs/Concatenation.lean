import Mathlib.Algebra.Group.Nat.Even
import OneBit.Proofs.Image
/-!
# Joining programs and images

The image of two programs, one after the other, is that of the first followed by that of the second
if the first fills its last byte.  Otherwise four zeros come between the two images that are not in
the image of both, and the bits of the second program stand at other places.

Unpacking goes from the front: bytes that are added behind others add words and change none.
-/

namespace OneBit.Image

open Bit

/-! ## Bits that can be shifted -/

/-- Bits that stay the same when zeros go from behind them to their front are all zeros: each of them
is one of the zeros, or the same as one further in front. -/
theorem eq_false_of_append_comm {bits : List Bool} {count : Nat} (hcount : 0 < count)
    (h : bits ++ List.replicate count false = List.replicate count false ++ bits) :
    ∀ bit ∈ bits, bit = false := by
  have hat : ∀ i (hi : i < bits.length), bits[i] = false := by
    intro i
    induction i using Nat.strongRecOn with
    | ind i ih =>
        intro hi
        have hget : bits[i]? = (List.replicate count false ++ bits)[i]? := by
          rw [← h, List.getElem?_append_left hi]
        by_cases hfront : i < count
        · rw [List.getElem?_append_left (by simpa using hfront), List.getElem?_replicate,
            if_pos hfront, List.getElem?_eq_getElem hi] at hget
          exact Option.some.inj hget
        · have hback : i - count < bits.length := by omega
          rw [List.getElem?_append_right (by simpa using hfront), List.length_replicate,
            List.getElem?_eq_getElem hi, List.getElem?_eq_getElem hback] at hget
          rw [Option.some.inj hget]
          exact ih (i - count) (by omega) hback
  intro bit hbit
  obtain ⟨i, hi, rfl⟩ := List.getElem_of_mem hbit
  exact hat i hi

theorem append_comm_of_eq_false {bits : List Bool} (h : ∀ bit ∈ bits, bit = false) (count : Nat) :
    bits ++ List.replicate count false = List.replicate count false ++ bits := by
  rw [List.eq_replicate_of_mem h, List.replicate_append_replicate, List.replicate_append_replicate,
    Nat.add_comm]

theorem bitsOfWord_eq_false_iff (word : Word) :
    (∀ bit ∈ bitsOfWord word, bit = false) ↔ word.toBits = 0 := by
  constructor
  · intro h
    have hzero : bitsOfWord word = bitsOf 12 0 := by
      rw [bitsOf_zero, ← length_bitsOfWord word]
      exact List.eq_replicate_of_mem h
    rw [← numberOf_bitsOfWord, hzero, numberOf_bitsOf, Nat.zero_mod]
  · intro h
    rw [bitsOfWord, h, bitsOf_zero]
    exact fun bit hbit => List.eq_of_mem_replicate hbit

theorem bitsOfWords_eq_false_iff (words : List Word) :
    (∀ bit ∈ bitsOfWords words, bit = false) ↔ ∀ word ∈ words, word.toBits = 0 := by
  simp only [bitsOfWords, List.mem_flatMap, ← bitsOfWord_eq_false_iff]
  constructor
  · intro h word hword bit hbit
    exact h bit ⟨word, hword, hbit⟩
  · rintro h bit ⟨word, hword, hbit⟩
    exact h word hword bit hbit

/-! ## Packing what is joined -/

section

variable {first second words : List Word}

theorem bitsOfWords_append (first second : List Word) :
    bitsOfWords (first ++ second) = bitsOfWords first ++ bitsOfWords second :=
  List.flatMap_append

theorem bitsOfBytes_packWords_of_even (h : Even words.length) :
    bitsOfBytes (packWords words) = bitsOfWords words := by
  have hfill : (8 - 12 * words.length % 8) % 8 = 0 := by
    rw [Nat.even_iff] at h
    omega
  rw [bitsOfBytes_packWords, hfill, List.replicate_zero, List.append_nil]

theorem bitsOfBytes_packWords_of_odd (h : ¬ Even words.length) :
    bitsOfBytes (packWords words) = bitsOfWords words ++ List.replicate 4 false := by
  have hfill : (8 - 12 * words.length % 8) % 8 = 4 := by
    rw [Nat.even_iff] at h
    omega
  rw [bitsOfBytes_packWords, hfill]

theorem packWords_append_of_even (h : Even first.length) :
    packWords (first ++ second) = packWords first ++ packWords second := by
  apply bitsOfBytes_injective
  have hfill : (8 - 12 * (first.length + second.length) % 8) % 8 =
      (8 - 12 * second.length % 8) % 8 := by
    rw [Nat.even_iff] at h
    omega
  rw [bitsOfBytes_append, bitsOfBytes_packWords_of_even h, bitsOfBytes_packWords,
    bitsOfBytes_packWords, bitsOfWords_append, List.length_append, hfill, List.append_assoc]

/-- Two halves of a byte make one byte less than two halves that are filled. -/
theorem packWords_append_ne_of_odd (hfirst : ¬ Even first.length) (hsecond : ¬ Even second.length) :
    packWords (first ++ second) ≠ packWords first ++ packWords second := by
  intro h
  have hlength := congrArg List.length h
  rw [List.length_append, length_packWords, length_packWords, length_packWords,
    List.length_append] at hlength
  rw [Nat.even_iff] at hfirst hsecond
  omega

theorem packWords_append_iff_of_even_second (hfirst : ¬ Even first.length)
    (hsecond : Even second.length) :
    packWords (first ++ second) = packWords first ++ packWords second ↔
      ∀ word ∈ second, word.toBits = 0 := by
  have hboth : ¬ Even (first ++ second).length := by
    rw [Nat.even_iff] at *
    rw [List.length_append]
    omega
  rw [← bitsOfBytes_injective.eq_iff, bitsOfBytes_append, bitsOfBytes_packWords_of_odd hboth,
    bitsOfBytes_packWords_of_odd hfirst, bitsOfBytes_packWords_of_even hsecond,
    bitsOfWords_append, List.append_assoc, List.append_assoc, List.append_cancel_left_eq,
    ← bitsOfWords_eq_false_iff]
  constructor
  · exact eq_false_of_append_comm (by decide)
  · exact fun h => append_comm_of_eq_false h 4

end

theorem wordsOf_append (a b : List Node) : wordsOf (a ++ b) = wordsOf a ++ wordsOf b :=
  List.filterMap_append

/-- The image of two programs is their images one after the other exactly if the first has an even
number of words, or the second is an even number of words that are all zero. Comments have no part
in it. -/
theorem encode_append_iff (a b : List Node) :
    (encode (a ++ b) = encode a ++ encode b ↔
      Even (wordsOf a).length ∨
        Even (wordsOf b).length ∧ ∀ word ∈ wordsOf b, word.toBits = 0) ∧
    ∀ nodes, encode ((wordsOf nodes).map .word) = encode nodes := by
  constructor
  · rw [encode, encode, encode, wordsOf_append]
    by_cases hfirst : Even (wordsOf a).length
    · exact iff_of_true (packWords_append_of_even hfirst) (.inl hfirst)
    by_cases hsecond : Even (wordsOf b).length
    · rw [packWords_append_iff_of_even_second hfirst hsecond]
      simp only [hfirst, hsecond, false_or, true_and]
    · refine iff_of_false (packWords_append_ne_of_odd hfirst hsecond) ?_
      rintro (h | ⟨h, -⟩)
      · exact hfirst h
      · exact hsecond h
  · intro nodes
    rw [encode, encode, wordsOf_map_word]

/-! ## Unpacking what is joined -/

theorem bitsOfWords_take {words : List Word} {count : Nat} (h : count ≤ words.length) :
    bitsOfWords (words.take count) = (bitsOfWords words).take (12 * count) := by
  have hlength : (bitsOfWords (words.take count)).length = 12 * count := by
    rw [length_bitsOfWords, List.length_take_of_le h]
  have hsplit : bitsOfWords words =
      bitsOfWords (words.take count) ++ bitsOfWords (words.drop count) := by
    rw [← bitsOfWords_append, List.take_append_drop]
  rw [hsplit, List.take_left' hlength]

/-- The words of bytes do not depend on what follows: they are as many words of all the bytes. -/
theorem decode_prefix_decode_append (x y : List UInt8) : decode x <+: decode (x ++ y) := by
  have hlength : (decode (x ++ y)).length = 8 * (x.length + y.length) / 12 := by
    rw [length_decode, List.length_append]
  have hle : 8 * x.length / 12 ≤ (decode (x ++ y)).length := by omega
  have hcut : 12 * (8 * x.length / 12) ≤ (bitsOfBytes x).length := by
    rw [length_bitsOfBytes]
    omega
  apply List.prefix_iff_eq_take.2
  apply bitsOfWords_injective
  rw [length_decode, bitsOfWords_take hle, bitsOfWords_decode, bitsOfWords_decode, List.take_take,
    List.length_append, Nat.min_eq_left (by omega), bitsOfBytes_append,
    List.take_append_of_le_length hcut]

/-- Three bytes are two words, so after whole triples unpacking starts afresh. -/
theorem decode_append_of_dvd {x : List UInt8} (h : 3 ∣ x.length) (y : List UInt8) :
    decode (x ++ y) = decode x ++ decode y := by
  have hwhole : 12 * (8 * x.length / 12) = (bitsOfBytes x).length := by
    rw [length_bitsOfBytes]
    omega
  have hboth : 12 * (8 * (x.length + y.length) / 12) =
      (bitsOfBytes x).length + 12 * (8 * y.length / 12) := by
    rw [length_bitsOfBytes]
    omega
  apply bitsOfWords_injective
  rw [bitsOfWords_append, bitsOfWords_decode, bitsOfWords_decode, bitsOfWords_decode,
    bitsOfBytes_append, List.length_append, hboth, hwhole, List.take_length_add_append,
    List.take_length]

/-- Bytes behind others only add words. Behind a multiple of three bytes they add their own. Behind
the image of a program, the words of the program come first, also where zeros fill its last byte. -/
theorem decode_append_extends (x y : List UInt8) :
    decode x <+: decode (x ++ y) ∧
    (3 ∣ x.length → decode (x ++ y) = decode x ++ decode y) ∧
    ∀ nodes, wordsOf nodes <+: decode (encode nodes ++ y) := by
  refine ⟨decode_prefix_decode_append x y, fun h => decode_append_of_dvd h y, ?_⟩
  intro nodes
  have h := decode_prefix_decode_append (encode nodes) y
  rw [encode, decode_packWords] at h
  exact h

/-- Two words and one more, with half a byte of filling. -/
theorem decode_append_extends_triple :
    3 ∣ ([0x4F, 0xC9, 0xA0] : List UInt8).length ∧
      decode ([0x4F, 0xC9, 0xA0] ++ [0x12, 0x30]) =
        decode [0x4F, 0xC9, 0xA0] ++ decode [0x12, 0x30] :=
  ⟨by decide, (decode_append_extends [0x4F, 0xC9, 0xA0] [0x12, 0x30]).2.1 (by decide)⟩

end OneBit.Image
