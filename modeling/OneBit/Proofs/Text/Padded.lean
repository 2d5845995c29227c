import OneBit.Proofs.Source.Printing
/-!
# Numbers of a fixed width

A number is written in capital digits with zeros in front, up to a width and no further: a number
that needs more digits has none in front.
-/

namespace OneBit

open Text

namespace Grammar

theorem Digits.append {radix front back : Nat} {run rest : List Char}
    (hrun : Digits radix run front) (hrest : Digits radix rest back) :
    Digits radix (run ++ rest) (front * radix ^ rest.length + back) := by
  induction hrest with
  | nil =>
      rw [List.append_nil, List.length_nil, Nat.pow_zero, Nat.mul_one, Nat.add_zero]
      exact hrun
  | @snoc rest back digit c _ hdigit hc ih =>
      have hvalue : front * radix ^ (rest ++ [c]).length + (back * radix + digit) =
          (front * radix ^ rest.length + back) * radix + digit := by
        rw [List.length_append, List.length_singleton, Nat.pow_succ, Nat.add_mul, Nat.mul_assoc,
          Nat.add_assoc]
      rw [← List.append_assoc, hvalue]
      exact ih.snoc hdigit hc

theorem toUpper_digitChar_toUpper {digit : Nat} (h : digit < 16) :
    digit.digitChar.toUpper.toUpper = digit.digitChar.toUpper := by
  interval_cases digit <;> decide

theorem Digits.capitals {radix value : Nat} {run : List Char} (hradix : radix ≤ 16)
    (h : Digits radix run value) : Digits radix (capitals run) value := by
  induction h with
  | nil => exact .nil
  | @snoc run value digit c _ hdigit hc ih =>
      rw [Text.capitals, List.map_append, List.map_singleton]
      refine ih.snoc hdigit (.inr ?_)
      rcases hc with rfl | rfl
      · rfl
      · exact toUpper_digitChar_toUpper (by omega)

theorem Digits.isDigitOf {radix value : Nat} {run : List Char} (hradix : radix ≤ 16)
    (h : Digits radix run value) {c : Char} (hc : c ∈ run) : isDigitOf radix c = true :=
  ((digits_iff hradix).1 h).1 c hc

theorem Digits.ofDigits_eq {radix value : Nat} {run : List Char} (hradix : radix ≤ 16)
    (h : Digits radix run value) : ofDigits radix run = value :=
  ((digits_iff hradix).1 h).2.symm

end Grammar

namespace Text

open Grammar

/-- A number in capital digits of a radix, with zeros in front up to a width and no further. -/
structure Padded (radix width number : Nat) (text : List Char) : Prop where
  digits : Digits radix text number
  capital : ∀ c ∈ text, c.toUpper = c
  wide : width ≤ text.length
  tight : width < text.length → text.head? ≠ some '0'

variable {radix width number : Nat}

theorem toUpper_eq_of_mem_capitals {run : List Char} {value : Nat} (hradix : radix ≤ 16)
    (h : Digits radix run value) : ∀ c ∈ capitals run, c.toUpper = c := by
  intro c hc
  obtain ⟨d, hd, rfl⟩ := List.mem_map.1 hc
  obtain ⟨digit, hdigit, hvalue⟩ := isDigitOf_iff.1 (h.isDigitOf hradix hd)
  obtain ⟨hlt, rfl | rfl⟩ := digitValue?_eq_some_iff.1 hvalue
  · exact toUpper_digitChar_toUpper hlt
  · rw [toUpper_digitChar_toUpper hlt, toUpper_digitChar_toUpper hlt]

/-- The digits of a number that is not zero begin with none. The induction follows the digits from
the last to the first. -/
theorem exists_head_digits (hradix : 1 < radix) (hnumber : 0 < number) :
    ∃ digit, 0 < digit ∧ digit < radix ∧ (digits radix number).head? = some digit.digitChar := by
  induction number using Nat.strong_induction_on with
  | _ number ih =>
      rw [digits, Nat.toDigits_eq_if hradix]
      split_ifs with hlt
      · exact ⟨number, hnumber, hlt, rfl⟩
      · have hquotient : 0 < number / radix := Nat.div_pos (by omega) (by omega)
        obtain ⟨digit, hpos, hdigit, hhead⟩ :=
          ih (number / radix) (Nat.div_lt_self hnumber hradix) hquotient
        refine ⟨digit, hpos, hdigit, ?_⟩
        rw [digits] at hhead
        rw [List.head?_append, hhead]
        rfl

theorem paddedDigits_eq_digits (h : width ≤ (digits radix number).length) :
    paddedDigits radix width number = digits radix number := by
  rw [paddedDigits, List.leftpad, Nat.sub_eq_zero_of_le h, List.replicate_zero, List.nil_append]

theorem length_capitals (text : List Char) : (capitals text).length = text.length :=
  List.length_map _

theorem width_le_length_paddedDigits : width ≤ (paddedDigits radix width number).length := by
  rw [paddedDigits, List.length_leftpad]
  exact Nat.le_max_left _ _

theorem head?_capitals_paddedDigits (hradix : 1 < radix) (hradix' : radix ≤ 16) (hwidth : 0 < width)
    (h : width < (paddedDigits radix width number).length) :
    (capitals (paddedDigits radix width number)).head? ≠ some '0' := by
  have hlong : width < (digits radix number).length := by
    rw [paddedDigits, List.length_leftpad] at h
    omega
  have hpos : 0 < number := by
    by_contra hzero
    obtain rfl : number = 0 := by omega
    have hone : (Nat.toDigits radix 0).length ≤ width :=
      (Nat.length_toDigits_le_iff hradix hwidth).2 (Nat.pow_pos (by omega))
    exact absurd hone (Nat.not_le.2 hlong)
  obtain ⟨digit, hdigit, hlt, hhead⟩ := exists_head_digits hradix hpos
  rw [paddedDigits_eq_digits hlong.le, capitals, List.head?_map, hhead]
  have hbound : digit < 16 := by omega
  clear hlt hhead
  interval_cases digit <;> decide

theorem padded_capitals (hradix : 1 < radix) (hradix' : radix ≤ 16) (hwidth : 0 < width)
    (number : Nat) : Padded radix width number (capitals (paddedDigits radix width number)) where
  digits := (digits_paddedDigits hradix width number).capitals hradix'
  capital := toUpper_eq_of_mem_capitals hradix' (digits_paddedDigits hradix width number)
  wide := by
    rw [length_capitals]
    exact width_le_length_paddedDigits
  tight := by
    rw [length_capitals]
    exact head?_capitals_paddedDigits hradix hradix' hwidth

theorem Padded.notMem_lineFeed {text : List Char} (hradix : radix ≤ 16)
    (h : Padded radix width number text) : '\n' ∉ text := by
  intro hmem
  have hdigit := h.digits.isDigitOf hradix hmem
  exact absurd (isTokenChar_of_isDigitOf hdigit) (by decide)

end Text

end OneBit
