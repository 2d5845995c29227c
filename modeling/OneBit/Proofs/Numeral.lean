import OneBit.Proofs.Source.Step
/-!
# Numerals between two offsets

A numeral is read from a part of a text as a whole token: the longest run of token characters at the
front of the part is a numeral, or nothing is read.  A search that gives digits back one by one
finds no more, since a digit that is left over is a token character too.  Marks tell the forms apart,
so that the forms can be tried in any order.
-/

namespace OneBit

open Text

namespace Grammar

/-! ## Bounds -/

theorem Digits.lt_pow {radix value : Nat} {run : List Char} (h : Digits radix run value) :
    value < radix ^ run.length := by
  induction h with
  | nil => exact Nat.one_pos
  | @snoc run value digit c _ hdigit hc ih =>
      rw [List.length_append, List.length_singleton, Nat.pow_succ]
      calc
        value * radix + digit < (value + 1) * radix := by
          rw [Nat.succ_mul]
          omega
        _ ≤ radix ^ run.length * radix := Nat.mul_le_mul_right radix ih

theorem Digits.lt_pow_of_length_le {radix value count : Nat} {run : List Char} (hradix : 0 < radix)
    (h : Digits radix run value) (hcount : run.length ≤ count) : value < radix ^ count :=
  h.lt_pow.trans_le (Nat.pow_le_pow_right hradix hcount)

/-- Eleven octal digits are the most that a numeral holds. -/
theorem NumeralToken.lt_pow {token : List Char} {value : Nat} (h : NumeralToken token value) :
    value < 2 ^ 33 := by
  cases h with
  | binary _ hmax hrun =>
      have hlt := hrun.lt_pow_of_length_le (by decide) hmax
      omega
  | octal _ hmax hrun =>
      have hlt := hrun.lt_pow_of_length_le (by decide) hmax
      omega
  | hexadecimal _ hmax hrun =>
      have hlt := hrun.lt_pow_of_length_le (by decide) hmax
      omega

end Grammar

namespace NumeralForm

open Grammar

/-! ## Fewer digits -/

/-- So many digits stand at the front, and no token character follows them. -/
def endsAfter (radix : Nat) (body : List Char) (count : Nat) : Bool :=
  count ≤ body.length && (body.take count).all (isDigitOf radix) &&
    !(body.drop count).head?.any isTokenChar

/-- How many digits a search takes that tries more of them before fewer. -/
def tryDigits (radix : Nat) (body : List Char) : Nat → Option Nat
  | 0 => none
  | count + 1 =>
    if endsAfter radix body (count + 1) then some (count + 1) else tryDigits radix body count

section

variable {radix count : Nat} {run rest : List Char}

/-- All the digits are taken or none, since a digit that is left would be a token character. -/
theorem endsAfter_iff (h : Longest (isDigitOf radix) run rest) :
    endsAfter radix (run ++ rest) count = true ↔
      count = run.length ∧ (!rest.head?.any isTokenChar) = true := by
  simp only [endsAfter, Bool.and_eq_true, decide_eq_true_eq]
  constructor
  · rintro ⟨⟨hcount, hdigits⟩, hstop⟩
    have hlong : Longest (isDigitOf radix) ((run ++ rest).take count)
        ((run ++ rest).drop count) := by
      refine ⟨List.all_eq_true.1 hdigits, Stops.mono (fun c => isTokenChar_of_isDigitOf) ?_⟩
      intro c hc
      rw [Option.mem_def.1 hc] at hstop
      simpa using hstop
    have hrun : (run ++ rest).take count = run := by
      rw [← hlong.takeWhile_eq, List.take_append_drop, h.takeWhile_eq]
    have hlength : count = run.length := by
      rw [← hrun, List.length_take, Nat.min_eq_left hcount]
    rw [hlength, List.drop_left] at hstop
    exact ⟨hlength, hstop⟩
  · rintro ⟨rfl, hstop⟩
    rw [List.take_left, List.drop_left, List.length_append]
    exact ⟨⟨Nat.le_add_right _ _, List.all_eq_true.2 h.all⟩, hstop⟩

theorem tryDigits_eq (h : Longest (isDigitOf radix) run rest) (most : Nat) :
    tryDigits radix (run ++ rest) most =
      if 1 ≤ run.length ∧ run.length ≤ most ∧ !rest.head?.any isTokenChar then some run.length
      else none := by
  induction most with
  | zero => rw [tryDigits, if_neg (by omega)]
  | succ most ih =>
      -- Only the whole run can be taken, so the greatest count matters if it is the length.
      rw [tryDigits, ih]
      by_cases hends : endsAfter radix (run ++ rest) (most + 1) = true
      · obtain ⟨hcount, hstop⟩ := (endsAfter_iff h).1 hends
        rw [if_pos hends, if_pos ⟨by omega, by omega, hstop⟩, hcount]
      · have hless : (1 ≤ run.length ∧ run.length ≤ most + 1 ∧ !rest.head?.any isTokenChar) ↔
            1 ≤ run.length ∧ run.length ≤ most ∧ !rest.head?.any isTokenChar := by
          refine ⟨fun ⟨hpos, hmost, hstop⟩ => ⟨hpos, ?_, hstop⟩,
            fun ⟨hpos, hmost, hstop⟩ => ⟨hpos, by omega, hstop⟩⟩
          by_contra hlt
          exact hends ((endsAfter_iff h).2 ⟨by omega, hstop⟩)
        rw [if_neg hends]
        simp only [hless]

end

/-- A form takes the digits that a search takes which gives them back one by one. -/
theorem read_eq_tryDigits (form : NumeralForm) (text : List Char) :
    form.read text =
      if form.mark.toList.isPrefixOf text then
        let body := text.drop form.mark.length
        (tryDigits form.radix body form.maxDigits).map fun count =>
          (ofDigits form.radix (body.take count), form.mark.length + count)
      else none := by
  unfold read
  split_ifs with hmark
  · obtain ⟨run, rest, hbody, hlong⟩ := exists_longest (isDigitOf form.radix)
      (text.drop form.mark.length)
    simp only [hbody, hlong.takeWhile_eq, hlong.dropWhile_eq, tryDigits_eq hlong]
    split_ifs with hends
    · rw [Option.map_some, List.take_left]
    · rfl
  · rfl

end NumeralForm

namespace Numeral

open Grammar

variable {text : List Char} {start stop : Nat} {expected : Expected} {forms : List NumeralForm}

/-! ## Forms in any order -/

/-- Reads a numeral between two offsets of a text, with the forms tried in the given order. -/
def readInOrder (forms : List NumeralForm) (text : List Char) (start stop : Int)
    (expected : Expected) : Except SyntaxError (Nat × Int) :=
  if stop ≤ start then .error (.inText text start .moreInput [])
  else readWithin (readFirst forms) text start stop expected

theorem readFirst_of_perm (h : forms.Perm NumeralForm.all) : readFirst forms = read := by
  funext text
  apply Option.ext
  intro found
  rw [read, readFirst_eq_some_iff h.subset, readFirst_eq_some_iff (List.Subset.refl _)]
  simp only [h.mem_iff]

theorem readInOrder_of_perm (h : forms.Perm NumeralForm.all) (text : List Char)
    (start stop : Int) (expected : Expected) :
    readInOrder forms text start stop expected = readAt text start stop expected := by
  rw [readInOrder, readFirst_of_perm h]
  rfl

/-! ## Offsets in a text -/

theorem readWithin_eq (reader : List Char → Option (Nat × Nat)) (hstart : start ≤ stop)
    (hstop : stop ≤ text.length) :
    readWithin reader text start stop expected =
      match reader ((text.take stop).drop start) with
      | some (value, length) => .ok (value, length)
      | none => .error (.inText text start expected []) := by
  have hreach : (isUnreachable text start || isUnreachable text stop) = false := by
    rw [Source.Scan.isUnreachable_of_le (by omega), Source.Scan.isUnreachable_of_le hstop]
    rfl
  have hwindow : window text start stop = (text.take stop).drop start := rfl
  rw [readWithin, hreach, hwindow]
  cases reader ((text.take stop).drop start) with
  | none => rfl
  | some found => simp

theorem readAt_self (text : List Char) (start : Nat) (expected : Expected) :
    readAt text start start expected = .error (.inText text start .moreInput []) :=
  if_pos (Int.le_refl _)

theorem readAt_of_lt (hlt : start < stop) (hstop : stop ≤ text.length) :
    readAt text start stop expected =
      match read ((text.take stop).drop start) with
      | some (value, length) => .ok (value, length)
      | none => .error (.inText text start expected []) := by
  have hread : readAt text start stop expected = readWithin read text start stop expected :=
    if_neg (by omega)
  rw [hread, readWithin_eq read (by omega) hstop]

theorem readAt_eq_ok_iff (hstart : start ≤ stop) (hstop : stop ≤ text.length) {value : Nat}
    {consumed : Int} :
    readAt text start stop expected = .ok (value, consumed) ↔
      NumeralToken (runBetween isTokenChar text start stop) value ∧
        consumed = (runBetween isTokenChar text start stop).length := by
  obtain rfl | hlt := hstart.eq_or_lt
  · rw [readAt_self, runBetween_self]
    refine iff_of_false (fun h => by cases h) ?_
    rintro ⟨hvalue, -⟩
    exact hvalue.ne_nil rfl
  obtain ⟨rest, htext, hlong⟩ := exists_longest_runBetween isTokenChar text start stop
  rw [readAt_of_lt hlt hstop, htext]
  constructor
  · intro h
    cases hread : read (runBetween isTokenChar text start stop ++ rest) with
    | none =>
        rw [hread] at h
        cases h
    | some found =>
        rw [hread] at h
        cases h
        obtain ⟨hvalue, hlength⟩ := (numeral_read_eq_some_iff hlong).1 hread
        exact ⟨hvalue, congrArg Nat.cast hlength⟩
  · rintro ⟨hvalue, rfl⟩
    rw [(numeral_read_eq_some_iff hlong).2 ⟨hvalue, rfl⟩]

/-- Where the token is no numeral, nothing is read; at the end there is no token. -/
theorem readAt_of_no_numeral (hstart : start ≤ stop) (hstop : stop ≤ text.length)
    (h : ¬ ∃ value, NumeralToken (runBetween isTokenChar text start stop) value) :
    readAt text start stop expected =
      .error (.inText text start (if start = stop then .moreInput else expected) []) := by
  obtain rfl | hlt := hstart.eq_or_lt
  · rw [readAt_self, if_pos rfl]
  obtain ⟨rest, htext, hlong⟩ := exists_longest_runBetween isTokenChar text start stop
  have hnone : read (runBetween isTokenChar text start stop ++ rest) = none := by
    rw [Option.eq_none_iff_forall_ne_some]
    rintro ⟨value, length⟩ hsome
    exact h ⟨value, ((numeral_read_eq_some_iff hlong).1 hsome).1⟩
  rw [readAt_of_lt hlt hstop, htext, hnone, if_neg hlt.ne]

theorem eq_of_readFormAt {form other : NumeralForm} (hform : form ∈ NumeralForm.all)
    (hother : other ∈ NumeralForm.all) (hstart : start ≤ stop) (hstop : stop ≤ text.length)
    {found found' : Nat × Int} (h : readFormAt form text start stop expected = .ok found)
    (h' : readFormAt other text start stop expected = .ok found') : form = other := by
  rw [readFormAt, readWithin_eq _ hstart hstop] at h h'
  cases hread : form.read ((text.take stop).drop start) with
  | none =>
      rw [hread] at h
      cases h
  | some first =>
      cases hread' : other.read ((text.take stop).drop start) with
      | none =>
          rw [hread'] at h'
          cases h'
      | some second => exact NumeralForm.read_unique hform hother hread hread'

/-- Between two offsets of a text a numeral is read as a whole token, whatever the order of the
forms: the longest run of token characters is a numeral and is taken with its value, or there is an
error at the first offset. Only one form can read it. -/
theorem readInOrder_whole_token (text : List Char) (start stop : Nat) (hstart : start ≤ stop)
    (hstop : stop ≤ text.length) (expected : Expected) (forms : List NumeralForm)
    (hforms : forms.Perm NumeralForm.all) :
    let token := runBetween isTokenChar text start stop
    readInOrder forms text start stop expected = readAt text start stop expected ∧
    (∀ (value : Nat) (consumed : Int),
      readAt text start stop expected = .ok (value, consumed) ↔
        NumeralToken token value ∧ consumed = token.length) ∧
    (∀ value, NumeralToken token value → value < 2 ^ 33) ∧
    ((¬ ∃ value, NumeralToken token value) →
      readAt text start stop expected =
        .error (.inText text start (if start = stop then .moreInput else expected) [])) ∧
    ∀ form ∈ NumeralForm.all, ∀ other ∈ NumeralForm.all, ∀ found found',
      readFormAt form text start stop expected = .ok found →
        readFormAt other text start stop expected = .ok found' → form = other := by
  refine ⟨readInOrder_of_perm hforms text start stop expected, ?_, ?_, ?_, ?_⟩
  · intro value consumed
    exact readAt_eq_ok_iff hstart hstop
  · intro value hvalue
    exact hvalue.lt_pow
  · exact readAt_of_no_numeral hstart hstop
  · intro form hform other hother found found' h h'
    exact eq_of_readFormAt hform hother hstart hstop h h'

/-- A cut in front of a digit that is none of the form, with the forms tried in reverse. -/
theorem readInOrder_whole_token_cut :
    let text := "sto 0o778".toList
    let forms := [NumeralForm.hexadecimal, .octal, .binary]
    (4 ≤ 8 ∧ 8 ≤ text.length) ∧ forms.Perm NumeralForm.all ∧
      runBetween isTokenChar text 4 8 = "0o77".toList ∧ NumeralToken "0o77".toList 63 ∧
      readInOrder forms text (4 : Nat) (8 : Nat) .address = .ok (63, 4) := by
  intro text forms
  have hstop : 8 ≤ text.length := by decide
  have hforms : forms.Perm NumeralForm.all := by decide
  have htoken : runBetween isTokenChar text 4 8 = "0o77".toList := by decide
  have hdigits : Digits 8 ['7', '7'] 63 :=
    (digits_iff (by decide)).2 ⟨List.all_eq_true.1 (by decide), by decide⟩
  have hnumeral : NumeralToken "0o77".toList 63 := .octal (by decide) (by decide) hdigits
  obtain ⟨horder, hread, -⟩ :=
    readInOrder_whole_token text 4 8 (by decide) hstop .address forms hforms
  refine ⟨⟨by decide, hstop⟩, hforms, htoken, hnumeral, ?_⟩
  rw [horder, hread, htoken]
  exact ⟨hnumeral, rfl⟩

end Numeral

end OneBit
