import Mathlib.Data.List.Nodup
import Mathlib.Tactic.IntervalCases
import OneBit.Mnemonic
import OneBit.Proofs.Source.Grammar
/-!
# Whole tokens

Numerals and mnemonics are read as whole tokens: from a text that starts with the longest run of
token characters, the readers take exactly this run or nothing.
-/

namespace OneBit.Grammar

open Text

/-! ## Characters -/

section

variable {c : Char}

theorem isAlphanum_iff : c.isAlphanum = true ↔
    (65 ≤ c.toNat ∧ c.toNat ≤ 90 ∨ 97 ≤ c.toNat ∧ c.toNat ≤ 122) ∨
      48 ≤ c.toNat ∧ c.toNat ≤ 57 := by
  change (decide (c.val ≥ 65 ∧ c.val ≤ 90) ||
    decide (c.val ≥ 97) && decide (c.val ≤ 122) ||
    decide (c.val ≥ 48) && decide (c.val ≤ 57)) = true ↔ _
  simp only [Bool.or_eq_true, Bool.and_eq_true, decide_eq_true_eq, ge_iff_le,
    UInt32.le_iff_toNat_le, Char.toNat_val]
  rfl

/-- Names and numerals are made of the same ASCII characters. -/
theorem isNameChar_eq_isTokenChar (hc : c.toNat < 0x80) : isNameChar c = isTokenChar c := by
  have hhigh : decide (0x80 ≤ c.toNat) = false := by simpa using hc
  have hascii : asciiAlphanumerics.contains c = c.isAlphanum := by
    rw [Bool.eq_iff_iff, isAlphanum_iff]
    simp only [CodeRanges.contains, asciiAlphanumerics, List.any_cons, List.any_nil,
      Bool.or_eq_true, Bool.and_eq_true, decide_eq_true_eq, Bool.false_eq_true, or_false]
    omega
  unfold isNameChar isAlphanumeric isTokenChar
  rw [hhigh, Bool.false_and, Bool.or_false, hascii]

theorem toNat_of_isTokenChar (h : isTokenChar c = true) : 33 ≤ c.toNat ∧ c.toNat < 0x80 := by
  unfold isTokenChar at h
  rw [Bool.or_eq_true, isAlphanum_iff, beq_iff_eq] at h
  rcases h with h | rfl
  · omega
  · decide

theorem isNameChar_of_isTokenChar (h : isTokenChar c = true) : isNameChar c = true := by
  rw [isNameChar_eq_isTokenChar (toNat_of_isTokenChar h).2]
  exact h

theorem not_isBlank_of_isTokenChar (h : isTokenChar c = true) : isBlank c = false := by
  have hc := toNat_of_isTokenChar h
  rw [← Bool.not_eq_true]
  simp only [isBlank, CodeRanges.contains, blankRanges, List.any_cons, List.any_nil,
    Bool.or_eq_true, Bool.and_eq_true, decide_eq_true_eq, Bool.false_eq_true, or_false]
  omega

end

/-! ## Digits -/

theorem digitValue?_eq_some_iff {c : Char} {digit : Nat} :
    digitValue? c = some digit ↔
      digit < 16 ∧ (c = digit.digitChar ∨ c = digit.digitChar.toUpper) := by
  constructor
  · intro h
    have hofNat : c = Char.ofNat c.toNat := (Char.ofNat_toNat c).symm
    simp only [digitValue?, Char.le_def, UInt32.le_iff_toNat_le] at h
    change (if 48 ≤ c.toNat ∧ c.toNat ≤ 57 then some (c.toNat - 48)
      else if 97 ≤ c.toNat ∧ c.toNat ≤ 102 then some (c.toNat - 97 + 10)
      else if 65 ≤ c.toNat ∧ c.toNat ≤ 70 then some (c.toNat - 65 + 10) else none) =
        some digit at h
    generalize c.toNat = n at h hofNat
    subst hofNat
    split_ifs at h with hdecimal hlower hupper
    all_goals
      cases h
      obtain ⟨hlow, hhigh⟩ := ‹_ ∧ _›
      interval_cases n <;> decide
  · rintro ⟨hlt, rfl | rfl⟩
    · interval_cases digit <;> decide
    · interval_cases digit <;> decide

theorem isDigitOf_iff {radix : Nat} {c : Char} :
    isDigitOf radix c = true ↔ ∃ digit < radix, digitValue? c = some digit := by
  cases hc : digitValue? c with
  | none => simp [isDigitOf, hc]
  | some digit => simp [isDigitOf, hc]

theorem ofDigits_snoc (base : Nat) (run : List Char) (c : Char) :
    ofDigits base (run ++ [c]) = ofDigits base run * base + (digitValue? c).getD 0 := by
  rw [ofDigits, List.foldl_append]
  rfl

/-- A run of digits is described by its characters, and its value is the number they spell. -/
theorem digits_iff {radix : Nat} (hradix : radix ≤ 16) {run : List Char} {value : Nat} :
    Digits radix run value ↔
      (∀ c ∈ run, isDigitOf radix c = true) ∧ value = ofDigits radix run := by
  constructor
  · intro h
    induction h with
    | nil => exact ⟨by simp, rfl⟩
    | @snoc run value digit c _ hdigit hc ih =>
        have hvalue := digitValue?_eq_some_iff.2 ⟨by omega, hc⟩
        refine ⟨?_, by rw [ofDigits_snoc, hvalue, ih.2, Option.getD_some]⟩
        intro d hd
        rcases List.mem_append.1 hd with hd | hd
        · exact ih.1 d hd
        · rw [List.mem_singleton.1 hd]
          exact isDigitOf_iff.2 ⟨digit, hdigit, hvalue⟩
  · rintro ⟨hrun, rfl⟩
    induction run using List.reverseRecOn with
    | nil => exact .nil
    | append_singleton run c ih =>
        obtain ⟨digit, hdigit, hvalue⟩ := isDigitOf_iff.1 (hrun c (by simp))
        rw [ofDigits_snoc, hvalue, Option.getD_some]
        exact (ih fun d hd => hrun d (by simp [hd])).snoc hdigit
          (digitValue?_eq_some_iff.1 hvalue).2

theorem isTokenChar_of_isDigitOf {radix : Nat} {c : Char} (h : isDigitOf radix c = true) :
    isTokenChar c = true := by
  obtain ⟨digit, _, hvalue⟩ := isDigitOf_iff.1 h
  obtain ⟨hlt, rfl | rfl⟩ := digitValue?_eq_some_iff.1 hvalue
  · interval_cases digit <;> decide
  · interval_cases digit <;> decide

/-! ## Numerals -/

section

variable {token rest : List Char} {form : NumeralForm}

/-- A prefix of token characters lies within the longest run of them. -/
theorem prefix_of_prefix_append {p : Char → Bool} {mark : List Char}
    (hmark : ∀ c ∈ mark, p c = true) (h : Longest p token rest)
    (hstart : mark <+: token ++ rest) : mark <+: token := by
  by_contra hnot
  obtain ⟨more, hmore⟩ := hstart
  rcases List.append_eq_append_iff.1 hmore with ⟨t, htoken, -⟩ | ⟨t, hmark', hrest⟩
  · exact hnot ⟨t, htoken.symm⟩
  · cases t with
    | nil => exact hnot ⟨[], by simp [hmark']⟩
    | cons c t =>
        have hc := hmark c (by simp [hmark'])
        have hstop := h.stops
        rw [hrest, List.cons_append, stops_cons, hc] at hstop
        cases hstop

/-- A form reads from the longest token exactly its mark and digits up to the end of the token. -/
theorem NumeralForm.read_eq_some_iff (hmark : ∀ c ∈ form.mark.toList, isTokenChar c = true)
    (h : Longest isTokenChar token rest) {value length : Nat} :
    form.read (token ++ rest) = some (value, length) ↔
      ∃ run, token = form.mark.toList ++ run ∧ run ≠ [] ∧ run.length ≤ form.maxDigits ∧
        (∀ c ∈ run, isDigitOf form.radix c = true) ∧ value = ofDigits form.radix run ∧
          length = token.length := by
  have hlength : form.mark.length = form.mark.toList.length := String.length_toList.symm
  have hdigit : ∀ c, isDigitOf form.radix c = true → isTokenChar c = true :=
    fun c => isTokenChar_of_isDigitOf
  constructor
  · intro hread
    rw [NumeralForm.read] at hread
    split_ifs at hread with hstart
    obtain ⟨t, rfl⟩ :=
      prefix_of_prefix_append hmark h (List.isPrefixOf_iff_prefix.1 hstart)
    obtain ⟨run, tail, rfl, hrun⟩ := exists_longest (isDigitOf form.radix) t
    rw [List.append_assoc, hlength, List.drop_left] at hread
    cases tail with
    | nil =>
        have hlong : Longest (isDigitOf form.radix) (run ++ []) rest :=
          ⟨by simpa using hrun.all, h.stops.mono hdigit⟩
        simp only [hlong.takeWhile_eq, hlong.dropWhile_eq] at hread
        split_ifs at hread with hcond
        cases hread
        refine ⟨run, by simp, ?_, by simpa using hcond.2.1, hrun.all, by simp, by simp⟩
        rintro rfl
        simp at hcond
    | cons c tail =>
        -- A token character that is no digit follows the digits, so the form does not match.
        have hlong : Longest (isDigitOf form.radix) run (c :: tail ++ rest) :=
          ⟨hrun.all, by simpa using hrun.stops⟩
        have hc : isTokenChar c = true := h.all c (by simp)
        simp only [List.append_assoc run, hlong.takeWhile_eq, hlong.dropWhile_eq] at hread
        simp [hc] at hread
  · rintro ⟨run, rfl, hne, hmax, hrun, rfl, rfl⟩
    have hlong : Longest (isDigitOf form.radix) run rest := ⟨hrun, h.stops.mono hdigit⟩
    have hpos : 1 ≤ run.length := List.length_pos_iff.2 hne
    have hstart : form.mark.toList.isPrefixOf (form.mark.toList ++ run ++ rest) = true := by
      rw [List.isPrefixOf_iff_prefix, List.append_assoc]
      exact List.prefix_append _ _
    have hstop : (rest.head?.any isTokenChar) = false := by
      cases rest with
      | nil => rfl
      | cons c rest => simpa using h.stops
    rw [NumeralForm.read, if_pos hstart, List.append_assoc, hlength, List.drop_left]
    simp [hlong.takeWhile_eq, hlong.dropWhile_eq, hpos, hmax, hstop]

theorem length_mark : ∀ form ∈ NumeralForm.all, form.mark.toList.length = 2 := by
  decide

theorem mark_isTokenChar (hform : form ∈ NumeralForm.all) :
    ∀ c ∈ form.mark.toList, isTokenChar c = true := by
  have hmarks : ∀ form ∈ NumeralForm.all, form.mark.toList.all isTokenChar = true := by
    decide
  exact List.all_eq_true.1 (hmarks form hform)

theorem eq_of_mark_eq : ∀ form ∈ NumeralForm.all, ∀ other ∈ NumeralForm.all,
    form.mark.toList = other.mark.toList → form = other := by
  decide

theorem NumeralForm.mark_prefix_of_read {text : List Char} {found : Nat × Nat}
    (hread : form.read text = some found) : form.mark.toList <+: text := by
  rw [NumeralForm.read] at hread
  split_ifs at hread with hstart
  exact List.isPrefixOf_iff_prefix.1 hstart

/-- No two forms read from one text. -/
theorem NumeralForm.read_unique {other : NumeralForm} {text : List Char} {found found' : Nat × Nat}
    (hform : form ∈ NumeralForm.all) (hother : other ∈ NumeralForm.all)
    (hread : form.read text = some found) (hread' : other.read text = some found') :
    form = other := by
  apply eq_of_mark_eq form hform other hother
  have hlength : form.mark.toList.length = other.mark.toList.length := by
    rw [length_mark form hform, length_mark other hother]
  have hstart := List.prefix_of_prefix_length_le (NumeralForm.mark_prefix_of_read hread)
    (NumeralForm.mark_prefix_of_read hread') hlength.le
  exact hstart.eq_of_length hlength

/-- Whatever the order of the forms, the first that matches is the only one. -/
theorem readFirst_eq_some_iff {forms : List NumeralForm} (hforms : forms ⊆ NumeralForm.all)
    {text : List Char} {found : Nat × Nat} :
    Numeral.readFirst forms text = some found ↔ ∃ form ∈ forms, form.read text = some found := by
  constructor
  · intro h
    obtain ⟨form, hform, hread⟩ := List.exists_of_findSome?_eq_some h
    exact ⟨form, hform, hread⟩
  · rintro ⟨form, hform, hread⟩
    cases hfirst : Numeral.readFirst forms text with
    | none => simp [List.findSome?_eq_none_iff.1 hfirst form hform] at hread
    | some found' =>
        obtain ⟨other, hother, hread'⟩ := List.exists_of_findSome?_eq_some hfirst
        have heq := NumeralForm.read_unique (hforms hform) (hforms hother) hread hread'
        rw [← hread, ← hread', heq]

theorem exists_form_iff {value : Nat} :
    (∃ form ∈ NumeralForm.all, ∃ run, token = form.mark.toList ++ run ∧ run ≠ [] ∧
      run.length ≤ form.maxDigits ∧ (∀ c ∈ run, isDigitOf form.radix c = true) ∧
        value = ofDigits form.radix run) ↔ NumeralToken token value := by
  constructor
  · rintro ⟨form, hform, run, rfl, hne, hmax, hrun, rfl⟩
    rcases List.mem_cons.1 hform with rfl | hform
    · exact .binary hne hmax ((digits_iff (by decide)).2 ⟨hrun, rfl⟩)
    rcases List.mem_cons.1 hform with rfl | hform
    · exact .octal hne hmax ((digits_iff (by decide)).2 ⟨hrun, rfl⟩)
    rcases List.mem_singleton.1 hform with rfl
    exact .hexadecimal hne hmax ((digits_iff (by decide)).2 ⟨hrun, rfl⟩)
  · intro h
    cases h with
    | binary hne hmax hrun =>
        obtain ⟨hdigits, hvalue⟩ := (digits_iff (by decide)).1 hrun
        exact ⟨.binary, by decide, _, rfl, hne, hmax, hdigits, hvalue⟩
    | octal hne hmax hrun =>
        obtain ⟨hdigits, hvalue⟩ := (digits_iff (by decide)).1 hrun
        exact ⟨.octal, by decide, _, rfl, hne, hmax, hdigits, hvalue⟩
    | hexadecimal hne hmax hrun =>
        obtain ⟨hdigits, hvalue⟩ := (digits_iff (by decide)).1 hrun
        exact ⟨.hexadecimal, by decide, _, rfl, hne, hmax, hdigits, hvalue⟩

/-- From a longest token, a numeral is read exactly if the whole token is one. -/
theorem numeral_read_eq_some_iff (h : Longest isTokenChar token rest) {value length : Nat} :
    Numeral.read (token ++ rest) = some (value, length) ↔
      NumeralToken token value ∧ length = token.length := by
  rw [Numeral.read, readFirst_eq_some_iff (List.Subset.refl _), ← exists_form_iff]
  constructor
  · rintro ⟨form, hform, hread⟩
    obtain ⟨run, htoken, hne, hmax, hrun, hvalue, hlength⟩ :=
      (NumeralForm.read_eq_some_iff (mark_isTokenChar hform) h).1 hread
    exact ⟨⟨form, hform, run, htoken, hne, hmax, hrun, hvalue⟩, hlength⟩
  · rintro ⟨⟨form, hform, run, htoken, hne, hmax, hrun, hvalue⟩, hlength⟩
    exact ⟨form, hform, (NumeralForm.read_eq_some_iff (mark_isTokenChar hform) h).2
      ⟨run, htoken, hne, hmax, hrun, hvalue, hlength⟩⟩

theorem NumeralToken.isTokenChar {value : Nat} (h : NumeralToken token value) :
    ∀ c ∈ token, isTokenChar c = true := by
  obtain ⟨form, hform, run, rfl, -, -, hrun, -⟩ := exists_form_iff.2 h
  intro c hc
  rcases List.mem_append.1 hc with hc | hc
  · exact mark_isTokenChar hform c hc
  · exact isTokenChar_of_isDigitOf (hrun c hc)

theorem NumeralToken.ne_nil {value : Nat} (h : NumeralToken token value) : token ≠ [] := by
  cases h <;> simp

end

/-! ## Mnemonics -/

section

variable {token rest : List Char}

theorem spellings_eq (i : Instruction) :
    i.spellings.map String.toList = [i.mixedCase.toList, i.mixedCase.toList.map Char.toLower,
      i.mixedCase.toList.map Char.toUpper] := by
  cases i <;> decide

theorem length_of_mem_spelled : ∀ entry ∈ Mnemonic.spelled, entry.1.length ∈ [4, 3, 2] := by
  decide

theorem mem_table_iff {entry : List Char × Instruction} :
    entry ∈ Mnemonic.table ↔ entry ∈ Mnemonic.spelled := by
  simp only [Mnemonic.table, List.mem_flatMap, List.mem_filter, beq_iff_eq]
  constructor
  · rintro ⟨_, _, hentry, _⟩
    exact hentry
  · intro hentry
    exact ⟨_, length_of_mem_spelled entry hentry, hentry, rfl⟩

theorem spelling_iff_mem_table {i : Instruction} :
    Spelling i token ↔ (token, i) ∈ Mnemonic.table := by
  have hspelled : (token, i) ∈ Mnemonic.spelled ↔ token ∈ i.spellings.map String.toList := by
    simp [Mnemonic.spelled, Instruction.mem_all]
  rw [mem_table_iff, hspelled, spellings_eq]
  simp [Spelling]

theorem nodup_spellings : (Mnemonic.table.map Prod.fst).Nodup := by
  decide

/-- No spelling belongs to two instructions. -/
theorem eq_of_mem_table {entry other : List Char × Instruction} (hentry : entry ∈ Mnemonic.table)
    (hother : other ∈ Mnemonic.table) (h : entry.1 = other.1) : entry = other :=
  List.inj_on_of_nodup_map nodup_spellings hentry hother h

theorem isTokenChar_of_mem_table {entry : List Char × Instruction}
    (hentry : entry ∈ Mnemonic.table) : entry.1 ≠ [] ∧ ∀ c ∈ entry.1, isTokenChar c = true := by
  have hspelled : ∀ entry ∈ Mnemonic.spelled, entry.1 ≠ [] ∧ entry.1.all isTokenChar = true := by
    decide
  obtain ⟨hne, hchars⟩ := hspelled entry (mem_table_iff.1 hentry)
  exact ⟨hne, List.all_eq_true.1 hchars⟩

section

variable {i : Instruction}

theorem Spelling.ne_nil (h : Spelling i token) : token ≠ [] :=
  (isTokenChar_of_mem_table (spelling_iff_mem_table.1 h)).1

theorem Spelling.isTokenChar (h : Spelling i token) : ∀ c ∈ token, isTokenChar c = true :=
  (isTokenChar_of_mem_table (spelling_iff_mem_table.1 h)).2

end

/-- Among the characters of names are those of tokens. -/
def HoldsTokens (inName : Char → Bool) : Prop := ∀ c, isTokenChar c = true → inName c = true

theorem holdsTokens_isNameChar : HoldsTokens isNameChar := fun _ => isNameChar_of_isTokenChar

section

variable {ε : Type} {inName : Char → Bool} {table : List (List Char × Instruction)}

theorem Spelling.all_inName {i : Instruction} (h : Spelling i token) (hnames : HoldsTokens inName) :
    ∀ c ∈ token, inName c = true :=
  fun c hc => hnames c (h.isTokenChar c hc)

/-- A spelling fits at the front of a longest name exactly if it is the whole name. -/
theorem fits_longest {spelling : List Char} (hspelling : ∀ c ∈ spelling, inName c = true)
    (h : Longest inName token rest) :
    Mnemonic.fits inName (token ++ rest)
        (fun n => (.ok (token ++ rest)[n]? : Except ε (Option Char))) spelling =
      .ok (decide (spelling = token)) := by
  rw [Mnemonic.fits_text]
  congr 1
  rw [Bool.eq_iff_iff, Bool.and_eq_true, decide_eq_true_iff]
  constructor
  · rintro ⟨hstart, hboundary⟩
    obtain ⟨t, rfl⟩ :=
      prefix_of_prefix_append hspelling h (List.isPrefixOf_iff_prefix.1 hstart)
    cases t with
    | nil => simp
    | cons c t =>
        have hc : inName c = true := h.all c (by simp)
        simp [hc] at hboundary
  · rintro rfl
    refine ⟨List.isPrefixOf_iff_prefix.2 (List.prefix_append _ _), ?_⟩
    rw [List.getElem?_append_right (Nat.le_refl _), Nat.sub_self]
    cases rest with
    | nil => rfl
    | cons c rest => simpa using h.stops

/-- Whatever the order of the spellings, the one that is found is the whole name. -/
theorem readFrom_longest (hnames : HoldsTokens inName) (htable : table ⊆ Mnemonic.table)
    (h : Longest inName token rest) :
    Mnemonic.readFrom inName (token ++ rest)
        (fun n => (.ok (token ++ rest)[n]? : Except ε (Option Char))) table =
      .ok ((table.find? fun entry => entry.1 = token).map fun entry =>
        (entry.2, token.length)) := by
  induction table with
  | nil => rfl
  | cons entry table ih =>
      have hentry : Spelling entry.2 entry.1 := spelling_iff_mem_table.2 (htable (by simp))
      rw [Mnemonic.readFrom, fits_longest (hentry.all_inName hnames) h, List.find?_cons]
      by_cases htoken : entry.1 = token
      · simp [htoken, bind, Except.bind, pure, Except.pure]
      · simp only [htoken, decide_false]
        exact ih fun e he => htable (by simp [he])

theorem readFrom_of_spelling {i : Instruction} (hnames : HoldsTokens inName)
    (htable : table.Perm Mnemonic.table) (hspelling : Spelling i token)
    (hrest : Stops inName rest) :
    Mnemonic.readFrom inName (token ++ rest)
        (fun n => (.ok (token ++ rest)[n]? : Except ε (Option Char))) table =
      .ok (some (i, token.length)) := by
  have hmem := htable.mem_iff.2 (spelling_iff_mem_table.1 hspelling)
  rw [readFrom_longest hnames htable.subset ⟨hspelling.all_inName hnames, hrest⟩]
  cases hfind : table.find? fun entry => entry.1 = token with
  | none => simpa using List.find?_eq_none.1 hfind _ hmem
  | some entry =>
      have htoken : entry.1 = token := by simpa using List.find?_some hfind
      have hentry := htable.subset (List.mem_of_find?_eq_some hfind)
      rw [Option.map_some, eq_of_mem_table hentry (htable.subset hmem) htoken]

theorem readFrom_of_no_spelling (hnames : HoldsTokens inName) (htable : table ⊆ Mnemonic.table)
    (h : Longest inName token rest) (hspelling : ∀ i, ¬ Spelling i token) :
    Mnemonic.readFrom inName (token ++ rest)
        (fun n => (.ok (token ++ rest)[n]? : Except ε (Option Char))) table = .ok none := by
  rw [readFrom_longest hnames htable h]
  have hfind : (table.find? fun entry => entry.1 = token) = none := by
    rw [List.find?_eq_none]
    rintro ⟨spelling, i⟩ hentry htoken
    have htoken : spelling = token := of_decide_eq_true htoken
    exact hspelling i (spelling_iff_mem_table.2 (htoken ▸ htable hentry))
  rw [hfind, Option.map_none]

end

end

end OneBit.Grammar
