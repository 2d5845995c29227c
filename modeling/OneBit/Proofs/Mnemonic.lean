import OneBit.Proofs.Source.Step
/-!
# Mnemonics between two offsets

A mnemonic is read from a part of a text as a whole name: the longest run of name characters at the
front of the part is a spelling of an instruction, or nothing is read.  Of all spellings at most one
fits, so that they can be tried in any order.  Beyond the characters of tokens, which all spellings
are made of, it does not matter which characters names hold; `instruction` takes the letters and
numerals of all scripts, and tries the longest spellings first.
-/

namespace OneBit.Source.Scan

open Text Grammar Cursor

section

variable {inName : Char → Bool} {table : List (List Char × Instruction)} {text : List Char}
  {start stop : Nat} {warnings : List (Nat × Truncation)} {i : Instruction}

theorem run_mnemonic_place (hnames : HoldsTokens inName) (htable : table.Perm Mnemonic.table)
    (hstart : start ≤ stop) (hstop : stop ≤ text.length)
    (h : Spelling i (runBetween inName text start stop)) :
    (mnemonic inName table).run (place text start stop warnings) =
      .ok i (place text (start + (runBetween inName text start stop).length) stop warnings) := by
  obtain ⟨rest, hpart, hlong⟩ := exists_longest_runBetween inName text start stop
  have hplace : place text start stop warnings = _ := place_eq_amid hstart hstop
  rw [hpart] at hplace
  rw [hplace, run_mnemonic hnames htable h hlong.stops, ← amid_advance, ← hplace,
    Cursor.advance, moveTo_eq_place]
  rfl

theorem run_mnemonic_place_missing (hnames : HoldsTokens inName) (htable : table ⊆ Mnemonic.table)
    (hstart : start ≤ stop) (hstop : stop ≤ text.length)
    (h : ∀ i, ¬ Spelling i (runBetween inName text start stop)) :
    (mnemonic inName table).run (place text start stop warnings) =
      .error
        (if start = stop then .inText text start .moreInput []
          else .inText text start .instruction Instruction.all)
        (place text start stop warnings) := by
  obtain ⟨rest, hpart, hlong⟩ := exists_longest_runBetween inName text start stop
  have hplace : place text start stop warnings = _ := place_eq_amid hstart hstop
  have htext : text.take start ++ (text.take stop).drop start ++ text.drop stop = text := by
    have hsame := congrArg Cursor.text hplace
    rw [amid_text] at hsame
    exact hsame.symm
  have hlength : (text.take start).length = start := List.length_take_of_le (by omega)
  obtain rfl | hlt := hstart.eq_or_lt
  · have hnone : (text.take start).drop start = [] :=
      List.drop_eq_nil_of_le (List.length_take_le start text)
    rw [hnone] at hplace
    rw [if_pos rfl, hplace, run_mnemonic_end, List.take_append_drop, hlength]
  · have hsome : (text.take stop).drop start ≠ [] := by
      rw [← List.length_pos_iff, List.length_drop, List.length_take]
      omega
    rw [hpart] at hplace hsome htext
    rw [if_neg hlt.ne, hplace, run_mnemonic_missing hnames htable hsome hlong h, htext, hlength]

theorem run_mnemonic_of_perm (hnames : HoldsTokens inName) (htable : table.Perm Mnemonic.table)
    (hstart : start ≤ stop) (hstop : stop ≤ text.length) :
    (mnemonic inName table).run (place text start stop warnings) =
      (mnemonic inName Mnemonic.table).run (place text start stop warnings) := by
  have hrefl := List.Perm.refl Mnemonic.table
  by_cases h : ∃ i, Spelling i (runBetween inName text start stop)
  · obtain ⟨i, hi⟩ := h
    rw [run_mnemonic_place hnames htable hstart hstop hi,
      run_mnemonic_place hnames hrefl hstart hstop hi]
  · have hnone := not_exists.1 h
    rw [run_mnemonic_place_missing hnames htable.subset hstart hstop hnone,
      run_mnemonic_place_missing hnames hrefl.subset hstart hstop hnone]

theorem run_mnemonic_eq_ok_iff (hnames : HoldsTokens inName) (htable : table.Perm Mnemonic.table)
    (hstart : start ≤ stop) (hstop : stop ≤ text.length) :
    (mnemonic inName table).run (place text start stop warnings) =
        .ok i (place text (start + (runBetween inName text start stop).length) stop warnings) ↔
      Spelling i (runBetween inName text start stop) := by
  constructor
  · intro hrun
    by_cases h : ∃ j, Spelling j (runBetween inName text start stop)
    · obtain ⟨j, hj⟩ := h
      rw [run_mnemonic_place hnames htable hstart hstop hj] at hrun
      cases hrun
      exact hj
    · rw [run_mnemonic_place_missing hnames htable.subset hstart hstop (not_exists.1 h)] at hrun
      cases hrun
  · exact run_mnemonic_place hnames htable hstart hstop

/-- A spelling of the table fits between two offsets exactly if it is the name there. -/
theorem fits_place_iff (hnames : HoldsTokens inName) (hstart : start ≤ stop)
    (hstop : stop ≤ text.length) {entry : List Char × Instruction}
    (hentry : entry ∈ Mnemonic.table) :
    Mnemonic.fits inName (place text start stop warnings).ahead
        (place text start stop warnings).look entry.1 = .ok true ↔
      entry.1 = runBetween inName text start stop := by
  obtain ⟨rest, hpart, hlong⟩ := exists_longest_runBetween inName text start stop
  have hspelling : Spelling entry.2 entry.1 := spelling_iff_mem_table.2 hentry
  rw [place_eq_amid hstart hstop, amid_ahead, amid_look, hpart,
    fits_longest (hspelling.all_inName hnames) hlong, Except.ok.injEq, decide_eq_true_iff]

theorem pairwise_not_fits (hnames : HoldsTokens inName) (htable : table.Perm Mnemonic.table)
    (hstart : start ≤ stop) (hstop : stop ≤ text.length) :
    table.Pairwise fun entry other =>
      ¬ (Mnemonic.fits inName (place text start stop warnings).ahead
            (place text start stop warnings).look entry.1 = .ok true ∧
          Mnemonic.fits inName (place text start stop warnings).ahead
            (place text start stop warnings).look other.1 = .ok true) := by
  have hnodup : (table.map Prod.fst).Nodup := (htable.map Prod.fst).nodup_iff.2 nodup_spellings
  apply (List.pairwise_map.1 hnodup).imp_of_mem
  rintro entry other hentry hother hne ⟨hfits, hfits'⟩
  rw [fits_place_iff hnames hstart hstop (htable.subset hentry)] at hfits
  rw [fits_place_iff hnames hstart hstop (htable.subset hother)] at hfits'
  exact hne (hfits.trans hfits'.symm)

end

/-- Between two offsets of a text a mnemonic is read as a whole name, whatever the order of the
spellings and whatever else than the characters of tokens names hold: the longest run of name
characters is a spelling of an instruction and is taken, or there is an error at the first offset
and nothing is taken. No two spellings of the table fit. -/
theorem mnemonic_whole_name (inName : Char → Bool) (hnames : HoldsTokens inName)
    (text : List Char) (start stop : Nat) (hstart : start ≤ stop) (hstop : stop ≤ text.length)
    (warnings : List (Nat × Truncation)) (table : List (List Char × Instruction))
    (htable : table.Perm Mnemonic.table) :
    let c := place text start stop warnings
    let name := runBetween inName text start stop
    (mnemonic inName table).run c = (mnemonic inName Mnemonic.table).run c ∧
    (∀ i, (mnemonic inName Mnemonic.table).run c =
        .ok i (place text (start + name.length) stop warnings) ↔ Spelling i name) ∧
    ((¬ ∃ i, Spelling i name) →
      (mnemonic inName Mnemonic.table).run c =
        .error
          (if start = stop then .inText text start .moreInput []
            else .inText text start .instruction Instruction.all) c) ∧
    table.Pairwise fun entry other =>
      ¬ (Mnemonic.fits inName c.ahead c.look entry.1 = .ok true ∧
        Mnemonic.fits inName c.ahead c.look other.1 = .ok true) := by
  intro c name
  have hrefl := List.Perm.refl Mnemonic.table
  refine ⟨run_mnemonic_of_perm hnames htable hstart hstop, ?_, ?_, ?_⟩
  · intro i
    exact run_mnemonic_eq_ok_iff hnames hrefl hstart hstop
  · intro h
    exact run_mnemonic_place_missing hnames hrefl.subset hstart hstop (not_exists.1 h)
  · exact pairwise_not_fits hnames htable hstart hstop

/-- A part that ends within a longer name, and a letter that no token holds behind a shorter one,
with the shortest spellings tried first. -/
theorem mnemonic_whole_name_cut :
    let table := Mnemonic.table.reverse
    HoldsTokens isNameChar ∧ table.Perm Mnemonic.table ∧
      (runBetween isNameChar "stoc".toList 0 3 = "sto".toList ∧
        (mnemonic isNameChar table).run (place "stoc".toList (0 : Nat) (3 : Nat) []) =
          .ok .sto (place "stoc".toList 3 3 [])) ∧
      runBetween isNameChar "oré".toList 0 3 = "oré".toList ∧
        (∀ i, ¬ Spelling i "oré".toList) ∧
        instruction.run (place "oré".toList (0 : Nat) (3 : Nat) []) =
          .error (.inText "oré".toList 0 .instruction Instruction.all)
            (place "oré".toList 0 3 []) := by
  intro table
  have htable : table.Perm Mnemonic.table := List.reverse_perm _
  have hcut : runBetween isNameChar "stoc".toList 0 3 = "sto".toList := by decide
  have haccent : runBetween isNameChar "oré".toList 0 3 = "oré".toList := by decide
  have hnone : ∀ i, ¬ Spelling i "oré".toList := by
    intro i h
    exact absurd (h.isTokenChar 'é' (by decide)) (by decide)
  obtain ⟨horder, hread, -⟩ := mnemonic_whole_name isNameChar holdsTokens_isNameChar
    "stoc".toList 0 3 (by decide) (by decide) [] table htable
  obtain ⟨-, -, hmissing, -⟩ := mnemonic_whole_name isNameChar holdsTokens_isNameChar
    "oré".toList 0 3 (by decide) (by decide) [] table htable
  refine ⟨holdsTokens_isNameChar, htable, ⟨hcut, ?_⟩, haccent, hnone, ?_⟩
  · have hspelling : Spelling .sto "sto".toList := .inr (.inl (by decide))
    rw [horder]
    have hsto := (hread .sto).2 (by rw [hcut]; exact hspelling)
    rw [hcut] at hsto
    exact hsto
  · exact hmissing (by rw [haccent]; exact not_exists.2 hnone)

end OneBit.Source.Scan
