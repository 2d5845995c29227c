import OneBit.Proofs.Assembler
import OneBit.Proofs.Source.Printing
/-!
# Programs as lists of entries

An entry of a program can be written as a line of a source, its mnemonic as it is and its values in
hexadecimal.  Building the entries and assembling the lines gives one image, and where the one warns
of an entry the other warns of its line.
-/

namespace OneBit

open Text Grammar Source

variable {e : ProgramEntry} {entries : List ProgramEntry} {s : Statement}
  {statements : List Statement}

/-! ## Entries as lines -/

namespace ProgramEntry

/-- An entry that can be written as a line: the mnemonic is a spelling of an instruction, and the
values have at most thirty-two bits. -/
structure Writable (e : ProgramEntry) : Prop where
  mnemonic : ∃ i, Spelling i e.mnemonic.toList
  address : 0 ≤ e.address ∧ e.address < 2 ^ 32
  control : 0 ≤ e.control ∧ e.control < 2 ^ 32

theorem writable_iff (e : ProgramEntry) :
    (∃ i ∈ Instruction.all, Spelling i e.mnemonic.toList) ∧
      (0 ≤ e.address ∧ e.address < 2 ^ 32) ∧ 0 ≤ e.control ∧ e.control < 2 ^ 32 ↔ e.Writable := by
  constructor
  · rintro ⟨⟨i, -, hi⟩, haddress, hcontrol⟩
    exact ⟨⟨i, hi⟩, haddress, hcontrol⟩
  · rintro ⟨⟨i, hi⟩, haddress, hcontrol⟩
    exact ⟨⟨i, i.mem_all, hi⟩, haddress, hcontrol⟩

instance : DecidablePred Writable := fun e => decidable_of_iff _ e.writable_iff

/-- The line of an entry. -/
def line (e : ProgramEntry) : String :=
  e.mnemonic ++ " 0h" ++ String.ofList (digits 16 e.address.toNat) ++
    " 0h" ++ String.ofList (digits 16 e.control.toNat)

/-- An entry and what its line says. -/
inductive Means (e : ProgramEntry) : Statement → Prop
  | word {i : Instruction} {a c : Nat} (hmnemonic : Spelling i e.mnemonic.toList)
      (haddress : e.address = a) (ha : a < 2 ^ 32) (hcontrol : e.control = c) (hc : c < 2 ^ 32) :
      Means e (.word i a c)

theorem Writable.exists_means (h : e.Writable) : ∃ s, e.Means s := by
  obtain ⟨⟨i, hi⟩, ⟨haddress, ha⟩, hcontrol, hc⟩ := h
  obtain ⟨a, heqa⟩ := Int.eq_ofNat_of_zero_le haddress
  obtain ⟨c, heqc⟩ := Int.eq_ofNat_of_zero_le hcontrol
  exact ⟨_, .word hi heqa (by omega) heqc (by omega)⟩

end ProgramEntry

/-- The source of a list of entries. -/
def entriesSource (entries : List ProgramEntry) : String :=
  "\n".intercalate (entries.map ProgramEntry.line)

namespace Grammar

theorem argument_hexadecimal {value : Nat} (h : value < 2 ^ 32) :
    Argument (' ' :: '0' :: 'h' :: digits 16 value) value := by
  refine argument_of_numeral (.hexadecimal ?_ ?_ (digits_toDigits (by decide) value))
  · exact Nat.toDigits_ne_nil
  · exact (Nat.length_toDigits_le_iff (by decide) (by decide)).2 (by omega)

end Grammar

namespace ProgramEntry

theorem toList_line (e : ProgramEntry) :
    e.line.toList = e.mnemonic.toList ++ (' ' :: '0' :: 'h' :: digits 16 e.address.toNat) ++
      (' ' :: '0' :: 'h' :: digits 16 e.control.toNat) := by
  simp [line]

theorem Means.line (h : e.Means s) : Line e.line.toList s := by
  cases h with
  | word hmnemonic haddress ha hcontrol hc =>
      rw [toList_line, haddress, hcontrol]
      exact line_of_parts hmnemonic (argument_hexadecimal ha) (argument_hexadecimal hc)

theorem Means.tidy (h : e.Means s) : Tidy e.line.toList := by
  cases h with
  | word hmnemonic haddress ha hcontrol hc =>
      rw [toList_line, haddress, hcontrol]
      exact tidy_of_parts hmnemonic (argument_hexadecimal ha) (argument_hexadecimal hc)

end ProgramEntry

theorem toList_entriesSource (entries : List ProgramEntry) :
    (entriesSource entries).toList = joinLines (entries.map fun e => e.line.toList) := by
  unfold entriesSource
  rw [String.toList_intercalate, List.map_map]
  rfl

theorem forall₂_line_of_means (h : List.Forall₂ ProgramEntry.Means entries statements) :
    List.Forall₂ Line (entries.map fun e => e.line.toList) statements := by
  rw [List.forall₂_map_left_iff]
  exact h.imp fun _ _ hmeans => hmeans.line

theorem tidy_of_means (h : List.Forall₂ ProgramEntry.Means entries statements) :
    ∀ line ∈ entries.map fun e => e.line.toList, Tidy line := by
  induction h with
  | nil => exact List.forall_mem_nil _
  | cons hmeans _ ih =>
      rw [List.map_cons, List.forall_mem_cons]
      exact ⟨hmeans.tidy, ih⟩

theorem statements_entriesSource (h : List.Forall₂ ProgramEntry.Means entries statements) :
    List.Forall₂ Line (programLines (entriesSource entries).toList) statements := by
  rw [toList_entriesSource, programLines_joinLines (tidy_of_means h)]
  exact forall₂_line_of_means h

/-! ## What the builder makes of entries -/

theorem fullCapitals_of_spelling {i : Instruction} {token : List Char} (h : Spelling i token) :
    fullCapitals token = i.name.toList := by
  rcases h with rfl | rfl | rfl
  · cases i <;> decide
  · cases i <;> decide
  · cases i <;> decide

theorem Instruction.find?_name (i : Instruction) :
    all.find? (fun j => j.name.toList == i.name.toList) = some i := by
  cases i <;> decide

namespace ProgramEntry

theorem instruction?_of_spelling {i : Instruction} (h : Spelling i e.mnemonic.toList) :
    e.instruction? = some i := by
  unfold instruction?
  rw [fullCapitals_of_spelling h, Instruction.find?_name]

theorem Means.truncations (h : e.Means s) : e.truncations = s.truncations := by
  cases h with
  | word hmnemonic haddress ha hcontrol hc =>
      unfold ProgramEntry.truncations
      rw [haddress, hcontrol, Scan.truncations_word]

end ProgramEntry

/-- The warning of a value in an entry that was cut. -/
def entryNote (warning : Nat × Truncation) : Diagnostic :=
  ⟨.entry warning.1, warning.2.message⟩

/-- The builder makes of an entry the word of its line, and warns of the same values. -/
theorem wordsOfEntries_cons (h : e.Means s) (index : Nat) (rest : List (Option ProgramEntry)) :
    wordsOfEntries index (some e :: rest) =
      ((wordsOfEntries (index + 1) rest).1.map (wordsOf [s.node] ++ ·),
        s.truncations.map (fun t => entryNote (index, t)) ++
          (wordsOfEntries (index + 1) rest).2) := by
  have htruncations := h.truncations
  cases h with
  | word hmnemonic haddress ha hcontrol hc =>
      rw [wordsOfEntries, ProgramEntry.instruction?_of_spelling hmnemonic, htruncations, haddress,
        hcontrol, Scan.address_ofInt, Scan.control_ofBits]
      rfl

theorem wordsOfEntries_of_means (h : List.Forall₂ ProgramEntry.Means entries statements)
    (index : Nat) :
    wordsOfEntries index (entries.map some) =
      (.ok (wordsOf (statements.map Statement.node)),
        (truncationsFrom index statements).map entryNote) := by
  -- Entries take consecutive indices, as lines take consecutive numbers, so the index is general.
  induction h generalizing index with
  | nil => rfl
  | @cons e s entries statements hmeans _ ih =>
      have hwords : wordsOf ((s :: statements).map Statement.node) =
          wordsOf [s.node] ++ wordsOf (statements.map Statement.node) :=
        List.filterMap_append (l := [s.node])
      rw [List.map_cons, wordsOfEntries_cons hmeans, ih, hwords, truncationsFrom, List.map_append,
        List.map_map]
      rfl

theorem wordsOf_ne_nil_of_means (h : List.Forall₂ ProgramEntry.Means entries statements)
    (hne : entries ≠ []) : wordsOf (statements.map Statement.node) ≠ [] := by
  cases h with
  | nil => exact absurd rfl hne
  | cons hmeans _ =>
      cases hmeans with
      | word hmnemonic haddress ha hcontrol hc => exact List.cons_ne_nil _ _

/-! ## Entry by entry and line by line -/

theorem truncationsFrom_succ (start : Nat) (statements : List Statement) :
    truncationsFrom (start + 1) statements =
      (truncationsFrom start statements).map fun w => (w.1 + 1, w.2) := by
  induction statements generalizing start with
  | nil => rfl
  | cons s statements ih =>
      rw [truncationsFrom, truncationsFrom, ih, List.map_append, List.map_map]
      rfl

theorem readProgram_entriesSource (h : List.Forall₂ ProgramEntry.Means entries statements) :
    readProgram (entriesSource entries) =
      ⟨.ok (statements.map Statement.node), truncationsFrom 1 statements⟩ := by
  rw [readProgram_of_statements (statements_entriesSource h), toList_entriesSource,
    (stops_joinLines (tidy_of_means h)).takeWhile_eq]
  rfl

theorem Assembler.ofSource_entriesSource (h : List.Forall₂ ProgramEntry.Means entries statements)
    (hne : entries ≠ []) :
    ofSource (entriesSource entries) =
      { nodes := statements.map Statement.node
        warnings := (truncationsFrom 1 statements).map truncationNote } := by
  have hread := readProgram_entriesSource h
  have hparse : parse (entriesSource entries) = .ok (statements.map Statement.node) := by
    rw [parse, hread]
  rw [ofSource_of_ok hparse, if_neg (wordsOf_ne_nil_of_means h hne), List.append_nil, hread]
  rfl

namespace Loader

theorem value_serve_build (tree : FileTree) (l : Loader) {words : List Word}
    {entries : List (Option ProgramEntry)} {notes : List Diagnostic}
    (h : wordsOfEntries 0 entries = (.ok words, notes)) :
    (l.serve tree (.build entries)).value =
      (.ok (.image (Image.packWords words)), { l with warnings := notes }) := by
  have hbuild : (l.build entries).value =
      (.ok (Image.encode (words.map .word)), { l with warnings := notes }) := by
    unfold build
    rw [h]
    rfl
  unfold serve
  rw [Logged.value_bind, hbuild, Image.encode, Image.wordsOf_map_word]
  rfl

end Loader

theorem wordsOfEntries_control_none (before after : List (Option ProgramEntry)) (index : Nat)
    (h : e.control? = none) :
    wordsOfEntries index (before ++ some e :: after) =
      wordsOfEntries index (before ++ some { e with control? := some 0 } :: after) := by
  induction before generalizing index with
  | nil =>
      have hcontrol : e.control = 0 := by rw [ProgramEntry.control, h]; rfl
      rw [List.nil_append, List.nil_append, wordsOfEntries, wordsOfEntries]
      unfold ProgramEntry.truncations
      rw [hcontrol]
      rfl
  | cons entry before ih =>
      cases entry with
      | none => rfl
      | some entry =>
          rw [List.cons_append, List.cons_append, wordsOfEntries, wordsOfEntries, ih]

/-- Building entries gives what assembling their lines gives, whatever the loaders did before: the
same image, and the same warnings, with an entry on one side where its line is on the other. A
control that is left out is as good as zero, in any list. -/
theorem build_agrees_with_assemble :
    (∀ (entries : List ProgramEntry) (tree tree' : FileTree) (l l' : Loader),
      entries ≠ [] → (∀ e ∈ entries, e.Writable) →
      let built := (l.serve tree (.build (entries.map some))).value
      let assembled := (l'.serve tree' (.assemble (entriesSource entries))).value
      (∃ image, built.1 = .ok (.image image) ∧ assembled.1 = .ok (.image image)) ∧
      ∃ notes : List (Nat × String),
        built.2.warnings.map Diagnostic.render =
          notes.map (fun (i, message) => s!"Entry {i}: " ++ message) ∧
        assembled.2.warnings.map Diagnostic.render =
          notes.map fun (i, message) => let line := i + 1; s!"Line {line}: " ++ message) ∧
    ∀ (before after : List (Option ProgramEntry)) (e : ProgramEntry) (tree : FileTree) (l : Loader),
      e.control? = none →
      l.serve tree (.build (before ++ some e :: after)) =
        l.serve tree (.build (before ++ some { e with control? := some 0 } :: after)) := by
  constructor
  · intro entries tree tree' l l' hne hwritable
    obtain ⟨statements, hmeans⟩ :=
      (statements_iff entries).2 fun e he => (hwritable e he).exists_means
    have hbuilt := Loader.value_serve_build tree l (wordsOfEntries_of_means hmeans 0)
    have hassembled := Assembler.ofSource_entriesSource hmeans hne
    simp only [hbuilt, Loader.value_serve_assemble, Loader.value_assemble, Loader.ofSource,
      hassembled]
    refine ⟨⟨_, rfl, rfl⟩, (truncationsFrom 0 statements).map fun w => (w.1, w.2.message), ?_, ?_⟩
    · rw [List.map_map, List.map_map]
      rfl
    · rw [truncationsFrom_succ, List.map_map, List.map_map, List.map_map]
      rfl
  · intro before after e tree l hcontrol
    have hbuild : l.build (before ++ some e :: after) =
        l.build (before ++ some { e with control? := some 0 } :: after) := by
      unfold Loader.build
      rw [wordsOfEntries_control_none before after 0 hcontrol]
    simp only [Loader.serve, hbuild]

/-- The second of two entries loses bits of its address and has no control. -/
theorem build_agrees_with_assemble_second_entry :
    (∀ e ∈ [ProgramEntry.mk "LD" none none, ⟨"StoC", some 0xC8, none⟩], e.Writable) ∧
      (Loader.serve {} {} (.build [some ⟨"LD", none, none⟩,
        some ⟨"StoC", some 0xC8, none⟩])).value.1 = .ok (.image [0x10, 0x09, 0x20]) ∧
      (Loader.serve {} {} (.assemble "LD 0h0 0h0\nStoC 0hc8 0h0")).value.1 =
        .ok (.image [0x10, 0x09, 0x20]) ∧
      Loader.serve {} {} (.build [some ⟨"LD", none, none⟩, some ⟨"StoC", some 0xC8, none⟩]) =
        Loader.serve {} {} (.build [some ⟨"LD", none, none⟩, some ⟨"StoC", some 0xC8, some 0⟩]) := by
  have hwritable : ∀ e ∈ [ProgramEntry.mk "LD" none none, ⟨"StoC", some 0xC8, none⟩],
      e.Writable := by decide
  have hsource : entriesSource [⟨"LD", none, none⟩, ⟨"StoC", some 0xC8, none⟩] =
      "LD 0h0 0h0\nStoC 0hc8 0h0" := by decide
  have hbuilt : (Loader.serve {} {} (.build [some ⟨"LD", none, none⟩,
      some ⟨"StoC", some 0xC8, none⟩])).value.1 = .ok (.image [0x10, 0x09, 0x20]) := by decide
  obtain ⟨⟨image, himage, hassembled⟩, -⟩ :=
    build_agrees_with_assemble.1 _ {} {} {} {} (List.cons_ne_nil _ _) hwritable
  rw [hsource, ← himage] at hassembled
  refine ⟨hwritable, hbuilt, hassembled.trans hbuilt, ?_⟩
  exact build_agrees_with_assemble.2 [some ⟨"LD", none, none⟩] [] ⟨"StoC", some 0xC8, none⟩ {} {} rfl

end OneBit
