import OneBit.Proofs.Session
/-!
# Values that do not fit

A program is built from a list of entries if each has a mnemonic that, in capitals, is the name of
an instruction; the first that has none ends it.  The words hold what is left of the values in their
fields.  A value that is too great is warned of.  A negative value is cut as well, and nothing is
said of it: the warnings tell of every cut exactly if no value is negative.
-/

namespace OneBit

open Text

variable {e : ProgramEntry} {entries before after : List (Option ProgramEntry)}
  {bad : Option ProgramEntry}

/-! ## Lists of which one is part of the other -/

section

variable {α β : Type}

theorem append_eq_append_iff_of_sublist {a b c d : List β} (h : a.Sublist b) (h' : c.Sublist d) :
    a ++ c = b ++ d ↔ a = b ∧ c = d := by
  constructor
  · intro heq
    have hlength := congrArg List.length heq
    rw [List.length_append, List.length_append] at hlength
    have hle := h.length_le
    have hle' := h'.length_le
    exact ⟨h.eq_of_length (by omega), h'.eq_of_length (by omega)⟩
  · rintro ⟨rfl, rfl⟩
    rfl

theorem sublist_flatten_mapIdx {f g : Nat → α → List β} (h : ∀ i a, (f i a).Sublist (g i a))
    (l : List α) : (l.mapIdx f).flatten.Sublist (l.mapIdx g).flatten := by
  induction l generalizing f g with
  | nil => exact List.Sublist.refl _
  | cons a l ih =>
      rw [List.mapIdx_cons, List.mapIdx_cons, List.flatten_cons, List.flatten_cons]
      exact (h 0 a).append (ih fun i a => h (i + 1) a)

/-- Two runs of lists, each list of the one part of that of the other, agree if all lists do. -/
theorem flatten_mapIdx_eq_iff {f g : Nat → α → List β} {P : α → Prop}
    (hsub : ∀ i a, (f i a).Sublist (g i a)) (heq : ∀ i a, f i a = g i a ↔ P a) (l : List α) :
    (l.mapIdx f).flatten = (l.mapIdx g).flatten ↔ ∀ a ∈ l, P a := by
  induction l generalizing f g with
  | nil => exact iff_of_true rfl (List.forall_mem_nil P)
  | cons a l ih =>
      have hrest := sublist_flatten_mapIdx (fun i a => hsub (i + 1) a) l
      rw [List.mapIdx_cons, List.mapIdx_cons, List.flatten_cons, List.flatten_cons,
        append_eq_append_iff_of_sublist (hsub 0 a) hrest, heq, List.forall_mem_cons,
        ih (fun i a => hsub (i + 1) a) fun i a => heq (i + 1) a]

end

/-! ## Entries and their words -/

namespace ProgramEntry

/-- The mnemonic is, in capitals, the name of an instruction. -/
def Named (e : ProgramEntry) : Prop :=
  ∃ i : Instruction, fullCapitals e.mnemonic.toList = i.name.toList

/-- The word of an entry: the instruction with its mnemonic, and of each value what is left of it in
its field. -/
structure Gives (e : ProgramEntry) (w : Word) : Prop where
  instruction : fullCapitals e.mnemonic.toList = w.instruction.name.toList
  address : (w.address.value : Int) = e.address % 64
  control : (w.control.code : Int) = e.control % 4

theorem instruction?_eq_some_iff {i : Instruction} :
    e.instruction? = some i ↔ fullCapitals e.mnemonic.toList = i.name.toList := by
  constructor
  · intro h
    have hname := List.find?_some h
    exact (beq_iff_eq.1 hname).symm
  · intro h
    unfold instruction?
    rw [h, Instruction.find?_name]

theorem gives_of_instruction? {i : Instruction} (h : e.instruction? = some i) :
    e.Gives ⟨i, .ofInt e.address, .ofBits e.control⟩ := by
  refine ⟨instruction?_eq_some_iff.1 h, ?_, Control.code_ofBits e.control⟩
  have hval : (Address.ofInt e.address).value.val = (e.address % 64).toNat := rfl
  rw [hval]
  omega

end ProgramEntry

/-- The item of a list is an entry with the name of an instruction. -/
def Usable (item? : Option ProgramEntry) : Prop := ∃ e ∈ item?, e.Named

/-- The error of an item that is not usable. -/
def refusal : Option ProgramEntry → LoadError
  | none => .emptyEntry
  | some e => .unknownMnemonic e.mnemonic

theorem isUsable_iff {item? : Option ProgramEntry} : isUsable item? = true ↔ Usable item? := by
  unfold isUsable Usable ProgramEntry.Named
  simp only [Option.any_eq_true, Option.isSome_iff_exists, ProgramEntry.instruction?_eq_some_iff,
    Option.mem_def]

theorem instruction?_of_not_usable (h : ¬ Usable (some e)) : e.instruction? = none := by
  rw [Option.eq_none_iff_forall_ne_some]
  intro i hi
  exact h ⟨e, rfl, i, ProgramEntry.instruction?_eq_some_iff.1 hi⟩

theorem wordsOfEntries_of_not_usable (h : ¬ Usable bad) (index : Nat)
    (after : List (Option ProgramEntry)) :
    (wordsOfEntries index (bad :: after)).1 = .error (refusal bad) := by
  cases bad with
  | none => rfl
  | some e => rw [wordsOfEntries, instruction?_of_not_usable h]; rfl

/-- Usable items give their words, whatever comes behind them. -/
theorem exists_words_of_usable (h : ∀ item? ∈ before, Usable item?) :
    ∃ words, List.Forall₂ (fun item? w => ∃ e ∈ item?, e.Gives w) before words ∧
      ∀ index after, (wordsOfEntries index (before ++ after)).1 =
        (wordsOfEntries (index + before.length) after).1.map (words ++ ·) := by
  induction before with
  | nil =>
      refine ⟨[], .nil, fun index after => ?_⟩
      rw [List.nil_append, List.length_nil, Nat.add_zero]
      cases (wordsOfEntries index after).1 <;> rfl
  | cons item? before ih =>
      obtain ⟨⟨e, rfl, i, hi⟩, hbefore⟩ := List.forall_mem_cons.1 h
      obtain ⟨words, hwords, hrun⟩ := ih hbefore
      have hi := ProgramEntry.instruction?_eq_some_iff.2 hi
      refine ⟨_ :: words, .cons ⟨e, rfl, ProgramEntry.gives_of_instruction? hi⟩ hwords, ?_⟩
      intro index after
      have hcons : index + (some e :: before).length = index + 1 + before.length := by
        rw [List.length_cons]
        omega
      rw [List.cons_append, wordsOfEntries, hi, hcons]
      dsimp only
      rw [hrun]
      cases (wordsOfEntries (index + 1 + before.length) after).1 <;> rfl

theorem exists_first_not_usable (h : ¬ ∀ item? ∈ entries, Usable item?) :
    ∃ before bad after, entries = before ++ bad :: after ∧ (∀ item? ∈ before, Usable item?) ∧
      ¬ Usable bad := by
  induction entries with
  | nil => exact absurd (List.forall_mem_nil _) h
  | cons item? entries ih =>
      by_cases hitem : Usable item?
      · have hrest : ¬ ∀ item? ∈ entries, Usable item? :=
          fun hall => h (List.forall_mem_cons.2 ⟨hitem, hall⟩)
        obtain ⟨before, bad, after, rfl, hbefore, hbad⟩ := ih hrest
        exact ⟨item? :: before, bad, after, rfl, List.forall_mem_cons.2 ⟨hitem, hbefore⟩, hbad⟩
      · exact ⟨[], item?, entries, rfl, List.forall_mem_nil _, hitem⟩

namespace Loader

theorem outcome_build (l : Loader) (entries : List (Option ProgramEntry)) :
    (l.build entries).value.1 = (wordsOfEntries 0 entries).1.map Image.packWords := by
  unfold build
  cases wordsOfEntries 0 entries with
  | mk outcome notes =>
      cases outcome with
      | ok words => exact congrArg (Except.ok ∘ Image.packWords) (Image.wordsOf_map_word words)
      | error e => rfl

theorem build_of_usable (l : Loader) (h : ∀ item? ∈ entries, Usable item?) :
    ∃ words, List.Forall₂ (fun item? w => ∃ e ∈ item?, e.Gives w) entries words ∧
      (l.build entries).value.1 = .ok (Image.packWords words) := by
  obtain ⟨words, hwords, hrun⟩ := exists_words_of_usable h
  have hall := hrun 0 []
  rw [List.append_nil] at hall
  refine ⟨words, hwords, ?_⟩
  rw [outcome_build, hall]
  exact congrArg (Except.ok ∘ Image.packWords) (List.append_nil words)

theorem build_of_not_usable (l : Loader) (h : ∀ item? ∈ before, Usable item?)
    (hbad : ¬ Usable bad) (after : List (Option ProgramEntry)) :
    (l.build (before ++ bad :: after)).value.1 = .error (refusal bad) := by
  obtain ⟨words, -, hrun⟩ := exists_words_of_usable h
  rw [outcome_build, hrun, wordsOfEntries_of_not_usable hbad]
  rfl

end Loader

/-! ## Warnings -/

/-- The warning of a value in an entry, for a field of so many values. -/
def fieldWarning (index : Nat) (name : String) (value : Int) (size : Nat) : String :=
  let kept := value % size
  s!"Entry {index}: {name} {value} does not fit its field, truncated to {kept}"

/-- The field holds another value than the one given. -/
def isMasked (value : Int) (size : Nat) : Bool := value % size != value

/-- The value is too great for the field. -/
def isTooGreat (value : Int) (size : Nat) : Bool := size ≤ value

/-- The warnings about the values of an entry that pass a test, the address before the control. -/
def ProgramEntry.warningsIf (test : Int → Nat → Bool) (index : Nat) (e : ProgramEntry) :
    List String :=
  (if test e.address 64 then [fieldWarning index "address" e.address 64] else []) ++
    if test e.control 4 then [fieldWarning index "control" e.control 4] else []

/-- The entries before the first item that is not usable. -/
def leadingEntries (entries : List (Option ProgramEntry)) : List ProgramEntry :=
  (entries.takeWhile isUsable).reduceOption

theorem isMasked_eq {size : Nat} (hsize : 0 < size) (value : Int) :
    isMasked value size = (decide (value < 0) || isTooGreat value size) := by
  have hpos : (0 : Int) < size := Int.natCast_pos.2 hsize
  have hnonneg := Int.emod_nonneg value hpos.ne'
  have hlt := Int.emod_lt_of_pos value hpos
  rw [Bool.eq_iff_iff]
  simp only [isMasked, isTooGreat, bne_iff_ne, Bool.or_eq_true, decide_eq_true_eq]
  constructor
  · intro hne
    by_contra hnot
    exact hne (Int.emod_eq_of_lt (by omega) (by omega))
  · intro hout heq
    omega

theorem toString_emod (value : Int) {size : Nat} (hsize : 0 < size) :
    toString (value % size).toNat = toString (value % size) := by
  have hnonneg := Int.emod_nonneg value (Int.natCast_pos.2 hsize).ne'
  obtain ⟨kept, hkept⟩ := Int.eq_ofNat_of_zero_le hnonneg
  rw [hkept]
  rfl

theorem render_entryNote (operand : Operand) (index : Nat) (value : Int) :
    (entryNote (index, ⟨operand, value⟩)).render =
      fieldWarning index operand.name value operand.field.size := by
  change "Entry " ++ toString index ++ ": " ++ (operand.name ++ " " ++ toString value ++
    " does not fit its field, truncated to " ++
      toString (value % operand.field.size).toNat) = _
  rw [toString_emod value operand.field.size_pos]
  unfold fieldWarning
  simp only [String.append_assoc]
  rfl

theorem map_render_check (operand : Operand) (index : Nat) (value : Int) :
    (Truncation.check operand value).toList.map (fun t => (entryNote (index, t)).render) =
      if isTooGreat value operand.field.size then
        [fieldWarning index operand.name value operand.field.size] else [] := by
  have hpos := operand.field.size_pos
  have hlimit : operand.field.limit + 1 = operand.field.size := Nat.sub_add_cancel hpos
  unfold Truncation.check isTooGreat
  by_cases hgreat : (operand.field.limit : Int) < value
  · rw [if_pos hgreat, if_pos (decide_eq_true (by omega))]
    exact congrArg (fun text => [text]) (render_entryNote operand index value)
  · rw [if_neg hgreat, if_neg (by rw [decide_eq_true_eq]; omega)]
    rfl

theorem ProgramEntry.map_render_truncations (index : Nat) (e : ProgramEntry) :
    e.truncations.map (fun t => (entryNote (index, t)).render) =
      e.warningsIf isTooGreat index := by
  rw [truncations, List.map_append, map_render_check, map_render_check]
  rfl

/-- The values that are too great are warned of, and no others. -/
theorem Loader.warnings_build (l : Loader) (entries : List (Option ProgramEntry)) :
    (l.build entries).value.2.warnings.map Diagnostic.render =
      ((leadingEntries entries).mapIdx fun i e => e.warningsIf isTooGreat i).flatten := by
  rw [value_build, entryWarnings, List.map_flatten, List.mapIdx_eq_zipIdx_map,
    List.mapIdx_eq_zipIdx_map, List.map_map]
  apply congrArg List.flatten
  apply List.map_congr_left
  rintro ⟨e, i⟩ -
  dsimp only [Function.comp_apply]
  rw [List.map_map]
  exact e.map_render_truncations i

theorem ite_singleton_eq_iff {text : String} {p q : Bool} :
    (if p then [text] else []) = (if q then [text] else []) ↔ p = q := by
  cases p <;> cases q <;> simp

theorem sublist_ite_singleton {text : String} {p q : Bool} (h : p = true → q = true) :
    (if p then [text] else []).Sublist (if q then [text] else []) := by
  cases p with
  | false => exact List.nil_sublist _
  | true => rw [h rfl]

theorem isMasked_of_isTooGreat {value : Int} {size : Nat} (hsize : 0 < size)
    (h : isTooGreat value size = true) : isMasked value size = true := by
  rw [isMasked_eq hsize, h, Bool.or_true]

theorem isTooGreat_eq_isMasked_iff {value : Int} {size : Nat} (hsize : 0 < size) :
    isTooGreat value size = isMasked value size ↔ 0 ≤ value := by
  rw [isMasked_eq hsize, Bool.eq_iff_iff]
  simp only [isTooGreat, Bool.or_eq_true, decide_eq_true_eq]
  omega

namespace ProgramEntry

theorem sublist_warningsIf (index : Nat) (e : ProgramEntry) :
    (e.warningsIf isTooGreat index).Sublist (e.warningsIf isMasked index) :=
  (sublist_ite_singleton (isMasked_of_isTooGreat (by decide))).append
    (sublist_ite_singleton (isMasked_of_isTooGreat (by decide)))

theorem warningsIf_eq_iff (index : Nat) (e : ProgramEntry) :
    e.warningsIf isTooGreat index = e.warningsIf isMasked index ↔
      0 ≤ e.address ∧ 0 ≤ e.control := by
  rw [warningsIf, warningsIf, append_eq_append_iff_of_sublist
      (sublist_ite_singleton (isMasked_of_isTooGreat (by decide)))
      (sublist_ite_singleton (isMasked_of_isTooGreat (by decide))),
    ite_singleton_eq_iff, ite_singleton_eq_iff, isTooGreat_eq_isMasked_iff (by decide),
    isTooGreat_eq_isMasked_iff (by decide)]

end ProgramEntry

theorem entryWarnings_of_not_usable (h : ∀ item? ∈ before, Usable item?) (hbad : ¬ Usable bad)
    (after : List (Option ProgramEntry)) :
    entryWarnings (before ++ bad :: after) = entryWarnings before := by
  have hbefore : ∀ item? ∈ before, isUsable item? = true :=
    fun item? hitem => isUsable_iff.2 (h item? hitem)
  rw [entryWarnings, List.takeWhile_append_of_pos hbefore,
    List.takeWhile_cons_of_neg (mt isUsable_iff.1 hbad), List.append_nil, entryWarnings,
    List.takeWhile_eq_self_iff.2 hbefore]

/-- Building entries gives an image exactly if every item is usable, and then each word holds what
is left of the values in its fields; else the first item that is not usable decides the error, and
the warnings are those of the items before it. Every value that is too great is warned of, and the
warnings tell of every value that is cut exactly if none of the values is negative. -/
theorem Loader.build_warns_of_masked_iff (l : Loader) (entries : List (Option ProgramEntry)) :
    let built := (l.build entries).value
    ((∃ image, built.1 = .ok image) ↔ ∀ item? ∈ entries, Usable item?) ∧
    (∀ image, built.1 = .ok image →
      List.Forall₂ (fun item? w => ∃ e ∈ item?, e.Gives w) entries (Image.decode image)) ∧
    (∀ before bad after, entries = before ++ bad :: after → (∀ item? ∈ before, Usable item?) →
      ¬ Usable bad →
      built.1 = .error (refusal bad) ∧
      (∀ e ∈ bad, (refusal bad).message = "Unknown mnemonic: " ++ e.mnemonic) ∧
      built.2.warnings = (l.build before).value.2.warnings) ∧
    built.2.warnings.map Diagnostic.render =
      ((leadingEntries entries).mapIdx fun i e => e.warningsIf isTooGreat i).flatten ∧
    (built.2.warnings.map Diagnostic.render =
        ((leadingEntries entries).mapIdx fun i e => e.warningsIf isMasked i).flatten ↔
      ∀ e ∈ leadingEntries entries, 0 ≤ e.address ∧ 0 ≤ e.control) := by
  intro built
  have husable : ∀ image, built.1 = .ok image → ∀ item? ∈ entries, Usable item? := by
    intro image himage
    by_contra hnot
    obtain ⟨before, bad, after, rfl, hbefore, hbad⟩ := exists_first_not_usable hnot
    rw [build_of_not_usable l hbefore hbad] at himage
    cases himage
  refine ⟨⟨fun ⟨image, himage⟩ => husable image himage, fun hall => ?_⟩, ?_, ?_, ?_, ?_⟩
  · obtain ⟨words, -, hbuilt⟩ := build_of_usable l hall
    exact ⟨_, hbuilt⟩
  · intro image himage
    obtain ⟨words, hwords, hbuilt⟩ := build_of_usable l (husable image himage)
    rw [himage] at hbuilt
    cases hbuilt
    rw [Image.decode_packWords]
    exact hwords
  · rintro before bad after rfl hbefore hbad
    refine ⟨build_of_not_usable l hbefore hbad after, ?_, ?_⟩
    · rintro e ⟨⟩
      rfl
    · rw [value_build, value_build, entryWarnings_of_not_usable hbefore hbad]
  · exact warnings_build l entries
  · rw [warnings_build]
    apply flatten_mapIdx_eq_iff
    · exact ProgramEntry.sublist_warningsIf
    · exact ProgramEntry.warningsIf_eq_iff

/-- Two entries that are too great for their fields, a ligature in the first mnemonic, and an item
without a mnemonic. -/
theorem Loader.build_warns_of_masked_iff_ligature :
    let front : List (Option ProgramEntry) :=
      [some ⟨"ﬆo", some 99, none⟩, some ⟨"one", some 0o77, some 5⟩]
    (Loader.build front {}).value.1 = .ok [0x88, 0xC4, 0xFD] ∧
      List.Forall₂ (fun item? w => ∃ e ∈ item?, e.Gives w) front
        (Image.decode [0x88, 0xC4, 0xFD]) ∧
      (∀ e ∈ leadingEntries front, 0 ≤ e.address ∧ 0 ≤ e.control) ∧
      (Loader.build front {}).value.2.warnings.map Diagnostic.render =
        ["Entry 0: address 99 does not fit its field, truncated to 35",
          "Entry 1: control 5 does not fit its field, truncated to 1"] ∧
      (∀ item? ∈ front, Usable item?) ∧ ¬ Usable none ∧
      (Loader.build (front ++ [none]) {}).value.1 = .error .emptyEntry := by
  intro front
  have hbuilt : (Loader.build front {}).value.1 = .ok [0x88, 0xC4, 0xFD] := by decide
  have hnone : ¬ Usable none := by
    rintro ⟨e, he, -⟩
    cases he
  have hnonneg : ∀ e ∈ leadingEntries front, 0 ≤ e.address ∧ 0 ≤ e.control := by decide
  obtain ⟨hreturns, hwords, -, -, hmasked⟩ := Loader.build_warns_of_masked_iff {} front
  have hfront := hreturns.1 ⟨_, hbuilt⟩
  obtain ⟨-, -, hfirst, -⟩ := Loader.build_warns_of_masked_iff {} (front ++ [none])
  refine ⟨hbuilt, hwords _ hbuilt, hnonneg, ?_, hfront, hnone, ?_⟩
  · rw [hmasked.2 hnonneg]
    decide
  · exact (hfirst front none [] rfl hfront hnone).1

/-- A negative address is cut, and no warning tells of it. -/
theorem Loader.build_masks_negative_in_silence :
    let built := (Loader.build [some ⟨"LD", some (-1), none⟩] {}).value
    built.1 = .ok [0x1F, 0xC0] ∧ built.2.warnings = [] ∧
      ((leadingEntries [some ⟨"LD", some (-1), none⟩]).mapIdx fun i e =>
        e.warningsIf isMasked i).flatten =
          ["Entry 0: address -1 does not fit its field, truncated to 63"] := by
  decide

end OneBit
