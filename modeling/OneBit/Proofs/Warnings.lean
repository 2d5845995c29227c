import OneBit.Proofs.Assembler
/-!
# No value is cut in silence

The warnings of an assembled source, from its text alone: for each line the values that do not fit
their fields, with the number of the line and what is kept, and at the end that there are no words,
if so.  Where there is no warning of a cut, every value in the program is the one that was written.
-/

namespace OneBit

open Text Source

theorem Truncation.kept_natCast (operand : Operand) (value : Nat) :
    (⟨operand, value⟩ : Truncation).kept = value % operand.field.size := by
  change ((value : Int) % (operand.field.size : Nat)).toNat = _
  rw [← Int.natCast_mod, Int.toNat_natCast]

namespace Grammar

/-! ## What is to be warned of -/

/-- The number of a line of a program: one more than the line feeds before it in the text, those
around the program included. -/
def lineNumber (text : List Char) (i : Nat) : Nat :=
  (text.take (lineStart text ((programLines text).take i))).count '\n' + 1

/-- The warning of a value on a line that does not fit a field of so many values. -/
def cutWarning (line : Nat) (name : String) (value size : Nat) : String :=
  let kept := value % size
  s!"Line {line}: {name} {value} does not fit its field, truncated to {kept}"

namespace Statement

/-- The warnings about a statement on a line of the given number. -/
def warnings (line : Nat) : Statement → List String
  | comment _ => []
  | word _ address control =>
    (if 63 < address then [cutWarning line "address" address 64] else []) ++
      if 3 < control then [cutWarning line "control" control 4] else []

/-- A node holds of each value in a statement what fits the field. -/
inductive Stored : Statement → Node → Prop
  | comment {body : List Char} {text : String} : Stored (.comment body) (.comment text)
  | word {i : Instruction} {address control : Nat} {w : Word} (hinstruction : w.instruction = i)
      (haddress : w.address.value = address % 64) (hcontrol : w.control.code = control % 4) :
      Stored (.word i address control) (.word w)

/-- A node holds each value in a statement as it is written. -/
inductive Exact : Statement → Node → Prop
  | comment {body : List Char} {text : String} : Exact (.comment body) (.comment text)
  | word {i : Instruction} {address control : Nat} {w : Word}
      (haddress : w.address.value = address) (hcontrol : w.control.code = control) :
      Exact (.word i address control) (.word w)

theorem stored_node (s : Statement) : Stored s s.node := by
  cases s with
  | comment body => exact .comment
  | word i address control =>
      refine .word rfl rfl ?_
      rw [controlOf, Control.code_ofCode]

theorem warnings_eq_nil_iff (s : Statement) (line : Nat) :
    s.warnings line = [] ↔ Exact s s.node := by
  cases s with
  | comment body => exact iff_of_true rfl .comment
  | word i address control =>
      have hcode : (controlOf control).code.val = control % 4 := by
        rw [controlOf, Control.code_ofCode]
      have hfits : (Statement.word i address control).warnings line = [] ↔
          address ≤ 63 ∧ control ≤ 3 := by
        simp [warnings]
      rw [hfits]
      constructor
      · rintro ⟨haddress, hcontrol⟩
        refine .word ?_ ?_
        · exact Nat.mod_eq_of_lt (by omega)
        · rw [hcode]
          exact Nat.mod_eq_of_lt (by omega)
      · intro h
        cases h with
        | word haddress hcontrol =>
            have haddress' : address % 64 = address := haddress
            rw [hcode] at hcontrol
            omega

end Statement

theorem forall₂_map_node {r : Statement → Node → Prop} {statements : List Statement} :
    List.Forall₂ r statements (statements.map Statement.node) ↔ ∀ s ∈ statements, r s s.node := by
  rw [List.forall₂_map_right_iff, List.forall₂_same]

/-! ## Numbers of lines -/

theorem lineNumber_eq {text : List Char} {i : Nat} (h : i < (programLines text).length) :
    lineNumber text i = (text.takeWhile isBlank).count '\n' + 1 + i := by
  have hlines : programLines text =
      (programLines text).take i ++ (programLines text)[i] :: (programLines text).drop (i + 1) := by
    rw [List.getElem_cons_drop, List.take_append_drop]
  have hfeeds : ∀ line ∈ (programLines text).take i, '\n' ∉ line := fun line hline =>
    notMem_of_mem_programLines (List.mem_of_mem_take hline)
  rw [lineNumber, take_lineStart hlines, List.count_append, count_endLines hfeeds, List.length_take]
  omega

/-! ## Warnings as texts -/

theorem render_truncationNote (operand : Operand) (line value : Nat) :
    (truncationNote (line, ⟨operand, value⟩)).render =
      cutWarning line operand.name value operand.field.size := by
  change "Line " ++ toString line ++ ": " ++ (operand.name ++ " " ++ toString value ++
    " does not fit its field, truncated to " ++ toString (⟨operand, value⟩ : Truncation).kept) = _
  rw [Truncation.kept_natCast]
  unfold cutWarning
  simp only [String.append_assoc]
  rfl

theorem map_render_truncations (s : Statement) (line : Nat) :
    s.truncations.map (fun t => (truncationNote (line, t)).render) = s.warnings line := by
  cases s with
  | comment body => rfl
  | word i address control =>
      have haddress : (truncationNote (line, ⟨.address, address⟩)).render =
          cutWarning line "address" address 64 := render_truncationNote .address line address
      have hcontrol : (truncationNote (line, ⟨.control, control⟩)).render =
          cutWarning line "control" control 4 := render_truncationNote .control line control
      rw [Statement.truncations, Statement.warnings, List.map_append, apply_ite (List.map _),
        apply_ite (List.map _), List.map_singleton, List.map_singleton, haddress, hcontrol,
        List.map_nil]

/-- The warnings of lines, one after the other. The induction is on the lines; each takes the next
number. -/
theorem map_render_truncationsFrom (start : Nat) (statements : List Statement) :
    (truncationsFrom start statements).map (fun w => (truncationNote w).render) =
      (statements.mapIdx fun i s => s.warnings (start + i)).flatten := by
  induction statements generalizing start with
  | nil => rfl
  | cons s statements ih =>
      have hnext : ∀ i, start + 1 + i = start + (i + 1) := by omega
      rw [truncationsFrom, List.map_append, List.map_map, ih, List.mapIdx_cons, List.flatten_cons,
        ← map_render_truncations]
      simp only [hnext]
      rfl

/-- A warning of a cut is never the one about a program without words. -/
theorem cutWarning_ne_emptyNote (line : Nat) (name : String) (value size : Nat) :
    cutWarning line name value size ≠ Assembler.emptyNote.render := by
  intro h
  have hhead := congrArg (fun text => text.toList.head?) h
  simp [cutWarning, Assembler.emptyNote, Diagnostic.render, toString] at hhead

theorem ne_emptyNote_of_mem_warnings {s : Statement} {line : Nat} {text : String}
    (h : text ∈ s.warnings line) : text ≠ Assembler.emptyNote.render := by
  cases s with
  | comment body => cases h
  | word i address control =>
      rw [Statement.warnings, List.mem_append, List.mem_ite_nil_right, List.mem_ite_nil_right,
        List.mem_singleton, List.mem_singleton] at h
      rcases h with ⟨-, rfl⟩ | ⟨-, rfl⟩
      · exact cutWarning_ne_emptyNote _ _ _ _
      · exact cutWarning_ne_emptyNote _ _ _ _

theorem flatten_warnings_eq_nil_iff (number : Nat → Nat) (statements : List Statement) :
    (statements.mapIdx fun i s => s.warnings (number i)).flatten = [] ↔
      List.Forall₂ Statement.Exact statements (statements.map Statement.node) := by
  rw [forall₂_map_node, List.flatten_eq_nil_iff]
  constructor
  · intro h s hs
    obtain ⟨i, hi, rfl⟩ := List.getElem_of_mem hs
    exact (Statement.warnings_eq_nil_iff _ (number i)).1 (h _ (List.mem_mapIdx.2 ⟨i, hi, rfl⟩))
  · intro h texts htexts
    obtain ⟨i, hi, rfl⟩ := List.mem_mapIdx.1 htexts
    exact (Statement.warnings_eq_nil_iff _ _).2 (h _ (List.getElem_mem hi))

end Grammar

namespace Assembler

open Grammar

theorem map_render_warnings {source : String} {statements : List Statement}
    (h : List.Forall₂ Line (programLines source.toList) statements) :
    (ofSource source).warnings.map Diagnostic.render =
      (statements.mapIdx fun i s => s.warnings (lineNumber source.toList i)).flatten ++
        if (ofSource source).words = [] then [emptyNote.render] else [] := by
  have hnumber : (statements.mapIdx fun i s => s.warnings (lineNumber source.toList i)) =
      statements.mapIdx fun i s =>
        s.warnings ((source.toList.takeWhile isBlank).count '\n' + 1 + i) := by
    rw [List.mapIdx_eq_mapIdx_iff]
    intro i hi
    rw [lineNumber_eq (h.length_eq ▸ hi)]
  rw [ofSource_of_ok (parse_of_statements h), hnumber, ← map_render_truncationsFrom,
    List.map_append, Reading.notes, readProgram_of_statements h, List.map_map,
    apply_ite (List.map _)]
  rfl

/-- The warnings of a source that was assembled are those of its lines, in order, and one about a
program without words. A cut keeps what the field holds, so no warning tells of a cut exactly if
each value is stored as it is written. -/
theorem warnings_of_succeeded (source : String) (h : (assemble source).value.succeeded = true) :
    let a := (assemble source).value
    (∃ statements, List.Forall₂ Line (programLines source.toList) statements) ∧
    ∀ statements, List.Forall₂ Line (programLines source.toList) statements →
      List.Forall₂ Statement.Stored statements a.nodes ∧
      a.warnings.map Diagnostic.render =
        (statements.mapIdx fun i s => s.warnings (lineNumber source.toList i)).flatten ++
          (if a.words = [] then ["Program contains no words"] else []) ∧
      ((∀ text ∈ a.warnings.map Diagnostic.render, text = "Program contains no words") ↔
        List.Forall₂ Statement.Exact statements a.nodes) := by
  rw [value_assemble] at h ⊢
  obtain ⟨nodes, hparse⟩ := (succeeded_iff source).1 h
  obtain ⟨statements, hstatements, -⟩ := statements_of_parse hparse
  refine ⟨⟨statements, hstatements⟩, fun statements hstatements => ?_⟩
  have hnodes : (ofSource source).nodes = statements.map Statement.node := by
    rw [ofSource_of_ok (parse_of_statements hstatements)]
  have hwarnings := map_render_warnings hstatements
  refine ⟨?_, hwarnings, ?_⟩
  · rw [hnodes, forall₂_map_node]
    exact fun s _ => s.stored_node
  · rw [hwarnings, hnodes, ← flatten_warnings_eq_nil_iff (lineNumber source.toList)]
    constructor
    · intro hall
      rw [List.eq_nil_iff_forall_not_mem]
      intro text htext
      obtain ⟨texts, htexts, hmem⟩ := List.mem_flatten.1 htext
      obtain ⟨i, hi, rfl⟩ := List.mem_mapIdx.1 htexts
      exact ne_emptyNote_of_mem_warnings hmem (hall text (List.mem_append_left _ htext))
    · intro hnil text htext
      rw [hnil, List.nil_append, List.mem_ite_nil_right, List.mem_singleton] at htext
      exact htext.2

/-- On the second line of a text whose first is blank both values are cut, so the program is not
what was written. -/
theorem warnings_of_succeeded_second_line :
    (assemble "\nld 0o177 0b111").value.succeeded = true ∧
      (assemble "\nld 0o177 0b111").value.warnings.map Diagnostic.render =
        ["Line 2: address 127 does not fit its field, truncated to 63",
          "Line 2: control 7 does not fit its field, truncated to 3"] ∧
      ∃ statements, List.Forall₂ Line (programLines "\nld 0o177 0b111".toList) statements ∧
        ¬ List.Forall₂ Statement.Exact statements (assemble "\nld 0o177 0b111").value.nodes := by
  have hsucceeded : (assemble "\nld 0o177 0b111").value.succeeded = true := rfl
  have hwarnings : (assemble "\nld 0o177 0b111").value.warnings.map Diagnostic.render =
      ["Line 2: address 127 does not fit its field, truncated to 63",
        "Line 2: control 7 does not fit its field, truncated to 3"] := by decide
  obtain ⟨⟨statements, hstatements⟩, hall⟩ := warnings_of_succeeded _ hsucceeded
  refine ⟨hsucceeded, hwarnings, statements, hstatements, fun hexact => ?_⟩
  have hempty := (hall statements hstatements).2.2.2 hexact _ (hwarnings ▸ List.mem_cons_self)
  revert hempty
  decide

end Assembler

end OneBit
