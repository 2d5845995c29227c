import OneBit.Proofs.Image
import OneBit.Proofs.Source.Outcome
import OneBit.Session
/-!
# What assembling a source gives

An assembler and a loader have nothing of their own to say about a source: reading it decides the
outcome of every way to assemble it, and what was assembled before has no part in it.
-/

namespace OneBit

open Text Grammar Source

variable {source : String} {nodes : List Node} {e : SyntaxError}

/-! ## Words and comments -/

/-- The words and the comments among the nodes of a program, each in the order they stand in. -/
inductive Sorts : List Node → List Word → List String → Prop
  | nil : Sorts [] [] []
  | word {nodes words comments} (w : Word) (h : Sorts nodes words comments) :
      Sorts (.word w :: nodes) (w :: words) comments
  | comment {nodes words comments} (text : String) (h : Sorts nodes words comments) :
      Sorts (.comment text :: nodes) words (text :: comments)

theorem sorts_wordsOf_commentsOf (nodes : List Node) :
    Sorts nodes (wordsOf nodes) (commentsOf nodes) := by
  induction nodes with
  | nil => exact .nil
  | cons node nodes ih =>
      cases node with
      | word w =>
          rw [wordsOf_word_cons, commentsOf_word_cons]
          exact .word w ih
      | comment text =>
          rw [wordsOf_comment_cons, commentsOf_comment_cons]
          exact .comment text ih

/-! ## One source, all ways -/

namespace Assembler

theorem value_assemble (source : String) : (assemble source).value = ofSource source := rfl

theorem value_serve_assemble (a : Assembler) (source : String) :
    (a.serve (.assemble source)).value = ofSource source := rfl

theorem value_image (a : Assembler) : a.image.value = Image.encode a.nodes := rfl

theorem ofSource_of_error (h : parse source = .error e) :
    ofSource source = { errors := [errorNote e] } := by
  unfold parse at h
  unfold ofSource ofReading
  rw [h]

theorem ofSource_of_ok (h : parse source = .ok nodes) :
    ofSource source =
      { nodes
        warnings := (readProgram source).notes ++
          if wordsOf nodes = [] then [emptyNote] else [] } := by
  unfold parse at h
  unfold ofSource ofReading
  rw [h]
  by_cases hwords : wordsOf nodes = []
  · simp [hwords]
  · simp [hwords]

/-- An assembler succeeds exactly on the sources that can be read. -/
theorem succeeded_iff (source : String) :
    (ofSource source).succeeded = true ↔ ∃ nodes, parse source = .ok nodes := by
  cases h : parse source with
  | ok nodes => simp [ofSource_of_ok h, succeeded]
  | error e => simp [ofSource_of_error h, succeeded]

theorem render_errorNote (e : SyntaxError) :
    let line := e.position.line
    let column := e.position.column
    (errorNote e).render = s!"Line {line}: " ++ e.describe ++ s!" at column {column}" :=
  (String.append_assoc ..).symm

end Assembler

namespace Loader

/-- The loader that has assembled a source. -/
def ofSource (source : String) : Loader :=
  { assembler := .ofSource source, warnings := (Assembler.ofSource source).warnings }

theorem value_assemble (source : String) :
    (assemble source).value =
      (if (Assembler.ofSource source).succeeded then
          .ok (Image.encode (Assembler.ofSource source).nodes)
        else .error (.assembly (Assembler.ofSource source).errors),
        ofSource source) := by
  unfold assemble
  rw [Logged.value_bind, Assembler.value_assemble]
  by_cases h : (Assembler.ofSource source).succeeded = true
  · rw [if_pos h, if_pos h, Logged.value_bind, Logged.value_pure, Assembler.value_image, ofSource]
  · rw [if_neg h, if_neg h, Logged.value_pure, ofSource]
    rfl

theorem value_serve_assemble (tree : FileTree) (l : Loader) (source : String) :
    (l.serve tree (.assemble source)).value =
      ((assemble source).value.1.map .image, ofSource source) := by
  unfold serve
  rw [Logged.value_bind, value_assemble]
  rfl

theorem value_imageOfSource (source : String) :
    (imageOfSource source).value = (assemble source).value.1 := rfl

end Loader

/-- The image of a source that can be read, by every loader. -/
theorem Loader.assemble_of_ok (h : parse source = .ok nodes) :
    (assemble source).value = (.ok (Image.encode nodes), ofSource source) := by
  have hsucceeded := (Assembler.succeeded_iff source).2 ⟨nodes, h⟩
  rw [value_assemble, if_pos hsucceeded, Assembler.ofSource_of_ok h]

theorem Loader.assemble_of_error (h : parse source = .error e) :
    (assemble source).value = (.error (.assembly [Assembler.errorNote e]), ofSource source) := by
  have hfailed : ¬ (Assembler.ofSource source).succeeded = true := by
    rw [Assembler.succeeded_iff, h]
    rintro ⟨nodes, hnodes⟩
    cases hnodes
  rw [value_assemble, if_neg hfailed, Assembler.ofSource_of_error h]

theorem LoadError.message_assembly_singleton (note : Diagnostic) :
    (LoadError.assembly [note]).message = "Assembly failed:\n" ++ note.render := by
  change "Assembly failed:\n" ++ "\n".intercalate [note.render] = _
  rw [String.intercalate_singleton]

/-- Every way to assemble a source gives the program that is read from it and the image of the
program, or tells the one error that reading finds. What was assembled before has no part in it. -/
theorem assemble_agrees_with_parse (a : Assembler) (tree : FileTree) (l : Loader)
    (source : String) :
    let assembled := (a.serve (.assemble source)).value
    let loaded := (l.serve tree (.assemble source)).value
    let once := (imageOfSource source).value
    (∀ nodes, parse source = .ok nodes →
      assembled.succeeded = true ∧ assembled.errors = [] ∧ assembled.nodes = nodes ∧
        Sorts nodes assembled.words assembled.comments ∧
        assembled.image.value = Image.encode nodes ∧
        loaded.1 = .ok (.image (Image.encode nodes)) ∧ once = .ok (Image.encode nodes) ∧
        (loaded.2.serve tree .words).value.1 =
          .ok (.words (Image.decode (Image.encode nodes)))) ∧
    ∀ e, parse source = .error e →
      let line := e.position.line
      let column := e.position.column
      let note := s!"Line {line}: " ++ e.describe ++ s!" at column {column}"
      assembled.succeeded = false ∧ assembled.nodes = [] ∧ assembled.words = [] ∧
        assembled.comments = [] ∧ assembled.warnings = [] ∧
        assembled.errors.map Diagnostic.render = [note] ∧
        ∃ errors, loaded.1 = .error (.assembly errors) ∧ once = .error (.assembly errors) ∧
          (LoadError.assembly errors).message = "Assembly failed:\n" ++ note := by
  simp only [Assembler.value_serve_assemble, Loader.value_serve_assemble,
    Loader.value_imageOfSource]
  constructor
  · intro nodes h
    have hwords : Image.decode (Image.encode nodes) = wordsOf nodes := Image.decode_packWords _
    rw [Loader.assemble_of_ok h, hwords, Loader.ofSource, Assembler.ofSource_of_ok h]
    exact ⟨rfl, rfl, rfl, sorts_wordsOf_commentsOf nodes, rfl, rfl, rfl, rfl⟩
  · intro e h
    rw [Loader.assemble_of_error h, Assembler.ofSource_of_error h, ← Assembler.render_errorNote]
    refine ⟨rfl, rfl, rfl, rfl, rfl, rfl, [Assembler.errorNote e], rfl, rfl, ?_⟩
    exact LoadError.message_assembly_singleton _

/-- A comment between two words, and a line that breaks off after a value was cut. -/
theorem assemble_agrees_with_parse_both_outcomes :
    let source := "One 0o77 0b0\n; on\nStoC 0o50 0b0"
    let nodes : List Node :=
      [.word ⟨.one, ⟨63⟩, .null⟩, .comment " on", .word ⟨.stoc, ⟨40⟩, .null⟩]
    let assembled := (Assembler.serve {} (.assemble source)).value
    (parse source = .ok nodes ∧ Sorts nodes assembled.words assembled.comments ∧
      (imageOfSource source).value = .ok [0x4F, 0xC9, 0xA0]) ∧
    parse "ld 0o177 0b0\nld" = .error ⟨.moreInput, 15, ⟨2, 3⟩, []⟩ ∧
      (Assembler.serve { errors := [Assembler.emptyNote] }
          (.assemble "ld 0o177 0b0\nld")).value.errors.map Diagnostic.render =
        ["Line 2: unexpected end of input at column 3"] := by
  intro source nodes assembled
  have hok : parse source = .ok nodes := by decide +kernel
  have herror : parse "ld 0o177 0b0\nld" = .error ⟨.moreInput, 15, ⟨2, 3⟩, []⟩ := rfl
  obtain ⟨-, -, -, hsorts, -, -, honce, -⟩ := (assemble_agrees_with_parse {} {} {} source).1 _ hok
  obtain ⟨-, -, -, -, -, herrors, -⟩ := (assemble_agrees_with_parse
    { errors := [Assembler.emptyNote] } {} {} _).2 _ herror
  exact ⟨⟨hok, hsorts, honce⟩, herror, herrors⟩

end OneBit
