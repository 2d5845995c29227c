import Mathlib.Data.List.ReduceOption
import OneBit.Proofs.Entries
/-!
# What a loader remembers

A loader that serves one request after the other remembers two things: the source it came to
assemble last, and the warnings about the program it made last.  Each request sets the one or the
other, both or none, whatever was there before and whether it succeeds or not.
-/

namespace OneBit

/-! ## Warnings about entries -/

/-- An entry that gives a word. -/
def isUsable (item? : Option ProgramEntry) : Bool := item?.any fun e => e.instruction?.isSome

/-- The warnings about entries: those of the values that are cut, up to the first entry that gives
no word. -/
def entryWarnings (entries : List (Option ProgramEntry)) : List Diagnostic :=
  ((entries.takeWhile isUsable).reduceOption.mapIdx fun i e =>
    e.truncations.map fun t => entryNote (i, t)).flatten

theorem notes_wordsOfEntries (index : Nat) (entries : List (Option ProgramEntry)) :
    (wordsOfEntries index entries).2 =
      ((entries.takeWhile isUsable).reduceOption.mapIdx fun i e =>
        e.truncations.map fun t => entryNote (index + i, t)).flatten := by
  induction entries generalizing index with
  | nil => rfl
  | cons item? rest ih =>
      cases item? with
      | none => rfl
      | some e =>
          have hnext : ∀ i, index + 1 + i = index + (i + 1) := by omega
          rw [wordsOfEntries, List.takeWhile_cons]
          cases hinstruction : e.instruction? with
          | none => simp [isUsable, hinstruction]
          | some instruction =>
              have husable : isUsable (some e) = true := by simp [isUsable, hinstruction]
              rw [if_pos husable, List.reduceOption_cons_of_some, List.mapIdx_cons,
                List.flatten_cons]
              simp only [ih, hnext]
              rfl

namespace Loader

/-! ## One request -/

/-- The source that a request comes to assemble. -/
def Request.source? (request : Request) (tree : FileTree) : Option String :=
  match request with
  | .assemble source => some source
  | .assembleFile path => (tree.readText path).toOption
  | _ => none

/-- The warnings that a request leaves, if it sets them. -/
def Request.warnings? (request : Request) (tree : FileTree) : Option (List Diagnostic) :=
  match request with
  | .build entries => some (entryWarnings entries)
  | _ => (request.source? tree).map fun source => (Assembler.ofSource source).warnings

theorem value_build (l : Loader) (entries : List (Option ProgramEntry)) :
    (l.build entries).value.2 = { l with warnings := entryWarnings entries } := by
  have hnotes : (wordsOfEntries 0 entries).2 = entryWarnings entries := by
    rw [notes_wordsOfEntries, entryWarnings]
    simp only [Nat.zero_add]
  unfold build
  rw [← hnotes]
  cases hwords : wordsOfEntries 0 entries with
  | mk outcome notes => cases outcome <;> rfl

theorem value_serve_assembleFile (tree : FileTree) (l : Loader) (path : String) :
    (l.serve tree (.assembleFile path)).value.2 =
      match tree.readText path with
      | .ok source => ofSource source
      | .error _ => l := by
  rw [serve, Logged.value_bind, assembleFile]
  cases tree.readText path with
  | ok source => exact congrArg Prod.snd (value_assemble source)
  | error e => rfl

/-- A request replaces what it sets and keeps the rest. -/
theorem value_serve (tree : FileTree) (l : Loader) (request : Request) :
    (l.serve tree request).value.2 =
      { assembler := ((request.source? tree).map Assembler.ofSource).getD l.assembler
        warnings := (request.warnings? tree).getD l.warnings } := by
  cases request with
  | assemble source => rw [value_serve_assemble]; rfl
  | assembleFile path =>
      have hsource : (Request.assembleFile path).source? tree = (tree.readText path).toOption := rfl
      have hwarnings : (Request.assembleFile path).warnings? tree =
          (tree.readText path).toOption.map fun source =>
            (Assembler.ofSource source).warnings := rfl
      rw [value_serve_assembleFile, hsource, hwarnings]
      cases tree.readText path <;> rfl
  | loadImage path => rfl
  | build entries =>
      have h := value_build l entries
      unfold serve
      rw [Logged.value_bind]
      exact h
  | words => rfl
  | comments => rfl

/-! ## Runs of requests -/

/-- A loader after requests, one after the other, each with the files as they are then. -/
def after (l : Loader) (turns : List (FileTree × Request)) : Loader :=
  turns.foldl (fun l turn => (l.serve turn.1 turn.2).value.2) l

theorem after_concat (l : Loader) (turns : List (FileTree × Request)) (turn : FileTree × Request) :
    l.after (turns ++ [turn]) = ((l.after turns).serve turn.1 turn.2).value.2 := by
  rw [after, List.foldl_append]
  rfl

/-- The sources that were assembled. -/
def sources (turns : List (FileTree × Request)) : List String :=
  turns.filterMap fun turn => turn.2.source? turn.1

/-- The warnings that were left, one list for each request that set them. -/
def warningLists (turns : List (FileTree × Request)) : List (List Diagnostic) :=
  turns.filterMap fun turn => turn.2.warnings? turn.1

theorem getLast?_filterMap_concat {α β : Type} (f : α → Option β) (l : List α) (a : α) :
    ((l ++ [a]).filterMap f).getLast? = (f a).or (l.filterMap f).getLast? := by
  rw [List.filterMap_append, List.getLast?_append]
  cases h : f a <;> simp [h]

theorem after_eq (l : Loader) (turns : List (FileTree × Request)) :
    l.after turns =
      { assembler := ((sources turns).getLast?.map Assembler.ofSource).getD l.assembler
        warnings := (warningLists turns).getLast?.getD l.warnings } := by
  induction turns using List.reverseRecOn with
  | nil => rfl
  | append_singleton turns turn ih =>
      have hsources : (sources (turns ++ [turn])).getLast? =
          (turn.2.source? turn.1).or (sources turns).getLast? := getLast?_filterMap_concat _ _ _
      have hwarnings : (warningLists (turns ++ [turn])).getLast? =
          (turn.2.warnings? turn.1).or (warningLists turns).getLast? :=
        getLast?_filterMap_concat _ _ _
      rw [after_concat, value_serve, ih, hsources, hwarnings]
      cases turn.2.source? turn.1 <;> cases turn.2.warnings? turn.1 <;> rfl

/-- After any requests a loader tells the errors, words and comments of the source it assembled
last, as a new assembler tells them, and the warnings that were left last. -/
theorem remembers_last (turns : List (FileTree × Request)) (tree : FileTree) :
    let l := after {} turns
    let a := ((sources turns).getLast?.map fun source =>
      (Assembler.serve {} (.assemble source)).value).getD {}
    l.errors = a.errors ∧
    (l.serve tree .words).value.1 = .ok (.words a.words) ∧
    (l.serve tree .comments).value.1 = .ok (.comments a.comments) ∧
    l.warnings = (warningLists turns).getLast?.getD [] ∧
    (∀ path, (l.serve tree (.loadImage path)).value.2 = l) ∧
    (∀ path, (l.serve tree (.assembleFile path)).value.2 =
      match tree.readText path with
      | .ok source => ofSource source
      | .error _ => l) ∧
    ∀ entries, (l.serve tree (.build entries)).value.2 =
      { l with warnings := entryWarnings entries } := by
  intro l a
  have hl : l = { assembler := a, warnings := (warningLists turns).getLast?.getD [] } :=
    after_eq {} turns
  refine ⟨?_, ?_, ?_, ?_, fun path => rfl, fun path => ?_, fun entries => ?_⟩
  · rw [hl]; rfl
  · rw [hl]; rfl
  · rw [hl]; rfl
  · rw [hl]
  · exact value_serve_assembleFile tree l path
  · rw [value_serve]
    rfl

end Loader

end OneBit
