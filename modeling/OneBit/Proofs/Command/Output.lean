import OneBit.Proofs.Command.Task
/-!
# What a command line writes

A run changes no file but the output of a program that it assembled.  The output then holds the
program and nothing of what was there before.  Only a format that is left blank loses a file: the
output is opened, and so emptied, before it is known that there is nothing to write.
-/

namespace OneBit.Command

open Text

variable {σ : Type}

/-- A task that comes to open its output: its source is read without an error and shown, and the
output can be opened. -/
inductive Task.Delivers (host : Host σ) (files : σ) :
    Task → Option OutputFormat → Raw → List Node → σ → Prop
  | assemble {input output : Raw} {format? : Option OutputFormat} {quiet : Bool}
      {nodes : List Node} {listing? : Option Listing} {text : String} {opened : σ}
      (hready : Ready host files input quiet nodes listing? text)
      (hcreate : host.create files output = .ok opened) :
      Delivers host files (.assemble input (some output) format? quiet) format? output nodes opened

/-- An invocation that comes to open its output. Without a level for the log nothing is read. -/
structure Invocation.Delivers (host : Host σ) (files : σ) (i : Invocation)
    (format? : Option OutputFormat) (output : Raw) (nodes : List Node) (opened : σ) : Prop where
  level : i.level? ≠ none
  task : i.task.Delivers host files format? output nodes opened

/-- The files after a run are those before it, but for the output of a program that was assembled.
That is written as its format says, and no other file changes. -/
structure KeepsFiles {host : Host σ} (view : host.Files) (i : Invocation) (files after : σ) :
    Prop where
  written : ∀ format output nodes opened,
    i.Delivers host files (some format) output nodes opened →
      after = (host.write opened output (fileContent nodes format)).2
  content : ∀ format output nodes opened,
    i.Delivers host files (some format) output nodes opened → view.Regular files output →
      view.content? after output = some (fileContent nodes format)
  elsewhere : ∀ format output nodes opened,
    i.Delivers host files (some format) output nodes opened → view.Regular files output →
      ∀ path, ¬ view.Same files path output → view.content? after path = view.content? files path
  kept : (∀ format output nodes opened,
    ¬ i.Delivers host files (some format) output nodes opened) → after = files

variable {host : Host σ} {files opened : σ} {task : Task} {i : Invocation}
  {environment : Option Raw} {arguments : List Raw} {output : Raw} {format? : Option OutputFormat}
  {nodes : List Node}

theorem Ready.unique {input : Raw} {quiet : Bool} {nodes' : List Node}
    {listing? listing?' : Option Listing} {text text' : String}
    (h : Ready host files input quiet nodes listing? text)
    (h' : Ready host files input quiet nodes' listing?' text') : nodes' = nodes := by
  obtain ⟨source, ⟨bytes, hbytes, htext⟩, hparse⟩ := h.source
  obtain ⟨source', ⟨bytes', hbytes', htext'⟩, hparse'⟩ := h'.source
  obtain rfl := Except.ok.inj (hbytes.symm.trans hbytes')
  obtain rfl := Option.some.inj (htext.symm.trans htext')
  exact Except.ok.inj (hparse'.symm.trans hparse)

theorem Task.Delivers.unique {format?' : Option OutputFormat} {output' : Raw}
    {nodes' : List Node} {opened' : σ} (h : task.Delivers host files format? output nodes opened)
    (h' : task.Delivers host files format?' output' nodes' opened') :
    format?' = format? ∧ output' = output ∧ nodes' = nodes ∧ opened' = opened := by
  cases h with
  | assemble hready hcreate =>
      cases h' with
      | assemble hready' hcreate' =>
          exact ⟨rfl, rfl, hready.unique hready', Except.ok.inj (hcreate'.symm.trans hcreate)⟩

theorem Task.Delivers.create (h : task.Delivers host files format? output nodes opened) :
    host.create files output = .ok opened := by
  cases h with
  | assemble _ hcreate => exact hcreate

/-- The files after the output was opened: a program is written if it has a format. -/
def delivered (host : Host σ) (format? : Option OutputFormat) (output : Raw) (nodes : List Node)
    (opened : σ) : σ :=
  match format? with
  | none => opened
  | some format => (host.write opened output (fileContent nodes format)).2

theorem Task.Delivers.ends (h : task.Delivers host files format? output nodes opened) :
    ∃ ending, task.Ends host files ending (delivered host format? output nodes opened) := by
  cases h with
  | assemble hready hcreate =>
      cases format? with
      | none => exact ⟨_, .noFormat hready hcreate⟩
      | some format =>
          cases hwrite : (host.write opened output (fileContent nodes format)).1 with
          | none => exact ⟨_, .written hready hcreate (Prod.ext hwrite rfl)⟩
          | some fault => exact ⟨_, .unwritten hready hcreate (Prod.ext hwrite rfl)⟩

theorem Task.Ends.eq_of_not_delivers {ending : Ending} {after : σ}
    (h : task.Ends host files ending after)
    (hnot : ∀ format? output nodes opened,
      ¬ task.Delivers host files format? output nodes opened) : after = files := by
  cases h with
  | noFormat hready hcreate | unwritten hready hcreate _ | written hready hcreate _ =>
      exact absurd (.assemble hready hcreate) (hnot _ _ _ _)
  | _ => rfl

/-! ## Command lines -/

section

variable (h : Invocation.ofArguments environment arguments = .ok i)
include h

theorem run_of_delivers (hi : i.Delivers host files format? output nodes opened) :
    (run host environment arguments files).2 = delivered host format? output nodes opened := by
  obtain ⟨ending, hends⟩ := hi.task.ends
  exact (Invocation.Ends.run h (.task hi.level hends)).2

theorem run_of_not_delivers
    (hi : ∀ format? output nodes opened, ¬ i.Delivers host files format? output nodes opened) :
    (run host environment arguments files).2 = files := by
  by_cases hlevel : i.level? = none
  · rw [run_without_level h hlevel]
  obtain ⟨ending, after, hends⟩ := i.task.exists_ends host files
  rw [(Invocation.Ends.run h (.task hlevel hends)).2]
  apply hends.eq_of_not_delivers
  intro format? output nodes opened htask
  exact hi format? output nodes opened ⟨hlevel, htask⟩

end

theorem keepsFiles_delivered (view : host.Files) (hwrites : host.WritesOpened)
    {format : OutputFormat} (hi : i.Delivers host files (some format) output nodes opened) :
    KeepsFiles view i files (delivered host (some format) output nodes opened) where
  written := by
    intro format' output' nodes' opened' hi'
    obtain ⟨hformat, rfl, rfl, rfl⟩ := hi.task.unique hi'.task
    cases hformat
    rfl
  content := by
    intro format' output' nodes' opened' hi' hregular
    obtain ⟨hformat, rfl, rfl, rfl⟩ := hi.task.unique hi'.task
    cases hformat
    exact view.content_write hregular hi'.task.create (hwrites hi'.task.create _)
  elsewhere := by
    intro format' output' nodes' opened' hi' hregular path hpath
    obtain ⟨hformat, rfl, rfl, rfl⟩ := hi.task.unique hi'.task
    cases hformat
    exact view.content_write_of_not_same hregular hi'.task.create hpath _
  kept hnot := absurd hi (hnot format output nodes opened)

/-- Nothing that is promised of a delivery is asked of a run that delivers nothing. -/
theorem keepsFiles_iff_of_not_delivers (view : host.Files) {after : σ}
    (hnot : ∀ format output nodes opened,
      ¬ i.Delivers host files (some format) output nodes opened) :
    KeepsFiles view i files after ↔ after = files := by
  refine ⟨fun hkeeps => hkeeps.kept hnot, ?_⟩
  rintro rfl
  refine ⟨?_, ?_, ?_, fun _ => rfl⟩
  all_goals
    intro format output nodes opened hi
    exact absurd hi (hnot format output nodes opened)

/-- A run keeps all files but the output of a program, and the output is as its format says, unless
the format is blank: then the files are kept exactly if opening the output leaves them as they
are. -/
theorem run_keeps_files_iff (view : host.Files) (hwrites : host.WritesOpened)
    (h : Invocation.ofArguments environment arguments = .ok i) (files : σ) :
    KeepsFiles view i files (run host environment arguments files).2 ↔
      ∀ output nodes opened, i.Delivers host files none output nodes opened → opened = files := by
  by_cases hdelivers : ∃ format? output nodes opened,
      i.Delivers host files format? output nodes opened
  · obtain ⟨format?, output, nodes, opened, hi⟩ := hdelivers
    rw [run_of_delivers h hi]
    cases format? with
    | some format =>
        refine iff_of_true (keepsFiles_delivered view hwrites hi) ?_
        intro output' nodes' opened' hi'
        cases (hi.task.unique hi'.task).1
    | none =>
        -- The output was emptied, and a program without a format has nothing to put there.
        have hnot : ∀ format output nodes opened,
            ¬ i.Delivers host files (some format) output nodes opened := by
          intro format output' nodes' opened' hi'
          cases (hi.task.unique hi'.task).1
        rw [keepsFiles_iff_of_not_delivers view hnot]
        refine ⟨?_, fun hall => hall output nodes opened hi⟩
        rintro hopened output' nodes' opened' hi'
        rw [(hi.task.unique hi'.task).2.2.2]
        exact hopened
  · simp only [not_exists] at hdelivers
    rw [run_of_not_delivers h hdelivers,
      keepsFiles_iff_of_not_delivers view fun format => hdelivers (some format)]
    refine iff_of_true rfl ?_
    exact fun output nodes opened hi => absurd hi (hdelivers none output nodes opened)

/-- The output replaces the source it was made from, which it names by another path. -/
theorem run_keeps_files_iff_same_file :
    let host := Host.ofTrees Console.plain
    let view := Host.filesOfTrees Console.plain
    let tree : FileTree :=
      { entries := [([['w']], .directory),
          ([['w'], "p.asm".toList], .file (encodeFile "ONE 0o77 0b0\n"))]
        working := [['w']] }
    let arguments : List Raw := ["asm", "-q", "p.asm", "/w/../w/p.asm", "-f", "hex"]
    let i : Invocation :=
      ⟨.assemble "p.asm" (some "/w/../w/p.asm") (some .hex) true, false, some .warning⟩
    Invocation.ofArguments none arguments = .ok i ∧ host.WritesOpened ∧
      KeepsFiles view i tree (run host none arguments tree).2 ∧
      view.content? (run host none arguments tree).2 "p.asm" =
        some (encodeFile "0000: 4FC\n") := by
  intro host view tree arguments i
  have hi : Invocation.ofArguments none arguments = .ok i := rfl
  have hwrites : host.WritesOpened := Host.writesOpened_ofTrees _
  refine ⟨hi, hwrites, (run_keeps_files_iff view hwrites hi tree).2 ?_, by decide +kernel⟩
  rintro output nodes opened ⟨-, htask⟩
  cases htask

/-- With a blank format an image that was there is lost. -/
theorem run_blank_format_empties_output :
    let host := Host.ofTrees Console.plain
    let view := Host.filesOfTrees Console.plain
    let tree : FileTree :=
      { entries :=
          [(["p.asm".toList], .file (encodeFile "ONE 0o77 0b0\n")),
            (["o".toList], .file [0x4F, 0xC0])] }
    let arguments : List Raw := ["asm", "-q", "p.asm", "o", "--format=--"]
    let i : Invocation := ⟨.assemble "p.asm" (some "o") none true, false, some .warning⟩
    Invocation.ofArguments none arguments = .ok i ∧
      (run host none arguments tree).1.status = .broken .noFormat ∧
      view.content? (run host none arguments tree).2 "o" = some [] ∧
      ¬ KeepsFiles view i tree (run host none arguments tree).2 := by
  intro host view tree arguments i
  have hempty : view.content? (run host none arguments tree).2 "o" = some [] := by decide +kernel
  have himage : view.content? tree "o" = some [0x4F, 0xC0] := by decide +kernel
  refine ⟨by decide +kernel, by decide +kernel, hempty, ?_⟩
  intro hkeeps
  have hkept : (run host none arguments tree).2 = tree := by
    refine hkeeps.kept ?_
    rintro format output nodes opened ⟨-, htask⟩
    cases htask
  rw [hkept, himage] at hempty
  cases hempty

end OneBit.Command
