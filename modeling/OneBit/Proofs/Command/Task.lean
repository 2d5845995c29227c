import OneBit.Command.Run
import OneBit.Proofs.Assembler
import OneBit.Proofs.Command.Host
/-!
# How a task ends

A task completes what it is for, is refused with an error that it tells, or breaks off.  Which of
these happens is a relation between the files before and after, with one case for each place at
which a task can stop.  Every task ends in one of these ways and its report says so.
-/

namespace OneBit.Command

open Text

variable {σ : Type}

/-! ## Endings -/

/-- What an output file holds. -/
def fileContent (nodes : List Node) : OutputFormat → List UInt8
  | .bin => Image.encode nodes
  | .hex => encodeFile (Dump.hexText (wordsOf nodes) ++ "\n")
  | .mem => encodeFile (Dump.memText (wordsOf nodes) ++ "\n")

/-- What a run shows of a program: its listing and the text that is printed for it, or nothing if it
is quiet. -/
inductive Shows (print : Console) (input : Raw) (nodes : List Node) :
    Bool → Option Listing → String → Prop
  | quiet : Shows print input nodes true none ""
  | listed {text : String} (hprint : print (.ofWords (wordsOf nodes) (some input)) = .ok text) :
      Shows print input nodes false (some (.ofWords (wordsOf nodes) (some input))) text

/-- A source that was read without an error and shown, so that only the output is left. -/
structure Ready (host : Host σ) (files : σ) (input : Raw) (quiet : Bool) (nodes : List Node)
    (listing? : Option Listing) (text : String) : Prop where
  source : ∃ source, host.HoldsText files input source ∧ Source.parse source = .ok nodes
  shows : Shows host.print input nodes quiet listing? text

/-- How a task ends. -/
inductive Ending
  /-- The task is done, with the listing that was shown and its text. -/
  | completed (listing? : Option Listing) (text : String)
  /-- An error is told. -/
  | refused
  | broken (reason : Breakdown)

/-- Only what the operating system finds is told. -/
def Ending.ofFault (fault : FileFault) : Ending :=
  if fault.isSystem then .refused else .broken (.badPath fault)

/-- The ways a task can end, and the files after it. -/
inductive Task.Ends (host : Host σ) (files : σ) : Task → Ending → σ → Prop
  | unread {task fault} (hread : host.read files task.input = .error fault) :
      Ends host files task (.ofFault fault) files
  | listed {input data text} (hread : host.read files input = .ok data)
      (hprint : host.print (.ofWords (Image.decode data) (some input)) = .ok text) :
      Ends host files (.list input)
        (.completed (some (.ofWords (Image.decode data) (some input))) text) files
  | unlisted {input data text} (hread : host.read files input = .ok data)
      (hprint : host.print (.ofWords (Image.decode data) (some input)) = .error text) :
      Ends host files (.list input) (.broken (.unprintable text)) files
  | undecodable {input output? format? quiet bytes} (hread : host.read files input = .ok bytes)
      (htext : decodeFile? bytes = none) :
      Ends host files (.assemble input output? format? quiet) (.broken .undecodable) files
  | faulty {input output? format? quiet source e} (hread : host.HoldsText files input source)
      (hparse : Source.parse source = .error e) :
      Ends host files (.assemble input output? format? quiet) .refused files
  | unshown {input output? format? source nodes text} (hread : host.HoldsText files input source)
      (hparse : Source.parse source = .ok nodes)
      (hprint : host.print (.ofWords (wordsOf nodes) (some input)) = .error text) :
      Ends host files (.assemble input output? format? false) (.broken (.unprintable text)) files
  | noOutput {input format? quiet nodes listing? text}
      (hready : Ready host files input quiet nodes listing? text) :
      Ends host files (.assemble input none format? quiet) (.broken .noOutput) files
  | unopened {input output format? quiet nodes listing? text fault}
      (hready : Ready host files input quiet nodes listing? text)
      (hcreate : host.create files output = .error fault) :
      Ends host files (.assemble input (some output) format? quiet) (.ofFault fault) files
  | noFormat {input output quiet nodes listing? text opened}
      (hready : Ready host files input quiet nodes listing? text)
      (hcreate : host.create files output = .ok opened) :
      Ends host files (.assemble input (some output) none quiet) (.broken .noFormat) opened
  | unwritten {input output format quiet nodes listing? text opened fault after}
      (hready : Ready host files input quiet nodes listing? text)
      (hcreate : host.create files output = .ok opened)
      (hwrite : host.write opened output (fileContent nodes format) = (some fault, after)) :
      Ends host files (.assemble input (some output) (some format) quiet) (.ofFault fault) after
  | written {input output format quiet nodes listing? text opened after}
      (hready : Ready host files input quiet nodes listing? text)
      (hcreate : host.create files output = .ok opened)
      (hwrite : host.write opened output (fileContent nodes format) = (none, after)) :
      Ends host files (.assemble input (some output) (some format) quiet)
        (.completed listing? text) after

variable {host : Host σ} {files opened after : σ} {task : Task} {ending : Ending}
  {input output : Raw} {output? : Option Raw} {format? : Option OutputFormat}
  {format : OutputFormat} {quiet : Bool} {source text : String} {nodes : List Node}
  {listing? : Option Listing} {fault : FileFault} {e : SyntaxError}

theorem Ready.exists_ends (h : Ready host files input quiet nodes listing? text)
    (output? : Option Raw) (format? : Option OutputFormat) :
    ∃ ending after, (Task.assemble input output? format? quiet).Ends host files ending after := by
  cases output? with
  | none => exact ⟨_, _, .noOutput h⟩
  | some output =>
      cases hcreate : host.create files output with
      | error fault => exact ⟨_, _, .unopened h hcreate⟩
      | ok opened =>
          cases format? with
          | none => exact ⟨_, _, .noFormat h hcreate⟩
          | some format =>
              cases hwrite : host.write opened output (fileContent nodes format) with
              | mk fault? after =>
                  cases fault? with
                  | none => exact ⟨_, _, .written h hcreate hwrite⟩
                  | some fault => exact ⟨_, _, .unwritten h hcreate hwrite⟩

/-- Every task ends. -/
theorem Task.exists_ends (host : Host σ) (files : σ) (task : Task) :
    ∃ ending after, task.Ends host files ending after := by
  cases hread : host.read files task.input with
  | error fault => exact ⟨_, _, .unread hread⟩
  | ok bytes =>
      cases task with
      | list input =>
          cases hprint : host.print (.ofWords (Image.decode bytes) (some input)) with
          | error text => exact ⟨_, _, .unlisted hread hprint⟩
          | ok text => exact ⟨_, _, .listed hread hprint⟩
      | assemble input output? format? quiet =>
          cases htext : decodeFile? bytes with
          | none => exact ⟨_, _, .undecodable hread htext⟩
          | some source =>
              have hholds : host.HoldsText files input source := ⟨bytes, hread, htext⟩
              cases hparse : Source.parse source with
              | error e => exact ⟨_, _, .faulty hholds hparse⟩
              | ok nodes =>
                  cases quiet with
                  | true => exact Ready.exists_ends ⟨⟨source, hholds, hparse⟩, .quiet⟩ _ _
                  | false =>
                      cases hprint : host.print (.ofWords (wordsOf nodes) (some input)) with
                      | error text => exact ⟨_, _, .unshown hholds hparse hprint⟩
                      | ok text =>
                          exact Ready.exists_ends ⟨⟨source, hholds, hparse⟩, .listed hprint⟩ _ _

theorem Ending.ofFault_ne_completed (fault : FileFault) (listing? : Option Listing)
    (text : String) : Ending.ofFault fault ≠ .completed listing? text := by
  unfold Ending.ofFault
  split_ifs <;> simp

/-- A program that was assembled to the end is written. -/
theorem Task.Ends.exists_written
    (h : (Task.assemble input (some output) (some format) quiet).Ends host files ending after)
    (hending : ending = .completed listing? text) :
    ∃ nodes opened, Ready host files input quiet nodes listing? text ∧
      host.create files output = .ok opened ∧
      host.write opened output (fileContent nodes format) = (none, after) := by
  cases h with
  | unread | unopened | unwritten => exact absurd hending (Ending.ofFault_ne_completed _ _ _)
  | undecodable | faulty | unshown => cases hending
  | written hready hcreate hwrite =>
      cases hending
      exact ⟨_, _, hready, hcreate, hwrite⟩

/-! ## Telling an error -/

/-- A line of the text begins with the word `Error`. -/
def ShowsError (text : String) : Prop :=
  ∃ before line, text = before ++ "Error" ++ line ++ "\n" ∧
    (before = "" ∨ ∃ lines, before = lines ++ "\n")

theorem noteLines_eq_empty_or (kind : String) (notes : List Diagnostic) :
    noteLines kind notes = "" ∨ ∃ lines, noteLines kind notes = lines ++ "\n" := by
  rcases List.eq_nil_or_concat notes with rfl | ⟨front, note, rfl⟩
  · exact .inl rfl
  · refine .inr ⟨noteLines kind front ++ (kind ++ ": " ++ note.render), ?_⟩
    simp only [noteLines, List.concat_eq_append, List.map_append, List.map_singleton,
      String.join_append, String.join_cons, String.join_nil, String.append_empty,
      String.append_assoc]

theorem showsError_noteLines (note : Diagnostic) : ShowsError (noteLines "Error" [note]) := by
  refine ⟨"", ": " ++ note.render, ?_, .inl rfl⟩
  simp only [noteLines, List.map_singleton, String.join_cons, String.join_nil,
    String.append_empty, String.empty_append, String.append_assoc]

/-- What a report says of an ending. -/
def Report.Tells (report : Report) : Ending → Prop
  | .completed listing? text =>
      report.status = .exit 0 ∧ report.listing = listing? ∧ report.stdout = text
  | .refused => report.status = .exit 1 ∧ ShowsError report.stderr
  | .broken reason => report.status = .broken reason

/-- A report up to the output: nothing went wrong, and the warnings are told. -/
structure Report.Presents (report : Report) (listing? : Option Listing) (text : String) :
    Prop where
  status : report.status = .exit 0
  listing : report.listing = listing?
  stdout : report.stdout = text
  stderr : ∃ notes, report.stderr = noteLines "Warning" notes

theorem tells_refuse {report : Report} {notes : List Diagnostic}
    (hreport : report.stderr = noteLines "Warning" notes) (fault : FileFault) (line : String) :
    (report.refuse fault ("Error" ++ line)).Tells (.ofFault fault) := by
  unfold Report.refuse Ending.ofFault
  split_ifs with hsystem
  · refine ⟨rfl, report.stderr, line, ?_, hreport ▸ noteLines_eq_empty_or "Warning" notes⟩
    simp only [String.append_assoc]
  · rfl

theorem tells_unreadable (path : Raw) (fault : FileFault) :
    (unreadable path fault).Tells (.ofFault fault) := by
  have hmissing : "Error: File not found: " = "Error" ++ ": File not found: " := by decide
  have hreading : "Error reading " = "Error" ++ " reading " := by decide
  have hnotes : Report.stderr { status := .exit 1 } = noteLines "Warning" [] := rfl
  unfold unreadable
  split_ifs
  · rw [hmissing, String.append_assoc]
    exact tells_refuse hnotes fault _
  · rw [hreading, String.append_assoc, String.append_assoc, String.append_assoc]
    exact tells_refuse hnotes fault _

theorem tells_unwritable {report : Report} (h : report.Presents listing? text) (path : Raw)
    (fault : FileFault) : (report.unwritable path fault).Tells (.ofFault fault) := by
  have hwriting : "Error writing " = "Error" ++ " writing " := by decide
  obtain ⟨notes, hnotes⟩ := h.stderr
  unfold Report.unwritable
  rw [hwriting, String.append_assoc, String.append_assoc, String.append_assoc]
  exact tells_refuse hnotes fault _

/-! ## After the input was read -/

theorem value_outputContent (a : Assembler) (format : OutputFormat) :
    (outputContent a format).value = fileContent a.nodes format := by
  cases format <;> rfl

theorem assembleStep_eq (print : Console) (input : Raw) (output? : Option Raw)
    (format? : Option OutputFormat) (quiet : Bool) (source : String) :
    let a := Assembler.ofSource source
    let events := (Assembler.assemble source).events
    let warnings := noteLines "Warning" a.warnings
    assembleStep print input output? format? quiet source =
      if a.succeeded = true then
        showStep print a input output? format? quiet
          { status := .exit 0, stderr := warnings, events }
      else
        .done { status := .exit 1, stderr := warnings ++ noteLines "Error" a.errors, events } := rfl

theorem assembleStep_of_error (print : Console) (hparse : Source.parse source = .error e) :
    ∃ report, assembleStep print input output? format? quiet source = .done report ∧
      report.Tells .refused := by
  rw [assembleStep_eq, Assembler.ofSource_of_error hparse]
  refine ⟨_, rfl, rfl, ?_⟩
  exact String.empty_append ▸ showsError_noteLines (Assembler.errorNote e)

theorem assembleStep_of_ok (print : Console) (input : Raw) (output? : Option Raw)
    (format? : Option OutputFormat) (quiet : Bool) (hparse : Source.parse source = .ok nodes) :
    ∃ a report, assembleStep print input output? format? quiet source =
        showStep print a input output? format? quiet report ∧
      a.nodes = nodes ∧ report.Presents none "" := by
  have hsucceeded := (Assembler.succeeded_iff source).2 ⟨nodes, hparse⟩
  rw [assembleStep_eq, if_pos hsucceeded]
  refine ⟨_, _, rfl, ?_, rfl, rfl, rfl, _, rfl⟩
  rw [Assembler.ofSource_of_ok hparse]

theorem showStep_of_shows {print : Console} {a : Assembler} {report : Report}
    (hreport : report.Presents none "") (hshows : Shows print input a.nodes quiet listing? text) :
    ∃ report', showStep print a input output? format? quiet report =
        outputStep a output? format? report' ∧ report'.Presents listing? text := by
  cases hshows with
  | quiet => exact ⟨report, rfl, hreport⟩
  | listed hprint =>
      have hlisting : print (a.listing (some input)) = .ok text := hprint
      unfold showStep
      simp only [hlisting]
      exact ⟨_, rfl, hreport.status, rfl, rfl, hreport.stderr⟩

theorem showStep_of_unprintable {print : Console} {a : Assembler} {report : Report}
    (hprint : print (.ofWords (wordsOf a.nodes) (some input)) = .error text) :
    ∃ report', showStep print a input output? format? false report = .done report' ∧
      report'.Tells (.broken (.unprintable text)) := by
  have hlisting : print (a.listing (some input)) = .error text := hprint
  unfold showStep
  simp only [hlisting]
  exact ⟨_, rfl, rfl⟩

theorem step_of_read_error (hread : host.read files task.input = .error fault) :
    task.step host.print (host.read files task.input) = .done (unreadable task.input fault) := by
  rw [hread]
  rfl

theorem step_list {data : List UInt8} (hread : host.read files input = .ok data) :
    let listing := Listing.ofWords (Image.decode data) (some input)
    (Task.list input).step host.print (host.read files input) =
      .done (Report.withListing { status := .exit 0, events := (Image.decodeLogged data).events }
        listing (host.print listing)) := by
  rw [hread]
  rfl

theorem step_of_undecodable {bytes : List UInt8} (hread : host.read files input = .ok bytes)
    (htext : decodeFile? bytes = none) :
    (Task.assemble input output? format? quiet).step host.print (host.read files input) =
      .done { status := .broken .undecodable } := by
  unfold Task.step
  rw [hread]
  simp only [htext]

theorem step_of_holdsText (hread : host.HoldsText files input source) :
    (Task.assemble input output? format? quiet).step host.print (host.read files input) =
      assembleStep host.print input output? format? quiet source := by
  obtain ⟨bytes, hbytes, htext⟩ := hread
  unfold Task.step
  rw [hbytes]
  simp only [htext]

theorem Ready.step (h : Ready host files input quiet nodes listing? text) (output? : Option Raw)
    (format? : Option OutputFormat) :
    ∃ a report,
      (Task.assemble input output? format? quiet).step host.print (host.read files input) =
        outputStep a output? format? report ∧
      a.nodes = nodes ∧ report.Presents listing? text := by
  obtain ⟨source, hread, hparse⟩ := h.source
  obtain ⟨a, report, hstep, rfl, hreport⟩ :=
    assembleStep_of_ok host.print input output? format? quiet hparse
  obtain ⟨report', hshow, hreport'⟩ := showStep_of_shows hreport h.shows
  rw [step_of_holdsText hread, hstep, hshow]
  exact ⟨a, report', rfl, rfl, hreport'⟩

/-! ## Running a task -/

theorem run_of_done {report : Report}
    (h : task.step host.print (host.read files task.input) = .done report) :
    task.run host files = (report, files) := by
  unfold Task.run
  rw [h]

section

variable {path : Raw} {content? : Option (List UInt8)} {report : Report} {events : List Event}
  (h : task.step host.print (host.read files task.input) = .write path content? report events)
include h

theorem run_of_create_error (hcreate : host.create files path = .error fault) :
    task.run host files = (report.unwritable path fault, files) := by
  unfold Task.run
  rw [h]
  simp only [hcreate]

theorem run_of_no_content (hcreate : host.create files path = .ok opened)
    (hcontent : content? = none) :
    task.run host files = ({ report with status := .broken .noFormat }, opened) := by
  unfold Task.run
  rw [h]
  simp only [hcreate, hcontent]

theorem run_of_content {content : List UInt8} (hcreate : host.create files path = .ok opened)
    (hcontent : content? = some content) :
    task.run host files =
      (report.finish path events (host.write opened path content).1,
        (host.write opened path content).2) := by
  unfold Task.run
  rw [h]
  simp only [hcreate, hcontent]

end

/-- A task that has come to an output that is not blank. -/
theorem Ready.step_write (h : Ready host files input quiet nodes listing? text) (output : Raw)
    (format? : Option OutputFormat) :
    ∃ report events,
      (Task.assemble input (some output) format? quiet).step host.print (host.read files input) =
        .write output (format?.map (fileContent nodes)) report events ∧
      report.Presents listing? text := by
  obtain ⟨a, report, hstep, rfl, hreport⟩ := h.step (some output) format?
  have hcontent : (format?.map (outputContent a)).map Logged.value =
      format?.map (fileContent a.nodes) := by
    cases format? with
    | none => rfl
    | some format => exact congrArg some (value_outputContent a format)
  rw [hstep, ← hcontent]
  exact ⟨_, _, rfl, hreport.status, hreport.listing, hreport.stdout, hreport.stderr⟩

/-- The report tells how the task ended. -/
theorem Task.Ends.run (h : task.Ends host files ending after) :
    (task.run host files).1.Tells ending ∧ (task.run host files).2 = after := by
  cases h with
  | unread hread =>
      rw [run_of_done (step_of_read_error hread)]
      exact ⟨tells_unreadable _ _, rfl⟩
  | listed hread hprint =>
      rw [run_of_done (step_list hread), hprint]
      exact ⟨⟨rfl, rfl, rfl⟩, rfl⟩
  | unlisted hread hprint =>
      rw [run_of_done (step_list hread), hprint]
      exact ⟨rfl, rfl⟩
  | undecodable hread htext =>
      rw [run_of_done (step_of_undecodable hread htext)]
      exact ⟨rfl, rfl⟩
  | faulty hread hparse =>
      obtain ⟨report, hstep, hreport⟩ := assembleStep_of_error host.print hparse
      rw [run_of_done ((step_of_holdsText hread).trans hstep)]
      exact ⟨hreport, rfl⟩
  | unshown hread hparse hprint =>
      obtain ⟨a, report, hstep, rfl, -⟩ := assembleStep_of_ok host.print _ _ _ false hparse
      obtain ⟨report', hshow, hreport'⟩ := showStep_of_unprintable hprint
      rw [run_of_done ((step_of_holdsText hread).trans (hstep.trans hshow))]
      exact ⟨hreport', rfl⟩
  | noOutput hready =>
      obtain ⟨a, report, hstep, -, -⟩ := hready.step none _
      rw [run_of_done hstep]
      exact ⟨rfl, rfl⟩
  | unopened hready hcreate =>
      obtain ⟨report, events, hstep, hreport⟩ := hready.step_write _ _
      rw [run_of_create_error hstep hcreate]
      exact ⟨tells_unwritable hreport _ _, rfl⟩
  | noFormat hready hcreate =>
      obtain ⟨report, events, hstep, hreport⟩ := hready.step_write _ _
      rw [run_of_no_content hstep hcreate rfl]
      exact ⟨rfl, rfl⟩
  | unwritten hready hcreate hwrite =>
      obtain ⟨report, events, hstep, hreport⟩ := hready.step_write _ _
      rw [run_of_content hstep hcreate rfl, hwrite]
      exact ⟨tells_unwritable hreport _ _, rfl⟩
  | written hready hcreate hwrite =>
      obtain ⟨report, events, hstep, hreport⟩ := hready.step_write _ _
      rw [run_of_content hstep hcreate rfl, hwrite]
      exact ⟨⟨hreport.status, hreport.listing, hreport.stdout⟩, rfl⟩

theorem Report.Tells.unique {report : Report} {ending' : Ending} (h : report.Tells ending)
    (h' : report.Tells ending') : ending' = ending := by
  cases ending with
  | completed listing? text =>
      obtain ⟨hstatus, rfl, rfl⟩ := h
      cases ending' with
      | completed listing?' text' =>
          obtain ⟨-, rfl, rfl⟩ := h'
          rfl
      | refused => cases hstatus.symm.trans h'.1
      | broken reason => cases hstatus.symm.trans h'
  | refused =>
      cases ending' with
      | completed listing?' text' => cases h.1.symm.trans h'.1
      | refused => rfl
      | broken reason => cases h.1.symm.trans h'
  | broken reason =>
      cases ending' with
      | completed listing?' text' => cases h.symm.trans h'.1
      | refused => cases h.symm.trans h'.1
      | broken reason' => rw [Status.broken.inj (h.symm.trans h')]

/-! ## Running a command line -/

/-- The ways a command line can end that was understood. Without a level for the log nothing is
read. -/
inductive Invocation.Ends (host : Host σ) (files : σ) (i : Invocation) : Ending → σ → Prop
  | noLevel (hlevel : i.level? = none) : Ends host files i (.broken .noLevel) files
  | task {ending : Ending} {after : σ} (hlevel : i.level? ≠ none)
      (htask : i.task.Ends host files ending after) : Ends host files i ending after

theorem Invocation.exists_ends (host : Host σ) (files : σ) (i : Invocation) :
    ∃ ending after, i.Ends host files ending after := by
  by_cases hlevel : i.level? = none
  · exact ⟨_, _, .noLevel hlevel⟩
  · obtain ⟨ending, after, htask⟩ := i.task.exists_ends host files
    exact ⟨ending, after, .task hlevel htask⟩

variable {environment : Option Raw} {arguments : List Raw} {i : Invocation}
  (h : Invocation.ofArguments environment arguments = .ok i)
include h

theorem run_of_level {level : Level} (hlevel : i.level? = some level) (host : Host σ) (files : σ) :
    run host environment arguments files =
      ({ (i.task.run host files).1 with
          events := i.shown level (i.task.run host files).1.events },
        (i.task.run host files).2) := by
  unfold run
  rw [h]
  simp only [hlevel]

theorem run_without_level (hlevel : i.level? = none) (host : Host σ) (files : σ) :
    run host environment arguments files = ({ status := .broken .noLevel }, files) := by
  unfold run
  rw [h]
  simp only [hlevel]

theorem Invocation.Ends.run (hi : i.Ends host files ending after) :
    (run host environment arguments files).1.Tells ending ∧
      (run host environment arguments files).2 = after := by
  cases hi with
  | noLevel hlevel =>
      rw [run_without_level h hlevel]
      exact ⟨rfl, rfl⟩
  | task hlevel htask =>
      obtain ⟨level, hlevel⟩ := Option.ne_none_iff_exists'.1 hlevel
      rw [run_of_level h hlevel]
      refine ⟨?_, htask.run.2⟩
      cases ending with
      | completed | refused | broken => exact htask.run.1

/-- A command line ends in a way exactly if its run tells so. -/
theorem Invocation.ends_iff (host : Host σ) (files : σ) :
    i.Ends host files ending after ↔
      (run host environment arguments files).1.Tells ending ∧
        (run host environment arguments files).2 = after := by
  refine ⟨Invocation.Ends.run h, ?_⟩
  rintro ⟨htells, rfl⟩
  obtain ⟨ending', after', hends⟩ := i.exists_ends host files
  obtain ⟨htells', rfl⟩ := hends.run h
  rwa [htells'.unique htells]

end OneBit.Command
