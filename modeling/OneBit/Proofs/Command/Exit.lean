import OneBit.Proofs.Command.Task
/-!
# Exit codes

A command line that is understood is run, and the run exits with zero if it has completed its task,
exits with one if it tells an error, or breaks off without an exit code. Files that cannot be opened
and programs with errors are told. A run breaks off over a source that is not text, over a listing
that the console cannot print, over a path that is not for the operating system, and over dashes
that stand in the place of a value.
-/

namespace OneBit.Command

open Text

variable {σ : Type} {host : Host σ} {files : σ} {environment : Option Raw} {arguments : List Raw}
  {i : Invocation}

/-- The law of exit codes: zero if the task is completed, one if an error is told. -/
def Lawful (host : Host σ) (files : σ) (i : Invocation) (result : Report × σ) : Prop :=
  result.1.status = .exit 0 ∧
      i.Ends host files (.completed result.1.listing result.1.stdout) result.2 ∨
    result.1.status = .exit 1 ∧ ShowsError result.1.stderr

section

variable (h : Invocation.ofArguments environment arguments = .ok i)
include h

theorem status_run_eq_broken_iff (host : Host σ) (files : σ) (reason : Breakdown) :
    (run host environment arguments files).1.status = .broken reason ↔
      ∃ after, i.Ends host files (.broken reason) after := by
  simp only [Invocation.ends_iff h]
  exact ⟨fun hstatus => ⟨_, hstatus, rfl⟩, fun ⟨_, htells, _⟩ => htells⟩

theorem status_run_eq_exit_one_iff (host : Host σ) (files : σ) :
    (run host environment arguments files).1.status = .exit 1 ↔
      ∃ after, i.Ends host files .refused after := by
  simp only [Invocation.ends_iff h]
  refine ⟨fun hstatus => ⟨_, ?_, rfl⟩, fun ⟨_, htells, _⟩ => htells.1⟩
  obtain ⟨ending, after, hends⟩ := i.exists_ends host files
  have htells := (hends.run h).1
  cases ending with
  | completed listing? text => cases hstatus.symm.trans htells.1
  | refused => exact htells
  | broken reason => cases hstatus.symm.trans htells

theorem status_run_eq_exit_zero_iff (host : Host σ) (files : σ) :
    (run host environment arguments files).1.status = .exit 0 ↔
      ∃ listing? text after, i.Ends host files (.completed listing? text) after := by
  simp only [Invocation.ends_iff h]
  exact ⟨fun hstatus => ⟨_, _, _, ⟨hstatus, rfl, rfl⟩, rfl⟩, fun ⟨_, _, _, htells, _⟩ => htells.1⟩

theorem lawful_run_of_exit {code : Nat}
    (hstatus : (run host environment arguments files).1.status = .exit code) :
    Lawful host files i (run host environment arguments files) := by
  obtain ⟨ending, after, hends⟩ := i.exists_ends host files
  obtain ⟨htells, rfl⟩ := hends.run h
  cases ending with
  | completed listing? text =>
      obtain ⟨hzero, rfl, rfl⟩ := htells
      exact .inl ⟨hzero, hends⟩
  | refused => exact .inr htells
  | broken reason => cases hstatus.symm.trans htells

end

/-- A command line that is understood keeps the law of exit codes unless it breaks off.  Each way to
exit and each way to break off is a way the command line can end, whatever the files and the console
are. -/
theorem run_exits_lawfully_iff (h : Invocation.ofArguments environment arguments = .ok i)
    (host : Host σ) (files : σ) :
    let result := run host environment arguments files
    (Lawful host files i result ↔ ∀ reason after, ¬ i.Ends host files (.broken reason) after) ∧
    (∀ reason, result.1.status = .broken reason ↔
      ∃ after, i.Ends host files (.broken reason) after) ∧
    (result.1.status = .exit 1 ↔ ∃ after, i.Ends host files .refused after) ∧
    (result.1.status = .exit 0 ↔
      ∃ listing? text after, i.Ends host files (.completed listing? text) after) := by
  intro result
  refine ⟨⟨?_, ?_⟩, status_run_eq_broken_iff h host files, status_run_eq_exit_one_iff h host files,
    status_run_eq_exit_zero_iff h host files⟩
  · intro hlawful reason after hends
    have hstatus : result.1.status = .broken reason := (hends.run h).1
    rcases hlawful with ⟨hexit, -⟩ | ⟨hexit, -⟩
    · cases hexit.symm.trans hstatus
    · cases hexit.symm.trans hstatus
  · intro hwhole
    cases hstatus : result.1.status with
    | exit code => exact lawful_run_of_exit h hstatus
    | broken reason =>
        obtain ⟨after, hends⟩ := (status_run_eq_broken_iff h host files reason).1 hstatus
        exact absurd hends (hwhole reason after)

/-- A line that breaks off is told, and the run keeps the law. -/
theorem run_exits_lawfully_iff_cut_line :
    let host := Host.ofTrees Console.plain
    let tree : FileTree := { entries := [(["p.asm".toList], .file (encodeFile "LD 0o1\n"))] }
    let arguments : List Raw := ["asm", "/p.asm", "o"]
    let i : Invocation :=
      ⟨.assemble "/p.asm" (some "o") (some .bin) false, false, some .warning⟩
    Invocation.ofArguments none arguments = .ok i ∧
      (run host none arguments tree).1.stderr =
        "Error: Line 1: unexpected end of input at column 7\n" ∧
      (∃ after, i.Ends host tree .refused after) ∧
      Lawful host tree i (run host none arguments tree) := by
  intro host tree arguments i
  have hi : Invocation.ofArguments none arguments = .ok i := rfl
  have hexit : (run host none arguments tree).1.status = .exit 1 := by decide +kernel
  obtain ⟨hlawful, hbroken, hone, -⟩ := run_exits_lawfully_iff hi host tree
  refine ⟨hi, by decide +kernel, hone.1 hexit, hlawful.2 ?_⟩
  intro reason after hends
  cases hexit.symm.trans ((hbroken reason).2 ⟨after, hends⟩)

/-- A source that is not text breaks the law: no error is told, and there is no exit code. -/
theorem run_undecodable_source_breaks_off :
    let host := Host.ofTrees Console.plain
    let tree : FileTree := { entries := [(["p.asm".toList], .file [0xFF])] }
    let arguments : List Raw := ["asm", "p.asm", "o"]
    let i : Invocation :=
      ⟨.assemble "p.asm" (some "o") (some .bin) false, false, some .warning⟩
    Invocation.ofArguments none arguments = .ok i ∧
      (run host none arguments tree).1.status = .broken .undecodable ∧
      (run host none arguments tree).1.stderr = "" ∧
      ¬ Lawful host tree i (run host none arguments tree) := by
  intro host tree arguments i
  have hstatus : (run host none arguments tree).1.status = .broken .undecodable := by
    decide +kernel
  refine ⟨rfl, hstatus, by decide +kernel, ?_⟩
  rintro (⟨hexit, -⟩ | ⟨hexit, -⟩)
  · cases hexit.symm.trans hstatus
  · cases hexit.symm.trans hstatus

end OneBit.Command
