import OneBit.Proofs.Source.Program
import OneBit.Proofs.Text.Position
/-!
# The loop over the lines of a program

A program is read line by line while something is left.  The loop is described here without a bound
on its turns.  Each turn takes one character at least and stays in the part to be read, since this
part ends with no blank, and one that leaves something to read has taken a line feed last.  So the
loop ends, the bound that its definition carries never cuts it short, and it has read one node more
than there are line feeds between the lines.
-/

namespace OneBit.Source

open Text Grammar Cursor

namespace Scan

/-- The turns of the loop over lines from a cursor on: the nodes that were read, and where the
cursor is then. There is another turn while something is left to read. -/
inductive Turns (first : Cursor) : List Node → Cursor → Prop
  | start : Turns first [] first
  | turn {nodes : List Node} {here next : Cursor} {node : Node} (hturns : Turns first nodes here)
      (hmore : here.atEnd = false) (hline : line.run here = .ok node next) :
      Turns first (nodes ++ [node]) next

variable {passed ahead beyond lead core trail : List Char} {warnings : List (Nat × Truncation)}
  {nodes : List Node} {first here last : Cursor}

/-! ## One turn -/

/-- What a line takes of the characters that are left: those up to its line feed, or all of them. -/
structure Takes (ahead taken rest : List Char) : Prop where
  split : ahead = taken ++ rest
  ne_nil : taken ≠ []
  feed : rest ≠ [] → taken.getLast? = some '\n'
  count : taken.count '\n' = if rest = [] then 0 else 1

theorem takes_of_follows {text tail : List Char} (htext : '\n' ∉ text) (hne : text ++ tail ≠ [])
    (hsolid : EndsSolid (text ++ tail)) (htail : Follows (tail = []) tail) :
    Takes (text ++ tail) (text ++ tail.take 1) (tail.drop 1) := by
  have hcount : text.count '\n' = 0 := List.count_eq_zero.2 htext
  rcases htail with ⟨-, rfl⟩ | ⟨-, more, rfl⟩
  · refine ⟨by simp, by simpa using hne, fun h => absurd rfl h, ?_⟩
    simpa using hcount
  · -- A line feed is a blank, so it is not the last character that is left.
    have hmore : more ≠ [] := by
      rintro rfl
      exact absurd (hsolid '\n' (by simp)) (by decide)
    exact ⟨by simp, by simp, by simp, by simp [hcount, hmore]⟩

theorem line_cases (hne : ahead ≠ []) (hsolid : EndsSolid ahead) :
    (∃ node taken rest more, Takes ahead taken rest ∧
      line.run (amid passed ahead beyond warnings) =
        .ok node (amid (passed ++ taken) rest beyond more)) ∨
    ∃ e after, line.run (amid passed ahead beyond warnings) = .error e after := by
  obtain ⟨text, tail, rfl, hlong⟩ := exists_longest (fun c => decide (c ≠ '\n')) ahead
  have htext : '\n' ∉ text := fun hmem => absurd (hlong.all _ hmem) (by decide)
  have htail : Follows (tail = []) tail := by
    cases tail with
    | nil => exact .inl ⟨rfl, rfl⟩
    | cons c more => exact .inr ⟨List.cons_ne_nil _ _, more, by simpa using hlong.stops⟩
  have hlast : tail = [] → text ≠ [] ∧ EndsSolid text := by
    rintro rfl
    rw [List.append_nil] at hne hsolid
    exact ⟨hne, hsolid⟩
  -- The grammar has a statement or a fault for the line, and the scanner finds it.
  rcases line_or_fault (tail = []) text with ⟨s, hs⟩ | ⟨offset, found, hfault⟩
  · have hrun : line.run (amid passed (text ++ tail) beyond warnings) = _ :=
      run_line hs htext (fun h => (hlast h).2) htail
    rw [List.append_assoc] at hrun
    exact .inl ⟨s.node, _, _, _, takes_of_follows htext hne hsolid htail, hrun⟩
  · obtain ⟨after, hrun⟩ := failsAt_line hfault htext (fun h => (hlast h).1)
      (fun h => (hlast h).2) htail
    exact .inr ⟨_, after, hrun⟩

/-- Where something is left to read, a line that is read takes some of it. -/
theorem exists_takes_of_run {next : Cursor} {node : Node} (hsolid : EndsSolid ahead)
    (hmore : (amid passed ahead beyond warnings).atEnd = false)
    (hline : line.run (amid passed ahead beyond warnings) = .ok node next) :
    ∃ taken rest more, Takes ahead taken rest ∧ next = amid (passed ++ taken) rest beyond more := by
  rcases line_cases (amid_atEnd_eq_false.1 hmore) hsolid with
    ⟨node', taken, rest, more, htakes, hrun⟩ | ⟨e, after, hrun⟩
  · rw [hrun] at hline
    exact ⟨taken, rest, more, htakes, (EStateM.Result.ok.inj hline).2.symm⟩
  · rw [hrun] at hline
    cases hline

/-! ## All turns -/

/-- The invariant of the loop: some of the part to be read is done, each node took one character of
it at least, and each line feed in it ended a node. The end of this part ends one node more. -/
theorem Turns.exists_parts (hsolid : EndsSolid core)
    (h : Turns (amid lead core trail warnings) nodes here) :
    ∃ done rest more, core = done ++ rest ∧ here = amid (lead ++ done) rest trail more ∧
      nodes.length ≤ done.length ∧
      nodes.length = done.count '\n' + (if rest = [] ∧ core ≠ [] then 1 else 0) := by
  induction h with
  | start => exact ⟨[], core, warnings, rfl, by rw [List.append_nil], by simp⟩
  | @turn nodes here next node hturns hmore hline ih =>
      obtain ⟨done, ahead, more, rfl, rfl, hlength, hcount⟩ := ih
      obtain ⟨taken, rest, more', htakes, rfl⟩ :=
        exists_takes_of_run hsolid.of_append hmore hline
      obtain ⟨rfl, htaken, -, hfeeds⟩ := htakes
      have hpos : 0 < taken.length := List.length_pos_iff.2 htaken
      refine ⟨done ++ taken, rest, more', by simp, by simp, ?_, ?_⟩
      · rw [List.length_append, List.length_append, List.length_singleton]
        omega
      · rw [List.length_append, List.length_singleton, List.count_append, hfeeds, hcount]
        by_cases hend : rest = []
        · simp [hend, htaken]
        · simp [hend]

theorem Turns.bounds (hsolid : EndsSolid core)
    (h : Turns (amid lead core trail warnings) nodes here) :
    here.text = lead ++ core ++ trail ∧ here.stop = (lead.length + core.length : Nat) ∧
      (lead.length + nodes.length : Nat) ≤ here.pos ∧ here.pos ≤ here.stop := by
  obtain ⟨done, rest, more, rfl, rfl, hlength, -⟩ := h.exists_parts hsolid
  simp only [amid_text, amid_stop, amid_pos, List.length_append, List.append_assoc, true_and]
  omega

theorem Turns.solid_before_stop (hsolid : EndsSolid core)
    (h : Turns (amid lead core trail warnings) nodes here) (hmore : here.atEnd = false) :
    ∃ char, here.text[(here.stop - 1).toNat]? = some char ∧ isBlank char = false := by
  obtain ⟨done, rest, more, rfl, rfl, -, -⟩ := h.exists_parts hsolid
  have hne : rest ≠ [] := amid_atEnd_eq_false.1 hmore
  have hpos : 0 < rest.length := List.length_pos_iff.2 hne
  have hlast : rest.getLast? = some (rest.getLast hne) := List.getLast?_eq_getLast_of_ne_nil hne
  have hindex : ((amid (lead ++ done) rest trail more).stop - 1).toNat =
      (lead ++ done).length + (rest.length - 1) := by
    rw [amid_stop]
    omega
  refine ⟨rest.getLast hne, ?_, hsolid.of_append _ hlast⟩
  rw [hindex, amid_text, List.append_assoc, List.getElem?_append_right (by omega),
    Nat.add_sub_cancel_left, List.getElem?_append_left (by omega), ← List.getLast?_eq_getElem?,
    hlast]

theorem Turns.line_advances {node : Node} {next : Cursor} (hsolid : EndsSolid core)
    (h : Turns (amid lead core trail warnings) nodes here) (hmore : here.atEnd = false)
    (hline : line.run here = .ok node next) :
    here.pos < next.pos ∧ next.pos ≤ next.stop ∧ next.stop = here.stop ∧
      (next.pos < next.stop → (slice here.text here.pos next.pos).getLast? = some '\n') := by
  obtain ⟨done, ahead, more, rfl, rfl, -, -⟩ := h.exists_parts hsolid
  obtain ⟨taken, rest, more', htakes, rfl⟩ := exists_takes_of_run hsolid.of_append hmore hline
  obtain ⟨rfl, htaken, hfeed, -⟩ := htakes
  have hpos : 0 < taken.length := List.length_pos_iff.2 htaken
  have hsplit : lead ++ done ++ (taken ++ rest) ++ trail =
      lead ++ done ++ taken ++ (rest ++ trail) := by simp only [List.append_assoc]
  simp only [amid_text, amid_pos, amid_stop, hsplit, slice_append]
  simp only [List.length_append]
  refine ⟨by omega, by omega, by omega, fun hlt => hfeed ?_⟩
  apply List.length_pos_iff.1
  omega

/-- The loop ends: nothing is left to read, or a line fails. The induction is on what is left. -/
theorem Turns.exists_end (hsolid : EndsSolid ahead)
    (h : Turns first nodes (amid passed ahead beyond warnings)) :
    ∃ nodes here, Turns first nodes here ∧
      (here.atEnd = true ∨ here.atEnd = false ∧ ∃ e last, line.run here = .error e last) := by
  induction hlength : ahead.length using Nat.strong_induction_on
    generalizing passed ahead warnings nodes with
  | _ length ih =>
    by_cases hne : ahead = []
    · exact ⟨nodes, _, h, .inl (by rw [amid_atEnd, hne]; rfl)⟩
    · have hmore : (amid passed ahead beyond warnings).atEnd = false := amid_atEnd_eq_false.2 hne
      rcases line_cases hne hsolid with ⟨node, taken, rest, more, htakes, hrun⟩ | ⟨e, after, hrun⟩
      · obtain ⟨rfl, htaken, -, -⟩ := htakes
        have hpos : 0 < taken.length := List.length_pos_iff.2 htaken
        refine ih rest.length ?_ hsolid.of_append (h.turn hmore hrun) rfl
        rw [← hlength, List.length_append]
        omega
      · exact ⟨nodes, _, h, .inr ⟨hmore, e, after, hrun⟩⟩

/-! ## Turns and bounded runs -/

theorem Turns.run_lines (h : Turns first nodes here) (limit : Nat) :
    (lines (nodes.length + limit)).run first = prepend nodes ((lines limit).run here) := by
  induction h generalizing limit with
  | start => rw [List.length_nil, Nat.zero_add, prepend_nil]
  | @turn nodes here next node hturns hmore hline ih =>
      have hlimit : (nodes ++ [node]).length + limit = nodes.length + (limit + 1) := by
        rw [List.length_append, List.length_singleton]
        omega
      rw [hlimit, ih, run_lines_of_line hmore hline, prepend_prepend]

variable {c : Cursor}

theorem Turns.program_bounds (h : Turns c.toProgram nodes here) :
    here.text = c.text ∧ here.stop = c.toProgram.stop ∧ 0 ≤ c.toProgram.pos ∧
      c.toProgram.stop = c.toProgram.pos + (trim c.text).length ∧
      c.toProgram.pos + nodes.length ≤ here.pos ∧ here.pos ≤ here.stop := by
  obtain ⟨trail, htext, hfirst⟩ := exists_toProgram_eq c
  rw [hfirst] at h ⊢
  obtain ⟨hhere, hstop, hpos, hle⟩ := h.bounds (endsSolid_trim c.text)
  rw [amid_stop, amid_pos]
  exact ⟨hhere.trans htext.symm, hstop, by omega, by omega, by omega, hle⟩

theorem Turns.run_program_ok (h : Turns c.toProgram nodes last) (hend : last.atEnd = true) :
    program.run c = .ok nodes last := by
  obtain ⟨-, hstop, -, hlength, hpos, hle⟩ := h.program_bounds
  obtain ⟨limit, hlimit⟩ : ∃ limit, (trim c.text).length = nodes.length + limit :=
    Nat.exists_eq_add_of_le (by omega)
  rw [run_program_eq, hlimit, h.run_lines, run_lines_of_atEnd hend, prepend, List.append_nil]

/-- A turn that fails is within the bound too, since something was left to read. -/
theorem Turns.run_program_error {e : SyntaxError} (h : Turns c.toProgram nodes here)
    (hmore : here.atEnd = false) (hline : line.run here = .error e last) :
    program.run c = .error e last := by
  obtain ⟨-, hstop, -, hlength, hpos, -⟩ := h.program_bounds
  have hlt : here.pos < here.stop := by simpa [atEnd] using hmore
  obtain ⟨limit, hlimit⟩ : ∃ limit, (trim c.text).length = nodes.length + 1 + limit :=
    Nat.exists_eq_add_of_le (by omega)
  rw [Nat.add_assoc, Nat.add_comm 1] at hlimit
  rw [run_program_eq, hlimit, h.run_lines, run_lines_of_error hmore hline, prepend]

theorem exists_turns_end (c : Cursor) : ∃ nodes here, Turns c.toProgram nodes here ∧
    (here.atEnd = true ∨ here.atEnd = false ∧ ∃ e last, line.run here = .error e last) := by
  obtain ⟨trail, -, hfirst⟩ := exists_toProgram_eq c
  rw [hfirst]
  exact Turns.start.exists_end (endsSolid_trim c.text)

theorem run_program_eq_ok_iff :
    program.run c = .ok nodes last ↔ Turns c.toProgram nodes last ∧ last.atEnd = true := by
  constructor
  · intro hrun
    obtain ⟨nodes', here, hturns, hend | ⟨hmore, e, after, hline⟩⟩ := exists_turns_end c
    · rw [hturns.run_program_ok hend] at hrun
      obtain ⟨rfl, rfl⟩ := EStateM.Result.ok.inj hrun
      exact ⟨hturns, hend⟩
    · rw [hturns.run_program_error hmore hline] at hrun
      cases hrun
  · rintro ⟨hturns, hend⟩
    exact hturns.run_program_ok hend

theorem run_program_eq_error_iff {e : SyntaxError} :
    program.run c = .error e last ↔
      ∃ nodes here, Turns c.toProgram nodes here ∧ here.atEnd = false ∧
        line.run here = .error e last := by
  constructor
  · intro hrun
    obtain ⟨nodes, here, hturns, hend | ⟨hmore, e', after, hline⟩⟩ := exists_turns_end c
    · rw [hturns.run_program_ok hend] at hrun
      cases hrun
    · rw [hturns.run_program_error hmore hline] at hrun
      obtain ⟨rfl, rfl⟩ := EStateM.Result.error.inj hrun
      exact ⟨nodes, here, hturns, hmore, hline⟩
  · rintro ⟨nodes, here, hturns, hmore, hline⟩
    exact hturns.run_program_error hmore hline

/-- When the loop ends, each line feed of the trimmed text has ended one line, and its end another. -/
theorem Turns.length_of_atEnd (h : Turns c.toProgram nodes last) (hend : last.atEnd = true) :
    nodes.length = if trim c.text = [] then 0 else (trim c.text).count '\n' + 1 := by
  obtain ⟨trail, -, hfirst⟩ := exists_toProgram_eq c
  rw [hfirst] at h
  obtain ⟨done, rest, more, hcore, rfl, -, hcount⟩ := h.exists_parts (endsSolid_trim c.text)
  have hrest : rest = [] := by
    rw [amid_atEnd] at hend
    simpa using hend
  rw [hrest, List.append_nil] at hcore
  rw [hcount, hrest, ← hcore]
  by_cases hnil : trim c.text = []
  · simp [hnil]
  · simp [hnil]

/-- Reading a program, wherever the cursor was, is the loop over its lines. Before each turn
something is left to read, and the part to be read ends with no blank. A turn that reads a line goes
forward in this part and, where it leaves something to read, has taken a line feed last. So there
are no more turns than characters in this part, one that fails included: the program is read if the
loop comes to its end, with one node more than there are line feeds in the trimmed text, and fails
if a turn does. -/
theorem program_loop_ends (c : Cursor) :
    let first := c.toProgram
    (∀ nodes here, Turns first nodes here →
      here.text = c.text ∧ here.stop = first.stop ∧ 0 ≤ first.pos ∧ first.pos ≤ here.pos ∧
      here.pos ≤ here.stop ∧ nodes.length ≤ first.stop - first.pos) ∧
    (∀ nodes here, Turns first nodes here → here.atEnd = false →
      here.pos < here.stop ∧ nodes.length < first.stop - first.pos ∧
      (∃ char, c.text[(here.stop - 1).toNat]? = some char ∧ isBlank char = false) ∧
      ∀ node next, line.run here = .ok node next →
        here.pos < next.pos ∧ next.pos ≤ next.stop ∧ next.stop = here.stop ∧
        (next.pos < next.stop → (slice c.text here.pos next.pos).getLast? = some '\n')) ∧
    (∀ nodes last, program.run c = .ok nodes last ↔
      Turns first nodes last ∧ last.atEnd = true) ∧
    (∀ e last, program.run c = .error e last ↔
      ∃ nodes here, Turns first nodes here ∧ here.atEnd = false ∧
        line.run here = .error e last) ∧
    ∀ nodes last, program.run c = .ok nodes last →
      last.pos = last.stop ∧
      nodes.length = if trim c.text = [] then 0 else (trim c.text).count '\n' + 1 := by
  dsimp only
  obtain ⟨trail, -, hfirst⟩ := exists_toProgram_eq c
  have hsolid := endsSolid_trim c.text
  refine ⟨?_, ?_, fun nodes last => run_program_eq_ok_iff,
    fun e last => run_program_eq_error_iff, ?_⟩
  · intro nodes here h
    obtain ⟨htext, hstop, hzero, -, hpos, hle⟩ := h.program_bounds
    exact ⟨htext, hstop, hzero, by omega, hle, by omega⟩
  · intro nodes here h hmore
    obtain ⟨htext, hstop, -, -, hpos, -⟩ := h.program_bounds
    have hlt : here.pos < here.stop := by simpa [atEnd] using hmore
    have hcount : nodes.length < c.toProgram.stop - c.toProgram.pos := by omega
    rw [hfirst] at h
    rw [← htext]
    exact ⟨hlt, hcount, h.solid_before_stop hsolid hmore, fun node next hline =>
      h.line_advances hsolid hmore hline⟩
  · intro nodes last hrun
    obtain ⟨hturns, hend⟩ := run_program_eq_ok_iff.1 hrun
    obtain ⟨-, -, -, -, -, hle⟩ := hturns.program_bounds
    have hge : last.stop ≤ last.pos := by simpa [atEnd] using hend
    exact ⟨Int.le_antisymm hle hge, hturns.length_of_atEnd hend⟩

/-- Of two lines the first leaves something to read, behind its line feed, and the second nothing. -/
theorem program_loop_ends_two_lines :
    let c := Cursor.start " ;a\nld 0o1 0b1\r\n".toList
    let first := c.toProgram
    ∃ node here nodes last, Turns first [] first ∧ first.atEnd = false ∧
      line.run first = .ok node here ∧ first.pos < here.pos ∧ here.pos < here.stop ∧
      (slice c.text first.pos here.pos).getLast? = some '\n' ∧
      program.run c = .ok nodes last ∧ Turns first nodes last ∧ last.pos = last.stop ∧
      nodes.length = 2 := by
  intro c first
  obtain ⟨-, hturn, hok, herror, hcount⟩ := program_loop_ends c
  have hmore : first.atEnd = false := by decide +kernel
  have hsome : (program.run' c).isSome = true := by decide +kernel
  obtain ⟨nodes, last, hrun⟩ : ∃ nodes last, program.run c = .ok nodes last := by
    delta EStateM.run' at hsome
    cases hrun : program.run c with
    | ok nodes last => exact ⟨nodes, last, rfl⟩
    | error e last =>
        rw [hrun] at hsome
        cases hsome
  obtain ⟨hend, hlength⟩ := hcount nodes last hrun
  cases hfirst : line.run first with
  | error e here =>
      have hfail := (herror e here).2 ⟨[], first, .start, hmore, hfirst⟩
      rw [hrun] at hfail
      cases hfail
  | ok node here =>
      obtain ⟨-, -, -, hforward⟩ := hturn [] first .start hmore
      obtain ⟨hpos, -, -, hfeed⟩ := hforward node here hfirst
      have hleft : here.pos < here.stop := by
        -- The loop would be over with one node.
        by_contra hge
        have hdone := (hok [node] here).2
          ⟨Turns.start.turn hmore hfirst, decide_eq_true (Int.not_lt.1 hge)⟩
        have hone : 1 = 2 := (hcount [node] here hdone).2
        omega
      exact ⟨node, here, nodes, last, .start, hmore, rfl, hpos, hleft, hfeed hleft, hrun,
        ((hok nodes last).1 hrun).1, hend, hlength⟩

end Scan

end OneBit.Source
