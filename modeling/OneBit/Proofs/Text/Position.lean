import OneBit.Proofs.Text.Runs
import OneBit.Text.Position
/-!
# Lines and columns of an offset

The line and the column of an offset are read off the part of the text before it: the line feeds in
this part, and what follows the last of them.
-/

namespace OneBit.Text

variable {rest : List Char}

theorem before_append (passed more : List Char) : before (passed ++ more) passed.length = passed := by
  rw [before, index_of_nonneg (by omega), Int.toNat_natCast, List.take_left]

theorem slice_append (passed taken more : List Char) :
    slice (passed ++ taken ++ more) passed.length (passed ++ taken).length = taken := by
  rw [slice, before_append, index_of_nonneg (by omega), Int.toNat_natCast, List.drop_left]

/-- The position behind a part of a text: the line feeds in it, and how many characters follow the
last of them. -/
theorem ofOffset_append {passed run : List Char} (hrun : passed.reverse = run ++ rest)
    (hlong : Longest (· ≠ '\n') run rest) (more : List Char) :
    Position.ofOffset (passed ++ more) passed.length =
      ⟨passed.count '\n' + 1, run.length + 1⟩ := by
  have hstart : lastLineStart passed = rest.length := by
    rw [lastLineStart, hrun]
    exact congrArg List.length hlong.dropWhile_eq
  have hlength : passed.length = run.length + rest.length := by
    rw [← List.length_reverse, hrun, List.length_append]
  rw [Position.ofOffset, lineAt, before_append, hstart, hlength, Position.mk.injEq]
  omega

theorem lastLineStart_le (text : List Char) : lastLineStart text ≤ text.length := by
  have hle := (List.dropWhile_suffix (l := text.reverse) (· ≠ '\n')).length_le
  rw [List.length_reverse] at hle
  exact hle

/-- What is added to the last line does not move its start. -/
theorem lastLineStart_append {line : List Char} (hline : '\n' ∉ line) (text : List Char) :
    lastLineStart (text ++ line) = lastLineStart text := by
  have hall : ∀ c ∈ line.reverse, decide (c ≠ '\n') = true := by
    intro c hc
    exact decide_eq_true fun h => hline (h ▸ List.mem_reverse.1 hc)
  rw [lastLineStart, List.reverse_append, List.dropWhile_append_of_pos hall, lastLineStart]

/-- Behind a line feed a new line starts. -/
theorem lastLineStart_feed (text : List Char) :
    lastLineStart (text ++ ['\n']) = (text ++ ['\n']).length := by
  rw [lastLineStart, List.reverse_append, List.reverse_singleton, List.singleton_append,
    List.dropWhile_cons_of_neg (by decide), List.length_cons, List.length_reverse,
    List.length_append, List.length_singleton]

end OneBit.Text
