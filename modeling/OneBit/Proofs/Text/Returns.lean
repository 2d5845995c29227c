import OneBit.Proofs.Text.Lines
import OneBit.Proofs.Text.Position
import OneBit.Proofs.Text.Runs
import OneBit.Text.Encoding
import OneBit.Text.Position
/-!
# Carriage returns

A line may end with a carriage return and a line feed.  In a text where every carriage return stands
before a line feed, to give each line a plain end is to leave the carriage returns out.  This way of
saying it goes through the parts of a text: it commutes with trimming, with cutting into lines, and
it moves no character to another line or column.
-/

namespace OneBit.Text

/-- Each carriage return stands right before a line feed. -/
def Paired (text : List Char) : Prop := ∀ i, text[i]? = some '\r' → text[i + 1]? = some '\n'

instance : DecidablePred Paired := fun text =>
  decidable_of_iff (∀ i < text.length, text[i]? = some '\r' → text[i + 1]? = some '\n') <| by
    refine ⟨fun h i hi => h i ?_ hi, fun h i _ => h i⟩
    exact (List.getElem?_eq_some_iff.1 hi).1

/-- The text with a line feed alone for every carriage return and line feed. -/
def plainEnds : List Char → List Char
  | [] => []
  | '\r' :: '\n' :: rest => '\n' :: plainEnds rest
  | c :: rest => c :: plainEnds rest

/-- The text without its carriage returns. -/
def dropReturns (text : List Char) : List Char := text.filter (· ≠ '\r')

/-- A carriage return stands at the end of the line, if anywhere. -/
def ReturnLast (line : List Char) : Prop := ∀ front rest, line = front ++ '\r' :: rest → rest = []

section

variable {c : Char} {text front rest line : List Char}

/-! ## Leaving carriage returns out -/

@[simp] theorem dropReturns_nil : dropReturns [] = [] := rfl

@[simp] theorem dropReturns_append (front rest : List Char) :
    dropReturns (front ++ rest) = dropReturns front ++ dropReturns rest :=
  List.filter_append _ _

theorem dropReturns_cons_return (rest : List Char) : dropReturns ('\r' :: rest) = dropReturns rest :=
  rfl

theorem dropReturns_cons (hc : c ≠ '\r') (rest : List Char) :
    dropReturns (c :: rest) = c :: dropReturns rest :=
  List.filter_cons_of_pos (by simpa using hc)

theorem dropReturns_eq_self (h : '\r' ∉ text) : dropReturns text = text := by
  apply List.filter_eq_self.2
  intro c hc
  simpa using fun heq : c = '\r' => h (heq ▸ hc)

theorem notMem_dropReturns (text : List Char) : '\r' ∉ dropReturns text := by
  simp [dropReturns]

theorem count_dropReturns (text : List Char) : (dropReturns text).count '\n' = text.count '\n' :=
  List.count_filter (by decide)

theorem notMem_of_class {p : Char → Bool} (hp : p c = false) (h : ∀ c ∈ text, p c = true) :
    c ∉ text := by
  intro hmem
  rw [h _ hmem] at hp
  cases hp

theorem Paired.of_cons (h : Paired (c :: rest)) : Paired rest :=
  fun i hi => h (i + 1) hi

theorem Paired.head_eq (h : Paired ('\r' :: rest)) : rest.head? = some '\n' := by
  rw [List.head?_eq_getElem?]
  exact h 0 rfl

theorem Paired.of_append (front : List Char) (h : Paired (front ++ rest)) : Paired rest := by
  induction front with
  | nil => exact h
  | cons c front ih => exact ih h.of_cons

theorem Paired.plainEnds_eq (h : Paired text) : plainEnds text = dropReturns text := by
  fun_induction plainEnds text with
  | case1 => rfl
  | case2 rest ih =>
      rw [dropReturns_cons_return, dropReturns_cons (by decide), ih h.of_cons.of_cons]
  | case3 c rest hpair ih =>
      have hc : c ≠ '\r' := by
        rintro rfl
        obtain ⟨more, rfl⟩ := List.head?_eq_some_iff.1 h.head_eq
        exact hpair more rfl rfl
      rw [dropReturns_cons hc, ih h.of_cons]

theorem Paired.unifyLineEnds_eq (h : Paired text) : unifyLineEnds text = dropReturns text := by
  fun_induction unifyLineEnds text with
  | case1 => rfl
  | case2 rest ih =>
      rw [dropReturns_cons_return, dropReturns_cons (by decide), ih h.of_cons.of_cons]
  | case3 rest hpair ih =>
      obtain ⟨more, rfl⟩ := List.head?_eq_some_iff.1 h.head_eq
      exact absurd rfl (hpair more)
  | case4 c rest hpair hc ih => rw [dropReturns_cons hc, ih h.of_cons]

/-! ## Trimming and cutting -/

/-- A carriage return is a blank, so the leading blanks end at the same character. -/
theorem takeWhile_dropReturns (text : List Char) :
    (dropReturns text).takeWhile isBlank = dropReturns (text.takeWhile isBlank) := by
  induction text with
  | nil => rfl
  | cons c rest ih =>
      by_cases hc : c = '\r'
      · subst hc
        rw [dropReturns_cons_return, List.takeWhile_cons_of_pos (by decide),
          dropReturns_cons_return, ih]
      · rw [dropReturns_cons hc]
        by_cases hblank : isBlank c = true
        · rw [List.takeWhile_cons_of_pos hblank, List.takeWhile_cons_of_pos hblank,
            dropReturns_cons hc, ih]
        · rw [List.takeWhile_cons_of_neg hblank, List.takeWhile_cons_of_neg hblank, dropReturns_nil]

theorem trimLeft_dropReturns (text : List Char) :
    trimLeft (dropReturns text) = dropReturns (trimLeft text) := by
  have hsplit : dropReturns text =
      dropReturns (text.takeWhile isBlank) ++ dropReturns (trimLeft text) := by
    rw [← dropReturns_append, trimLeft, List.takeWhile_append_dropWhile]
  have hsplit' : dropReturns text =
      dropReturns (text.takeWhile isBlank) ++ trimLeft (dropReturns text) := by
    rw [← takeWhile_dropReturns, trimLeft, List.takeWhile_append_dropWhile]
  exact List.append_cancel_left (hsplit'.symm.trans hsplit)

theorem trimRight_dropReturns (text : List Char) :
    trimRight (dropReturns text) = dropReturns (trimRight text) := by
  have hleft := trimLeft_dropReturns text.reverse
  unfold trimLeft dropReturns at hleft
  unfold trimRight dropReturns
  rw [List.filter_reverse, ← hleft, List.filter_reverse]

theorem trim_dropReturns (text : List Char) : trim (dropReturns text) = dropReturns (trim text) := by
  rw [trim, trimLeft_dropReturns, trimRight_dropReturns, trim]

/-- A text that is trimmed holds a character that is no blank, unless it is empty. -/
theorem dropReturns_trim_eq_nil_iff (text : List Char) :
    dropReturns (trim text) = [] ↔ trim text = [] := by
  constructor
  · intro h
    have hsolid := endsSolid_trim text
    rcases List.eq_nil_or_concat (trim text) with hnil | ⟨front, c, hcore⟩
    · exact hnil
    · rw [hcore, List.concat_eq_append] at h hsolid
      have hc : c ≠ '\r' := by
        rintro rfl
        exact absurd (hsolid '\r' (by simp)) (by decide)
      rw [dropReturns_append, dropReturns_cons hc] at h
      simp at h
  · intro h
    rw [h, dropReturns_nil]

theorem splitAt_dropReturns (text : List Char) :
    splitAt '\n' (dropReturns text) = (splitAt '\n' text).map dropReturns := by
  induction text with
  | nil => rfl
  | cons c rest ih =>
      obtain ⟨part, parts, hparts⟩ := List.exists_cons_of_ne_nil (splitAt_ne_nil '\n' rest)
      rw [hparts, List.map_cons] at ih
      by_cases hreturn : c = '\r'
      · subst hreturn
        rw [dropReturns_cons_return, ih, splitAt, if_neg (by decide), hparts]
        rfl
      · rw [dropReturns_cons hreturn, splitAt, splitAt]
        by_cases hfeed : c = '\n'
        · rw [if_pos hfeed, if_pos hfeed, ih, hparts]
          rfl
        · rw [if_neg hfeed, if_neg hfeed, ih, hparts]
          simp only [List.map_cons, dropReturns_cons hreturn]

theorem endLines_map_dropReturns (lines : List (List Char)) :
    endLines (lines.map dropReturns) = dropReturns (endLines lines) := by
  induction lines with
  | nil => rfl
  | cons line lines ih =>
      rw [List.map_cons, endLines_cons, endLines_cons, ih, dropReturns_append,
        dropReturns_cons (by decide)]

/-! ## Lines -/

theorem ReturnLast.of_append (front : List Char) (h : ReturnLast (front ++ rest)) :
    ReturnLast rest := by
  intro first last heq
  apply h (front ++ first) last
  rw [heq, List.append_assoc]

theorem ReturnLast.eq_or (h : ReturnLast line) :
    dropReturns line = line ∨ line = dropReturns line ++ ['\r'] := by
  by_cases hmem : '\r' ∈ line
  · obtain ⟨front, rest, rfl, hfront⟩ := List.eq_append_cons_of_mem hmem
    obtain rfl := h front rest rfl
    right
    rw [dropReturns_append, dropReturns_eq_self hfront, dropReturns_cons_return, dropReturns_nil,
      List.append_nil]
  · exact .inl (dropReturns_eq_self hmem)

theorem ReturnLast.stops {p : Char → Bool} (h : ReturnLast rest) (hstops : Stops p rest) :
    Stops p (dropReturns rest) := by
  rcases h.eq_or with heq | heq
  · rwa [heq]
  · cases hrest : dropReturns rest with
    | nil => exact stops_nil
    | cons c more =>
        rw [heq, hrest] at hstops
        exact stops_cons.2 (stops_cons.1 hstops)

/-- At the end of a line a carriage return is trimmed with the other blanks. -/
theorem ReturnLast.trimRight_eq (h : ReturnLast line) :
    trimRight (dropReturns line) = trimRight line := by
  rcases h.eq_or with heq | heq
  · rw [heq]
  · nth_rewrite 2 [heq]
    rw [trimRight_append_of_blank]
    intro c hc
    rw [List.mem_singleton.1 hc]
    decide

theorem ReturnLast.notMem (h : ReturnLast line) (hlast : line.getLast? ≠ some '\r') :
    '\r' ∉ line := by
  intro hmem
  obtain ⟨front, rest, rfl⟩ := List.append_of_mem hmem
  obtain rfl := h front rest rfl
  exact hlast (by simp)

/-- A part of a text without line feeds has a carriage return only at its end. -/
theorem Paired.returnLast {more : List Char} (h : Paired (front ++ (line ++ more)))
    (hline : '\n' ∉ line) : ReturnLast line := by
  rintro first rest rfl
  have hpair : Paired ('\r' :: rest ++ more) := by
    apply Paired.of_append (front ++ first)
    simpa only [List.append_assoc] using h
  cases rest with
  | nil => rfl
  | cons c rest =>
      have hc : c = '\n' := by simpa using hpair.head_eq
      exact absurd (by simp [hc]) hline

/-! ## Lines and columns -/

/-- Behind a part of a text that does not end with a carriage return, the line and the column are the
same when all carriage returns are left out. -/
theorem Paired.ofOffset_dropReturns {passed more : List Char} (h : Paired (passed ++ more))
    (hlast : passed.getLast? ≠ some '\r') (more' : List Char) :
    Position.ofOffset (dropReturns passed ++ more') (dropReturns passed).length =
      Position.ofOffset (passed ++ more) passed.length := by
  obtain ⟨run, rest, hrun, hlong⟩ := exists_longest (· ≠ '\n') passed.reverse
  have hpassed : passed = rest.reverse ++ run.reverse := by
    rw [← List.reverse_append, ← hrun, List.reverse_reverse]
  -- What follows the last line feed holds no carriage return: a line feed would follow that.
  have hreturn : '\r' ∉ run.reverse := by
    intro hmem
    have hlast' : run.reverse.getLast? ≠ some '\r' := by
      rw [hpassed, List.getLast?_append_of_ne_nil _ (List.ne_nil_of_mem hmem)] at hlast
      exact hlast
    rw [hpassed, List.append_assoc] at h
    have hfeed : '\n' ∉ run.reverse := by
      rw [List.mem_reverse]
      exact notMem_of_class (p := (· ≠ '\n')) (by decide) hlong.all
    exact (h.returnLast hfeed).notMem hlast' hmem
  have hrun' : (dropReturns passed).reverse = run ++ dropReturns rest := by
    rw [hpassed, dropReturns_append, dropReturns_eq_self hreturn, List.reverse_append,
      List.reverse_reverse, dropReturns, List.filter_reverse, List.reverse_reverse]
    rfl
  have hlong' : Longest (· ≠ '\n') run (dropReturns rest) := by
    refine ⟨hlong.all, ?_⟩
    cases rest with
    | nil => exact stops_nil
    | cons c rest =>
        obtain rfl : c = '\n' := by simpa using hlong.stops
        exact stops_cons.2 (by decide)
  rw [ofOffset_append hrun hlong, ofOffset_append hrun' hlong', count_dropReturns]

end

end OneBit.Text
