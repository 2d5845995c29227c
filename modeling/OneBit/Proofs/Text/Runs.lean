import Mathlib.Data.List.DropRight
import OneBit.Text.Blank
/-!
# Longest runs and trimmed texts

A reader of tokens takes the longest run of characters of a class, and a reader of programs takes
the text without the blanks around it.  Both are described here by what the parts of a text are,
so that later proofs split texts and never look at how the parts were found.
-/

namespace OneBit.Text

/-- No character of the class stands at the front of the text. -/
def Stops (p : Char → Bool) (text : List Char) : Prop := ∀ c ∈ text.head?, p c = false

/-- `run` is the longest run of characters of the class at the front of `run ++ rest`. -/
structure Longest (p : Char → Bool) (run rest : List Char) : Prop where
  all : ∀ c ∈ run, p c = true
  stops : Stops p rest

/-- The text does not end with a blank. -/
def EndsSolid (text : List Char) : Prop := ∀ c ∈ text.getLast?, isBlank c = false

instance (text : List Char) : Decidable (EndsSolid text) :=
  match h : text.getLast? with
  | none => isTrue (by simp [EndsSolid, h])
  | some c => decidable_of_iff (isBlank c = false) (by simp [EndsSolid, h])

section

variable {p : Char → Bool} {run rest text : List Char} {c : Char}

@[simp] theorem stops_nil : Stops p [] := by
  simp [Stops]

@[simp] theorem stops_cons : Stops p (c :: rest) ↔ p c = false := by
  simp [Stops]

theorem Stops.mono {q : Char → Bool} (hpq : ∀ c, p c = true → q c = true) (h : Stops q rest) :
    Stops p rest := by
  intro c hc
  have hq := h c hc
  by_contra hp
  rw [hpq c (by simpa using hp)] at hq
  cases hq

theorem Stops.of_append (h : Stops p (run ++ rest)) : Stops p run := by
  cases run with
  | nil => exact stops_nil
  | cons c run => exact stops_cons.2 (stops_cons.1 h)

theorem Stops.dropWhile_eq (h : Stops p rest) : rest.dropWhile p = rest := by
  cases rest with
  | nil => rfl
  | cons c rest => rw [List.dropWhile_cons_of_neg (by simpa using h)]

theorem Stops.takeWhile_eq (h : Stops p rest) : rest.takeWhile p = [] := by
  cases rest with
  | nil => rfl
  | cons c rest => rw [List.takeWhile_cons_of_neg (by simpa using h)]

theorem stops_dropWhile (p : Char → Bool) (text : List Char) : Stops p (text.dropWhile p) := by
  intro c hc
  have h := List.head?_dropWhile_not p text
  rw [Option.mem_def.1 hc] at h
  simpa using h

theorem Longest.takeWhile_eq (h : Longest p run rest) : (run ++ rest).takeWhile p = run := by
  rw [List.takeWhile_append_of_pos h.all, h.stops.takeWhile_eq, List.append_nil]

theorem Longest.dropWhile_eq (h : Longest p run rest) : (run ++ rest).dropWhile p = rest := by
  rw [List.dropWhile_append_of_pos h.all, h.stops.dropWhile_eq]

theorem longest_takeWhile (p : Char → Bool) (text : List Char) :
    Longest p (text.takeWhile p) (text.dropWhile p) :=
  ⟨fun c hc => List.all_eq_true.1 List.all_takeWhile c hc, stops_dropWhile p text⟩

/-- Every text starts with a longest run of a class, which may be empty. -/
theorem exists_longest (p : Char → Bool) (text : List Char) :
    ∃ run rest, text = run ++ rest ∧ Longest p run rest :=
  ⟨text.takeWhile p, text.dropWhile p, List.takeWhile_append_dropWhile.symm,
    longest_takeWhile p text⟩

/-- The longest run of a class from an offset of a text on, up to another offset. -/
def runBetween (p : Char → Bool) (text : List Char) (start stop : Nat) : List Char :=
  ((text.take stop).drop start).takeWhile p

theorem exists_longest_runBetween (p : Char → Bool) (text : List Char) (start stop : Nat) :
    ∃ rest, (text.take stop).drop start = runBetween p text start stop ++ rest ∧
      Longest p (runBetween p text start stop) rest :=
  ⟨((text.take stop).drop start).dropWhile p, List.takeWhile_append_dropWhile.symm,
    longest_takeWhile p _⟩

theorem runBetween_self (p : Char → Bool) (text : List Char) (start : Nat) :
    runBetween p text start start = [] := by
  rw [runBetween, List.drop_eq_nil_of_le (List.length_take_le start text), List.takeWhile_nil]

end

/-! ## Trimming -/

section

variable {lead core trail text : List Char}

theorem trimRight_eq_rdropWhile (text : List Char) : trimRight text = text.rdropWhile isBlank :=
  rfl

theorem endsSolid_trimRight (text : List Char) : EndsSolid (trimRight text) := by
  intro c hc
  obtain ⟨hne, hlast⟩ := List.mem_getLast?_eq_getLast hc
  rw [hlast]
  exact Bool.eq_false_iff.2 (List.rdropWhile_last_not isBlank text hne)

theorem EndsSolid.trimRight_eq (h : EndsSolid text) : trimRight text = text := by
  rw [trimRight_eq_rdropWhile, List.rdropWhile_eq_self_iff]
  intro hne
  rw [h _ (List.getLast?_eq_getLast_of_ne_nil hne)]
  exact Bool.false_ne_true

theorem trimRight_append_of_blank (htrail : ∀ c ∈ trail, isBlank c = true) (text : List Char) :
    trimRight (text ++ trail) = trimRight text := by
  rw [trimRight, List.reverse_append, List.dropWhile_append_of_pos (by simpa using htrail),
    trimRight]

/-- The part that trimming takes from the end is blank. -/
theorem exists_append_trimRight (text : List Char) :
    ∃ trail, text = trimRight text ++ trail ∧ ∀ c ∈ trail, isBlank c = true := by
  refine ⟨text.rtakeWhile isBlank, ?_, fun c hc => List.mem_rtakeWhile_imp hc⟩
  exact List.rdropWhile_append_rtakeWhile.symm

theorem EndsSolid.append (h : EndsSolid core) (hne : core ≠ []) (lead : List Char) :
    EndsSolid (lead ++ core) := by
  rw [EndsSolid, List.getLast?_append_of_ne_nil _ hne]
  exact h

theorem EndsSolid.of_append (h : EndsSolid (lead ++ core)) : EndsSolid core := by
  intro c hc
  apply h c
  rw [Option.mem_def, List.getLast?_append, Option.mem_def.1 hc, Option.some_or]

theorem stops_trimLeft (text : List Char) : Stops isBlank (trimLeft text) :=
  stops_dropWhile isBlank text

theorem Stops.trimLeft_eq (h : Stops isBlank text) : trimLeft text = text :=
  h.dropWhile_eq

theorem endsSolid_trim (text : List Char) : EndsSolid (trim text) :=
  endsSolid_trimRight (trimLeft text)

/-- Where a text is blank, trimming from the left leaves nothing to trim from the right. -/
theorem trimLeft_eq_nil_of_trim_eq_nil (h : trim text = []) : trimLeft text = [] := by
  have hblank := (List.rdropWhile_eq_nil_iff (p := isBlank)).1 h
  cases htext : trimLeft text with
  | nil => rfl
  | cons c rest =>
      have hc := hblank c (by simp [htext])
      have hstop := stops_trimLeft text
      rw [htext, stops_cons, hc] at hstop
      cases hstop

theorem trim_eq_nil_iff : trim text = [] ↔ ∀ c ∈ text, isBlank c = true := by
  constructor
  · intro h
    exact List.dropWhile_eq_nil_iff.1 (trimLeft_eq_nil_of_trim_eq_nil h)
  · intro h
    rw [trim, trimLeft, List.dropWhile_eq_nil_iff.2 h]
    rfl

theorem trim_ne_nil (h : ∃ c ∈ text, isBlank c = false) : trim text ≠ [] := by
  obtain ⟨c, hc, hsolid⟩ := h
  intro hnil
  rw [trim_eq_nil_iff.1 hnil c hc] at hsolid
  cases hsolid

/-- A text is its leading blanks, the trimmed text and trailing blanks. -/
theorem exists_trim_append (text : List Char) :
    ∃ trail, text = text.takeWhile isBlank ++ trim text ++ trail ∧
      (∀ c ∈ trail, isBlank c = true) := by
  obtain ⟨trail, htrail, hblank⟩ := exists_append_trimRight (trimLeft text)
  refine ⟨trail, ?_, hblank⟩
  calc
    text = text.takeWhile isBlank ++ trimLeft text := List.takeWhile_append_dropWhile.symm
    _ = text.takeWhile isBlank ++ (trim text ++ trail) := by rw [trim, ← htrail]
    _ = text.takeWhile isBlank ++ trim text ++ trail := (List.append_assoc ..).symm

/-- Blanks around a text are trimmed with its own. -/
theorem trim_append_of_blank (hlead : ∀ c ∈ lead, isBlank c = true)
    (htrail : ∀ c ∈ trail, isBlank c = true) (text : List Char) :
    trim (lead ++ text ++ trail) = trim text := by
  have hleft : trimLeft (lead ++ text ++ trail) = trimLeft (text ++ trail) := by
    rw [trimLeft, List.append_assoc, List.dropWhile_append_of_pos hlead, trimLeft]
  rw [trim, hleft, trimLeft, List.dropWhile_append]
  split_ifs with hempty
  · -- A blank text leaves nothing on either side.
    have htext : trimLeft text = [] := List.isEmpty_iff.1 hempty
    have hall : trail.dropWhile isBlank = [] := List.dropWhile_eq_nil_iff.2 htrail
    rw [hall, trim, htext]
  · rw [trimRight_append_of_blank htrail]
    rfl

theorem stops_trim (text : List Char) : Stops isBlank (trim text) := by
  obtain ⟨trail, htrail, -⟩ := exists_append_trimRight (trimLeft text)
  have hstops := stops_trimLeft text
  rw [htrail] at hstops
  exact hstops.of_append

/-! ### More text behind -/

/-- Where a text is not blank, its leading blanks end in it, whatever follows. -/
theorem longest_blanks_append (h : trim text ≠ []) (more : List Char) :
    Longest isBlank (text.takeWhile isBlank) (trimLeft text ++ more) := by
  refine ⟨List.all_eq_true.1 List.all_takeWhile, ?_⟩
  have hstops := stops_trimLeft text
  cases hleft : trimLeft text with
  | nil =>
      rw [trim, hleft] at h
      exact absurd rfl h
  | cons c rest =>
      rw [hleft, stops_cons] at hstops
      exact stops_cons.2 hstops

theorem takeWhile_trimLeft_append (text more : List Char) :
    text.takeWhile isBlank ++ (trimLeft text ++ more) = text ++ more := by
  rw [← List.append_assoc, trimLeft, List.takeWhile_append_dropWhile]

theorem takeWhile_append_of_trim_ne_nil (h : trim text ≠ []) (more : List Char) :
    (text ++ more).takeWhile isBlank = text.takeWhile isBlank := by
  rw [← takeWhile_trimLeft_append text more]
  exact (longest_blanks_append h more).takeWhile_eq

theorem trimLeft_append_of_trim_ne_nil (h : trim text ≠ []) (more : List Char) :
    trimLeft (text ++ more) = trimLeft text ++ more := by
  rw [← takeWhile_trimLeft_append text more]
  exact (longest_blanks_append h more).dropWhile_eq

theorem trimRight_append_of_trim_ne_nil (h : trim text ≠ []) (lead : List Char) :
    trimRight (lead ++ text) = lead ++ trimRight text := by
  obtain ⟨trail, htrail, hblank⟩ := exists_append_trimRight text
  have hne : trimRight text ≠ [] := by
    intro hnil
    rw [hnil, List.nil_append] at htrail
    exact h (trim_eq_nil_iff.2 (htrail ▸ hblank))
  calc
    trimRight (lead ++ text) = trimRight (lead ++ trimRight text ++ trail) := by
      rw [List.append_assoc, ← htrail]
    _ = trimRight (lead ++ trimRight text) := trimRight_append_of_blank hblank _
    _ = lead ++ trimRight text := ((endsSolid_trimRight text).append hne lead).trimRight_eq

/-- The bounds that trimming sets in a text: where the leading blanks end, and as many characters
further on as the trimmed text has. -/
theorem length_sub_length_trimLeft (text : List Char) :
    text.length - (trimLeft text).length = (text.takeWhile isBlank).length := by
  have h := congrArg List.length (List.takeWhile_append_dropWhile (p := isBlank) (l := text))
  rw [List.length_append] at h
  rw [trimLeft]
  omega

theorem max_length_trimRight (text : List Char) :
    max (trimRight text).length (text.takeWhile isBlank).length =
      (text.takeWhile isBlank).length + (trim text).length := by
  have hsplit : text.takeWhile isBlank ++ trimLeft text = text := List.takeWhile_append_dropWhile
  by_cases hcore : trim text = []
  · have hblank : ∀ c ∈ text, isBlank c = true := by
      rw [← hsplit, trimLeft_eq_nil_of_trim_eq_nil hcore, List.append_nil]
      exact fun c hc => List.all_eq_true.1 List.all_takeWhile c hc
    have hright : trimRight text = [] := (List.rdropWhile_eq_nil_iff (p := isBlank)).2 hblank
    rw [hright, hcore]
    simp
  · obtain ⟨trail, htext, htrail⟩ := exists_trim_append text
    have hright : trimRight text = text.takeWhile isBlank ++ trim text := by
      rw [htext, trimRight_append_of_blank htrail, ← htext]
      exact ((endsSolid_trim text).append hcore _).trimRight_eq
    rw [hright, List.length_append]
    omega

end

end OneBit.Text
