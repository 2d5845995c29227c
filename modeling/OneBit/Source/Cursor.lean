import OneBit.Diagnostic
import OneBit.SyntaxError
import OneBit.Text.Alphanumeric
/-!
# A cursor over assembly text

Assembly text is read from the front by a cursor that moves over the whole text. What it may read
ends at `stop`. Both offsets can be set freely. A cursor that started at the front stays inside of
its text; one that was put elsewhere finds characters by the rules for offsets, and an error where
there is none.
-/

namespace OneBit.Source

open Text

/-- A place in a text that is being read. -/
structure Cursor where
  text : List Char
  pos : Int
  /-- The offset at which the part to be read ends. -/
  stop : Int
  /-- The values that were cut so far, each with its line. -/
  warnings : List (Nat × Truncation)
  /-- The characters from the cursor to the end of the part to be read. -/
  ahead : List Char
  ahead_eq : ahead = slice text pos stop

namespace Cursor

def place (text : List Char) (pos stop : Int) (warnings : List (Nat × Truncation)) : Cursor :=
  ⟨text, pos, stop, warnings, slice text pos stop, rfl⟩

theorem eq_place (c : Cursor) : c = place c.text c.pos c.stop c.warnings := by
  obtain ⟨text, pos, stop, warnings, ahead, rfl⟩ := c
  rfl

def start (text : List Char) : Cursor := place text 0 text.length []

def stopAt (c : Cursor) (stop : Int) : Cursor := place c.text c.pos stop c.warnings

/-- The cursor at another offset. On the way forward it drops what it passes. -/
def moveTo (c : Cursor) (pos : Int) : Cursor :=
  if h : 0 ≤ c.pos ∧ c.pos ≤ pos then
    { c with
      pos
      ahead := c.ahead.drop (pos - c.pos).toNat
      ahead_eq := by
        have hpos : pos = c.pos + (pos - c.pos).toNat := by omega
        rw [c.ahead_eq, ← slice_add h.1, ← hpos] }
  else place c.text pos c.stop c.warnings

theorem moveTo_eq_place (c : Cursor) (pos : Int) :
    c.moveTo pos = place c.text pos c.stop c.warnings := by
  rw [(c.moveTo pos).eq_place, moveTo]
  split <;> rfl

def advance (c : Cursor) (count : Nat) : Cursor := c.moveTo (c.pos + count)

def warn (c : Cursor) (line : Nat) (truncation : Truncation) : Cursor :=
  { c with warnings := c.warnings ++ [(line, truncation)] }

def atEnd (c : Cursor) : Bool := c.stop ≤ c.pos

def error (c : Cursor) (expected : Expected) : SyntaxError := .inText c.text c.pos expected []

/-- The characters that are met one by one from the cursor on. -/
def reach (c : Cursor) : List Char :=
  if c.stop ≤ c.pos then []
  else if 0 ≤ c.pos then c.ahead
  else (onward c.text c.pos).take (c.stop - c.pos).toNat

def rest (c : Cursor) : List Char := c.text.drop (index c.text c.pos)

/-- The next two characters of the text, whatever the end of the part to be read. Mostly they are
at hand. -/
def pair (c : Cursor) : List Char :=
  match c.ahead with
  | first :: second :: _ => [first, second]
  | _ => c.rest.take 2

theorem pair_eq (c : Cursor) : c.pair = c.rest.take 2 := by
  have hle : c.ahead <+: c.rest := by
    rw [c.ahead_eq, slice, before, rest, List.drop_take]
    exact List.take_prefix _ _
  rw [pair]
  split
  · next h =>
    obtain ⟨more, hmore⟩ := hle
    simp [← hmore, h]
  · rfl

/-- The part to be read, when a cursor before the start of the text counts as at its start. -/
def inText (c : Cursor) : List Char :=
  if 0 ≤ c.pos ∧ 0 ≤ c.stop then c.ahead else window c.text c.pos c.stop

/-- The character so many places on, or nothing at the end of what is to be read. It is an error
if the part to be read goes on there, and the text does not. -/
def look (c : Cursor) (count : Nat) : Except SyntaxError (Option Char) :=
  if c.stop ≤ c.pos + count then .ok none
  else
    let char? := if 0 ≤ c.pos then c.ahead[count]? else (onward c.text (c.pos + count)).head?
    match char? with
    | some char => .ok (some char)
    | none => .error (.inText c.text (c.pos + count) .character [])

def next (c : Cursor) : Except SyntaxError (Option Char) := c.look 0

/-- A name that ends before an offset is complete: no letter, numeral or underscore follows. -/
def atBoundary (c : Cursor) (offset : Int) : Except SyntaxError Bool :=
  return !(← (c.moveTo offset).next).any isNameChar

/-- The cursor and the end of what is to be read lie in the text, in this order. -/
def Inside (c : Cursor) : Prop := 0 ≤ c.pos ∧ c.pos ≤ c.stop ∧ c.stop ≤ c.text.length

theorem start_inside (text : List Char) : (start text).Inside :=
  ⟨Int.le_refl 0, Int.natCast_nonneg _, Int.le_refl _⟩

/-- Inside of the text, what is left to read has as many characters as its bounds say. -/
theorem Inside.length_ahead {c : Cursor} (h : c.Inside) :
    c.ahead.length = (c.stop - c.pos).toNat := by
  obtain ⟨hpos, hle, hstop⟩ := h
  rw [c.ahead_eq, slice, before, index_of_nonneg hpos, index_of_nonneg (by omega),
    List.length_drop, List.length_take]
  omega

/-- Inside of the text, all characters met are those that are left to read. -/
theorem Inside.reach_eq {c : Cursor} (h : c.Inside) : c.reach = c.ahead := by
  have hlength := h.length_ahead
  rw [reach, if_pos h.1]
  split
  · exact (List.eq_nil_of_length_eq_zero (by omega)).symm
  · rfl

/-- Inside of the text, looking on never fails. -/
theorem Inside.look_eq {c : Cursor} (h : c.Inside) (count : Nat) :
    c.look count = .ok c.ahead[count]? := by
  have hlength := h.length_ahead
  simp only [look, if_pos h.1]
  split
  · rw [List.getElem?_eq_none (by omega)]
  · rw [List.getElem?_eq_getElem (by omega)]

/-- Inside of the text, what is left to read does not depend on how bounds are counted. -/
theorem Inside.inText_eq {c : Cursor} (h : c.Inside) : c.inText = c.ahead := by
  obtain ⟨hpos, hle, hstop⟩ := h
  rw [inText, if_pos ⟨hpos, by omega⟩]

end Cursor

end OneBit.Source
