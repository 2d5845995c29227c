/-!
# Offsets into a text

An offset counts the characters of a text from zero. A negative offset counts from the end, so that
`-1` is the offset of the last character.
-/

namespace OneBit.Text

/-- How many characters lie before an offset. An offset before the start of the text stands for
the start. -/
def index (text : List Char) (offset : Int) : Nat :=
  (if offset < 0 then text.length + offset else offset).toNat

/-- The characters before an offset; one beyond the text stands for its end. -/
def before (text : List Char) (offset : Int) : List Char := text.take (index text offset)

def slice (text : List Char) (start stop : Int) : List Char :=
  (before text stop).drop (index text start)

/-- The characters from `start` up to `stop`, when nothing is counted from the end: a negative
bound stands for the start of the text. -/
def window (text : List Char) (start stop : Int) : List Char :=
  (text.take stop.toNat).drop start.toNat

/-- The characters that are met one by one from an offset on. After the last offset that counts
from the end comes zero, so the end of the text is followed by the whole of it. No character stands
at an offset before the start. -/
def onward (text : List Char) (offset : Int) : List Char :=
  if 0 ≤ offset then text.drop offset.toNat
  else if text.length + offset < 0 then []
  else text.drop (text.length + offset).toNat ++ text

/-- An offset that a machine word of 64 bits holds. -/
def fitsWord (offset : Int) : Bool := -0x8000000000000000 ≤ offset && offset < 0x8000000000000000

/-- An offset that neither the text nor a machine word holds. -/
def isUnreachable (text : List Char) (offset : Int) : Bool :=
  !fitsWord offset && (offset < 0 || text.length < offset)

theorem index_of_nonneg {offset : Int} (h : 0 ≤ offset) (text : List Char) :
    index text offset = offset.toNat := by
  rw [index, if_neg (Int.not_lt.2 h)]

theorem index_add {offset : Int} (h : 0 ≤ offset) (text : List Char) (count : Nat) :
    index text (offset + count) = index text offset + count := by
  rw [index_of_nonneg h, index_of_nonneg (by omega), Int.toNat_add h (by omega),
    Int.toNat_natCast]

theorem slice_add {start : Int} (h : 0 ≤ start) (text : List Char) (stop : Int) (count : Nat) :
    slice text (start + count) stop = (slice text start stop).drop count := by
  rw [slice, slice, List.drop_drop, index_add h]

end OneBit.Text
