import OneBit.Text.CodeRanges
/-!
# Blank characters and trimming

Around a program, and at the end of a comment, blanks do not count. A blank is any white space
or separator character, line ends included. Within a line only spaces and tabs divide the parts
of a word.
-/

namespace OneBit.Text

def blankRanges : CodeRanges :=
  [(0x9, 0xD), (0x1C, 0x20), (0x85, 0x85), (0xA0, 0xA0), (0x1680, 0x1680), (0x2000, 0x200A),
   (0x2028, 0x2029), (0x202F, 0x202F), (0x205F, 0x205F), (0x3000, 0x3000)]

def isBlank (c : Char) : Bool := blankRanges.contains c

/-- The characters that divide the parts of a word: space and tab. -/
def spaces : List Char := [' ', '\t']

def isSpace (c : Char) : Bool := spaces.contains c

def trimLeft (text : List Char) : List Char := text.dropWhile isBlank

def trimRight (text : List Char) : List Char := (text.reverse.dropWhile isBlank).reverse

def trim (text : List Char) : List Char := trimRight (trimLeft text)

theorem isBlank_of_isSpace {c : Char} (h : isSpace c = true) : isBlank c = true := by
  simp only [isSpace, spaces, List.contains_eq_mem, decide_eq_true_eq, List.mem_cons,
    List.not_mem_nil, or_false] at h
  rcases h with rfl | rfl <;> decide

end OneBit.Text
