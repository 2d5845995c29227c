/-!
# Text files

A text file holds UTF-8. Its lines may end with a line feed, a carriage return or both; in the text
every line ends with a line feed.
-/

namespace OneBit.Text

/-- Every line end as a line feed. -/
def unifyLineEnds : List Char → List Char
  | [] => []
  | '\r' :: '\n' :: rest => '\n' :: unifyLineEnds rest
  | '\r' :: rest => '\n' :: unifyLineEnds rest
  | c :: rest => c :: unifyLineEnds rest

/-- The text of a file, if its bytes are well-formed UTF-8. -/
def decodeFile? (content : List UInt8) : Option String :=
  (String.fromUTF8? ⟨content.toArray⟩).map fun text => String.ofList (unifyLineEnds text.toList)

def encodeFile (text : String) : List UInt8 := text.toUTF8.data.toList

end OneBit.Text
