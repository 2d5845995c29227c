/-!
# Splitting texts

A text is cut at every place where a separator stands. There is always one part more than there are
separators.
-/

namespace OneBit.Text

def splitAt (separator : Char) : List Char → List (List Char)
  | [] => [[]]
  | c :: rest =>
    if c = separator then [] :: splitAt separator rest
    else
      match splitAt separator rest with
      | part :: parts => (c :: part) :: parts
      | [] => [[c]]

end OneBit.Text
