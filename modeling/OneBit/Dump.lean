import OneBit.Word
/-!
# Dumps

A dump has one line for each word: its index in at least four hexadecimal digits and its twelve
bits in three.
-/

namespace OneBit.Dump

open Text

/-- A number in capital hexadecimal digits, at least as many as given. -/
def hex (width number : Nat) : String := String.ofList (capitals (paddedDigits 16 width number))

def hexLine (index : Nat) (w : Word) : String := hex 4 index ++ ": " ++ hex 3 w.toBits

def memLine (index : Nat) (w : Word) : String := "@" ++ hex 4 index ++ " " ++ hex 3 w.toBits

def hexText (words : List Word) : String := "\n".intercalate (words.mapIdx hexLine)

def memText (words : List Word) : String := "\n".intercalate (words.mapIdx memLine)

end OneBit.Dump
