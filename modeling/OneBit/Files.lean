import OneBit.FileTree
import OneBit.Image
import OneBit.Source.Reading
/-!
# Programs in files

Assembly text and packed images read from and written to a file tree.
-/

namespace OneBit

open Text

inductive SourceFileError
  | file (error : FileError)
  /-- The bytes are not well-formed UTF-8. -/
  | undecodable
  | text (error : SyntaxError)
  deriving DecidableEq, Repr

def parseFile (tree : FileTree) (path : String) :
    Logged (Except SourceFileError (List Node)) :=
  match tree.readText path with
  | .error (.file e) => return .error (.file e)
  | .error .undecodable => return .error .undecodable
  | .ok source => return (← Source.parseLogged source).mapError .text

def readImageFile (tree : FileTree) (path : String) : Logged (Except FileError (List Word)) :=
  match tree.read path with
  | .error e => return .error e
  | .ok data => return .ok (← Image.decodeLogged data)

/-- Writes the image of a program to a file: the number of its words, and the files after it. -/
def writeImageFile (tree : FileTree) (path : String) (nodes : List Node) :
    Logged (Except FileError (Nat × FileTree)) :=
  match tree.write path (Image.encode nodes) with
  | .error e => return .error e
  | .ok after => do
    let _ ← Image.encodeLogged nodes
    return .ok ((wordsOf nodes).length, after)

end OneBit
