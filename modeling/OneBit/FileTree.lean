import OneBit.Text.Encoding
import OneBit.Text.Quoted
import OneBit.Text.Split
/-!
# File trees

The files that commands work on, as a value: regular files and directories below a root, one of them
the working directory. A path begins at the root if a slash comes first, else at the working
directory. It is resolved name by name, and every name but the last has to be a directory. There are
no links, no devices and no permissions: each place has one name, and whatever stands there can be
read and written.
-/

namespace OneBit

open Text

inductive FileFault
  | notFound | notDirectory | isDirectory
  /-- A name or a path has too many bytes. -/
  | nameTooLong
  /-- A path with the character zero in it, which no file has. -/
  | zeroInPath
  /-- A path that has no bytes, for a half of a surrogate pair in it. -/
  | unencodable
  /-- Any other fault, in the words of the operating system. A file tree has none of these. -/
  | other (text : String)
  deriving DecidableEq, Repr

namespace FileFault

/-- The operating system finds the fault. The others are found in the path itself. -/
def isSystem : FileFault → Bool
  | zeroInPath | unencodable => false
  | _ => true

def describe : FileFault → String
  | notFound => "[Errno 2] No such file or directory"
  | notDirectory => "[Errno 20] Not a directory"
  | isDirectory => "[Errno 21] Is a directory"
  | nameTooLong => "[Errno 36] File name too long"
  | zeroInPath => "embedded null byte"
  | unencodable => "surrogates not allowed"
  | other text => text

def message (fault : FileFault) (path : String) : String :=
  if fault.isSystem then fault.describe ++ ": " ++ path else fault.describe

end FileFault

structure FileError where
  fault : FileFault
  path : String
  deriving DecidableEq, Repr

def FileError.message (e : FileError) : String := e.fault.message (quoted e.path)

inductive TextFileError
  | file (error : FileError)
  /-- The bytes are not well-formed UTF-8. -/
  | undecodable
  deriving DecidableEq, Repr

inductive FileEntry
  | file (content : List UInt8)
  | directory
  deriving DecidableEq, Repr

abbrev FilePath := List (List Char)

/-- Files and directories by their paths from the root; of two entries for one path the first
counts. -/
structure FileTree where
  entries : List (FilePath × FileEntry) := []
  working : FilePath := []
  deriving DecidableEq, Repr

namespace FileTree

def find? (tree : FileTree) (path : FilePath) : Option FileEntry :=
  if path.isEmpty then some .directory else tree.entries.lookup path

def put (tree : FileTree) (path : FilePath) (entry : FileEntry) : FileTree :=
  { tree with entries := (path, entry) :: tree.entries }

/-- A name that stays in a directory. -/
def staysPut (name : List Char) : Bool := name.isEmpty || name == ['.']

/-- A name that is too long for a file: 255 bytes are the most. -/
def isTooLong (name : List Char) : Bool := 255 < (encodeFile (String.ofList name)).length

/-- Goes from a directory down a list of names that have to be directories. Above the root is the
root. -/
def descend (tree : FileTree) : FilePath → List (List Char) → Except FileFault FilePath
  | path, [] => .ok path
  | path, name :: names =>
    if staysPut name then tree.descend path names
    else if name == ['.', '.'] then tree.descend path.dropLast names
    else if isTooLong name then .error .nameTooLong
    else
      match tree.find? (path ++ [name]) with
      | some .directory => tree.descend (path ++ [name]) names
      | some (.file _) => .error .notDirectory
      | none => .error .notFound

/-- A path that can be resolved: not empty, without the character zero, of 4095 bytes at most. -/
def checkPath (path : String) : Except FileFault Unit := do
  if path.toList.contains '\x00' then throw .zeroInPath
  if 4095 < (encodeFile path).length then throw .nameTooLong
  if path.toList.isEmpty then throw .notFound

def startOf (tree : FileTree) (path : List Char) : FilePath :=
  if path.head? = some '/' then [] else tree.working

/-- Resolves a path up to its last name: the directory that holds the file, and the file's name.
A path that ends with no name of its own leads to a directory. -/
def locate (tree : FileTree) (path : String) : Except FileFault FilePath := do
  checkPath path
  let start := tree.startOf path.toList
  let names := splitAt '/' path.toList
  let last := names.getLast?.getD []
  if staysPut last || last == ['.', '.'] then
    let _ ← tree.descend start names
    throw .isDirectory
  let directory ← tree.descend start names.dropLast
  if isTooLong last then throw .nameTooLong
  return directory ++ [last]

/-- A path with a slash at its end names a directory, which cannot be opened for writing. -/
def locateForWriting (tree : FileTree) (path : String) : Except FileFault FilePath := do
  let trimmed := (path.toList.reverse.dropWhile (· == '/')).reverse
  if !trimmed.isEmpty && trimmed.length < path.toList.length then
    checkPath path
    let _ ← tree.descend (tree.startOf trimmed) (splitAt '/' trimmed).dropLast
    throw .isDirectory
  tree.locate path

def read (tree : FileTree) (path : String) : Except FileError (List UInt8) :=
  let found : Except FileFault (List UInt8) := do
    match tree.find? (← tree.locate path) with
    | some (.file content) => return content
    | some .directory => throw .isDirectory
    | none => throw .notFound
  found.mapError fun fault => ⟨fault, path⟩

def write (tree : FileTree) (path : String) (content : List UInt8) :
    Except FileError FileTree :=
  let found : Except FileFault FileTree := do
    let place ← tree.locateForWriting path
    match tree.find? place with
    | some .directory => throw .isDirectory
    | _ => return tree.put place (.file content)
  found.mapError fun fault => ⟨fault, path⟩

def readText (tree : FileTree) (path : String) : Except TextFileError String :=
  match tree.read path with
  | .error e => .error (.file e)
  | .ok content =>
    match decodeFile? content with
    | some text => .ok text
    | none => .error .undecodable

end FileTree

end OneBit
