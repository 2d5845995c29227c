import OneBit.FileTree
import OneBit.Listing
/-!
# Hosts

What a run finds around it: files that can be read and written, and a console that prints listings.
A run uses nothing else of the machine, and whatever it does there can go wrong.
-/

namespace OneBit.Command

open Text

/-- The text that is printed for a listing, or why it cannot be printed. -/
abbrev Console := Listing → Except String String

def Console.plain : Console := fun listing => .ok listing.render

/-- The files and the console of a machine, over the states that its files can be in. -/
structure Host (σ : Type) where
  /-- All the bytes of a file. -/
  read : σ → Raw → Except FileFault (List UInt8)
  /-- Opens a file for writing: it is created, or emptied if it is there. -/
  create : σ → Raw → Except FileFault σ
  /-- Writes to a file that was opened for it, and closes the file. -/
  write : σ → Raw → List UInt8 → Option FileFault × σ
  print : Console

namespace Host

/-- The names of the files in a tree are texts. -/
def onText {α : Type} (path : Raw) (open? : String → Except FileError α) : Except FileFault α :=
  match path.toString? with
  | none => .error .unencodable
  | some path => (open? path).mapError FileError.fault

/-- A host that has a file tree for its files. -/
def ofTrees (print : Console) : Host FileTree where
  read tree path := onText path tree.read
  create tree path := onText path fun path => tree.write path []
  write tree path content :=
    match onText path fun path => tree.write path content with
    | .ok after => (none, after)
    | .error fault => (some fault, tree)
  print

end Host

end OneBit.Command
