import OneBit.Text.Raw
import OneBit.Word
/-!
# Listings

A listing shows the words of a program in a table: the index, the three fields in binary, the
mnemonic and the addressing mode. Consoles lay it out as they see fit. The layout here is a ruled
table with the title as it stands.
-/

namespace OneBit

structure Column where
  header : String
  /-- Cells stand on the right of the column. -/
  onRight : Bool
  deriving DecidableEq, Repr

def Column.all : List Column :=
  [⟨"#", true⟩, ⟨"inst", false⟩, ⟨"addr", false⟩, ⟨"ctrl", false⟩, ⟨"mnemonic", false⟩,
   ⟨"mode", false⟩]

def Word.cells (index : Nat) (w : Word) : List String :=
  [toString index, w.instruction.binary, w.address.binary, w.control.binary,
   w.instruction.mnemonic, w.address.kind.label]

structure Listing where
  title : Option Text.Raw
  rows : List (List String)
  deriving DecidableEq, Repr

namespace Listing

def ofWords (words : List Word) (title : Option Text.Raw) : Listing :=
  ⟨title, words.mapIdx Word.cells⟩

def widths (listing : Listing) : List Nat :=
  listing.rows.foldl (fun widths row => List.zipWith max widths (row.map String.length))
    (Column.all.map fun column => column.header.length)

def fill (count : Nat) (c : Char) : String := String.ofList (List.replicate count c)

def setCell (column : Column) (width : Nat) (text : String) : String :=
  let gap := fill (width - text.length) ' '
  if column.onRight then gap ++ text else text ++ gap

/-- A line of the table: the parts with a bar between them and a space at both ends. -/
def ruled (bar : String) (parts : List String) : String :=
  " " ++ bar.intercalate parts ++ " \n"

def cellLine (widths : List Nat) (cells : List String) : String :=
  let set := List.zipWith (fun column (width, text) => " " ++ setCell column width text ++ " ")
    Column.all (widths.zip cells)
  ruled "│" set

/-- A line of one character, crossed by a bar between the columns. -/
def crossLine (widths : List Nat) (c : Char) (bar : String) : String :=
  ruled bar (widths.map fun width => fill (width + 2) c)

def titleLine (total : Nat) (title : String) : String :=
  let front := (total - title.length) / 2
  fill front ' ' ++ title ++ fill (total - title.length - front) ' ' ++ "\n"

/-- A plain layout. Each column has a space on both sides and a bar or an edge at each end. -/
def render (listing : Listing) : String :=
  let widths := listing.widths
  let total := widths.foldl (fun total width => total + width + 3) 1
  let title := match listing.title with
    | some title => titleLine total title.shown
    | none => ""
  let head := Column.all.map Column.header
  title ++ crossLine widths ' ' "╷" ++ cellLine widths head ++ crossLine widths '═' "╪" ++
    String.join (listing.rows.map (cellLine widths)) ++ crossLine widths ' ' "╵"

end Listing

end OneBit
