import OneBit.Image
/-!
# Byte streams

Bytes in memory with a position at which they are read and written. Writing replaces what stands
there and extends the stream; a gap before the position is filled with zeros.
-/

namespace OneBit

/-- Bytes with a position, which may lie beyond them. -/
structure ByteStream where
  content : List UInt8 := []
  position : Nat := 0
  deriving DecidableEq, Repr

/-- A stream has no place before its start. -/
inductive StreamError
  | negativePosition (position : Int)
  deriving DecidableEq, Repr

def StreamError.message : StreamError → String
  | negativePosition position => s!"negative seek value {position}"

namespace ByteStream

/-- Writes bytes at the position and moves behind them. Writing nothing changes nothing. -/
def write (s : ByteStream) (data : List UInt8) : ByteStream :=
  if data.isEmpty then s
  else
    let gap := List.replicate (s.position - s.content.length) 0
    { content :=
        s.content.take s.position ++ gap ++ data ++ s.content.drop (s.position + data.length)
      position := s.position + data.length }

/-- Reads from the position to the end and moves there. A position beyond the end stays. -/
def readAll (s : ByteStream) : List UInt8 × ByteStream :=
  (s.content.drop s.position, { s with position := max s.position s.content.length })

def seek (s : ByteStream) (position : Int) : Except StreamError ByteStream :=
  if position < 0 then .error (.negativePosition position)
  else .ok { s with position := position.toNat }

/-- Bit fields on their way into a stream. A byte goes to the stream as soon as it is whole. -/
structure Packer where
  stream : ByteStream
  /-- The bits that do not fill a byte yet. -/
  bits : Bit.Writer := {}
  /-- The number of bytes that went to the stream. -/
  written : Nat := 0
  deriving DecidableEq, Repr

namespace Packer

/-- Hands whole bytes over to the stream, one at a time. -/
def flush (p : Packer) : Packer :=
  { stream := p.bits.bytes.foldl (fun s byte => s.write [byte]) p.stream
    bits := { p.bits with bytes := [] }
    written := p.written + p.bits.written }

def append (p : Packer) (value : Int) (count : Nat) : Packer :=
  flush { p with bits := p.bits.append value count }

def pad (p : Packer) : Packer := flush { p with bits := p.bits.pad }

def appendWord (p : Packer) (word : Word) : Packer :=
  p.append word.instruction.code Field.instruction.width
    |>.append word.address.value Field.address.width
    |>.append word.control.code Field.control.width

end Packer

/-- Writes the image of a program at the position, and records the sizes: the number of its words,
and the stream. -/
def writeImage (s : ByteStream) (nodes : List Node) : Logged (Nat × ByteStream) := do
  let words := wordsOf nodes
  let packed := (words.foldl Packer.appendWord { stream := s }).pad
  Logged.record [.packed words.length packed.written]
  return (words.length, packed.stream)

def readImage (s : ByteStream) : Logged (List Word × ByteStream) := do
  let (data, next) := s.readAll
  let words ← Image.decodeLogged data
  return (words, next)

end ByteStream

end OneBit
