import OneBit.Bit.Reader
import OneBit.Log
import OneBit.Word
/-!
# Packed images

An image is a program as bytes: its words, twelve bits each and the most significant bit first,
one after the other without header or count. Zeros fill the last byte. Comments take no room.
Fewer than twelve bits at the end of an image are filling.
-/

namespace OneBit.Image

open Bit

def appendWord (w : Writer) (word : Word) : Writer :=
  w.append word.instruction.code Field.instruction.width
    |>.append word.address.value Field.address.width
    |>.append word.control.code Field.control.width

def packWords (words : List Word) : List UInt8 := (words.foldl appendWord {}).pad.bytes

def encode (nodes : List Node) : List UInt8 := packWords (wordsOf nodes)

/-- Reads words until too few bits are left, at most as many as given. -/
def takeWords : Nat → Reader → List Word × Reader
  | 0, r => ([], r)
  | limit + 1, r =>
    match r.read wordBits with
    | (.ok bits, next) =>
      let (words, last) := takeWords limit next
      (Word.ofBits bits :: words, last)
    | (.error _, last) => ([], last)

/-- Unpacks an image: its words, and the reader at its end. A word takes more than a byte, so there
are no more words than bytes. -/
def unpack (data : List UInt8) : List Word × Reader := takeWords data.length { rest := data }

def decode (data : List UInt8) : List Word := (unpack data).1

def fillBits (data : List UInt8) : Nat := (unpack data).2.available

def encodeLogged (nodes : List Node) : Logged (List UInt8) :=
  let image := encode nodes
  ⟨image, [.packed (wordsOf nodes).length image.length]⟩

/-- Unpacks an image and records the bits that belong to no word. -/
def decodeLogged (data : List UInt8) : Logged (List Word) :=
  ⟨decode data, if fillBits data = 0 then [] else [.discarded (fillBits data)]⟩

end OneBit.Image
