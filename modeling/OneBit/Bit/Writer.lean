/-!
# Writing bit fields

Bits are packed into bytes, the most significant bit first. The bits that do not yet fill a byte
are kept as a number.
-/

namespace OneBit.Bit

inductive BitError
  /-- A field cannot have a negative number of bits. -/
  | negativeCount
  /-- Fewer bits are left than were asked for. -/
  | short (left : Nat) (requested : Int)
  deriving DecidableEq, Repr

def BitError.message : BitError → String
  | negativeCount => "negative shift count"
  | short left requested => s!"{left} bits left, {requested} requested"

/-- Bits written so far: whole bytes, and the number that the pending bits spell. -/
structure Writer where
  bytes : List UInt8 := []
  acc : Nat := 0
  pending : Nat := 0
  deriving DecidableEq, Repr

/-- The number that the low `count` bits of a value spell. -/
def lowBits (value : Int) (count : Nat) : Nat := (value % (1 <<< count : Nat)).toNat

/-- The whole bytes at the front of the `count` low bits of a number. -/
def wholeBytes (number count : Nat) : List UInt8 :=
  (List.range (count / 8)).map fun i => UInt8.ofNat (number >>> (count - 8 * (i + 1)))

namespace Writer

def written (w : Writer) : Nat := w.bytes.length

/-- Appends the low `count` bits of a value, the most significant first. -/
def append (w : Writer) (value : Int) (count : Nat) : Writer :=
  let number := w.acc <<< count + lowBits value count
  let length := w.pending + count
  { bytes := w.bytes ++ wholeBytes number length
    acc := lowBits number (length % 8)
    pending := length % 8 }

def write (w : Writer) (value count : Int) : Except BitError Writer :=
  if count < 0 then .error .negativeCount else .ok (w.append value count.toNat)

def pad (w : Writer) : Writer :=
  if w.pending = 0 then w else w.append 0 (8 - w.pending)

inductive Request
  | write (value count : Int)
  | pad
  deriving DecidableEq, Repr

/-- The outcome of a request, and the writer after it. A request that fails changes nothing. -/
def serve (w : Writer) : Request → Except BitError Unit × Writer
  | .write value count =>
    match w.write value count with
    | .ok next => (.ok (), next)
    | .error e => (.error e, w)
  | .pad => (.ok (), w.pad)

end Writer

end OneBit.Bit
