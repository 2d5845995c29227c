import OneBit.Bit.Writer
/-!
# Reading bit fields

Bits are taken from bytes, the most significant bit first. A byte is fetched only when its bits are
asked for, and the bits that were fetched and not yet given out are kept as a number.
-/

namespace OneBit.Bit

/-- Bytes not yet fetched, and the number that the fetched bits spell. -/
structure Reader where
  rest : List UInt8
  acc : Nat := 0
  available : Nat := 0
  deriving DecidableEq, Repr

namespace Reader

/-- Fetches bytes until `count` bits are there or no byte is left. -/
def fetch (count : Int) : List UInt8 → Nat → Nat → Reader
  | [], acc, available => ⟨[], acc, available⟩
  | byte :: rest, acc, available =>
    if available < count then fetch count rest (acc <<< 8 + byte.toNat) (available + 8)
    else ⟨byte :: rest, acc, available⟩

/-- Reads the next `count` bits as a number. If there are too few, all that is left stays
available. A negative count gives zero and makes as many zero bits available. -/
def read (r : Reader) (count : Int) : Except BitError Nat × Reader :=
  let fetched := fetch count r.rest r.acc r.available
  if fetched.available < count then (.error (.short fetched.available count), fetched)
  else
    let left := (fetched.available - count).toNat
    (.ok (fetched.acc >>> left),
      { fetched with acc := lowBits fetched.acc left, available := left })

end Reader

end OneBit.Bit
