import OneBit.Instruction
/-!
# Mnemonics in assembly text

An instruction is written in one of its spellings, as a whole name: no letter, numeral or
underscore of any script may follow it.
-/

namespace OneBit.Mnemonic

def spelled : List (List Char × Instruction) :=
  Instruction.all.flatMap fun i => i.spellings.map fun spelling => (spelling.toList, i)

/-- Every spelling with its instruction, the longest first, so that `stoc` comes before `sto`. -/
def table : List (List Char × Instruction) :=
  [4, 3, 2].flatMap fun length => spelled.filter fun entry => entry.1.length == length

/-- A spelling stands at the front of a text as a whole name: no character that names hold follows
it. What follows is looked up by the length of the spelling, which may fail. -/
def fits {ε : Type} (inName : Char → Bool) (text : List Char)
    (follower : Nat → Except ε (Option Char)) (spelling : List Char) : Except ε Bool := do
  if spelling.isPrefixOf text then return !(← follower spelling.length).any inName
  else return false

/-- Reads a mnemonic of a table from the front of a text: its instruction and its length. -/
def readFrom {ε : Type} (inName : Char → Bool) (text : List Char)
    (follower : Nat → Except ε (Option Char)) :
    List (List Char × Instruction) → Except ε (Option (Instruction × Nat))
  | [] => return none
  | (spelling, i) :: rest => do
    if ← fits inName text follower spelling then return some (i, spelling.length)
    else readFrom inName text follower rest

/-- When what follows a spelling is what stands behind it in the text, looking never fails. -/
theorem fits_text {ε : Type} (inName : Char → Bool) (text spelling : List Char) :
    fits inName text (fun n => (.ok text[n]? : Except ε (Option Char))) spelling =
      .ok (spelling.isPrefixOf text && !text[spelling.length]?.any inName) := by
  cases h : spelling.isPrefixOf text with
  | true => simp [fits, h, bind, Except.bind, pure, Except.pure]
  | false => simp [fits, h, pure, Except.pure]

end OneBit.Mnemonic
