import OneBit.Instruction
import OneBit.Address
import OneBit.Control
/-!
# Code words and programs

A code word is an instruction, an address and a control. A program is a list of nodes, each a
word or a comment.
-/

namespace OneBit

structure Word where
  instruction : Instruction
  address : Address
  control : Control
  deriving DecidableEq, Repr

namespace Word

/-- The word that the low twelve bits of an integer spell. -/
def ofBits (bits : Int) : Word :=
  ⟨Instruction.ofBits bits, Address.ofBits bits, Control.ofBits bits⟩

def toBits (w : Word) : Nat :=
  w.instruction.code.val <<< Field.instruction.position +
    w.address.value.val <<< Field.address.position +
    w.control.code.val <<< Field.control.position

inductive Update
  | instruction (new : Instruction)
  | address (new : Address)
  | control (new : Control)
  deriving DecidableEq, Repr

def update (w : Word) : Update → Word
  | .instruction new => { w with instruction := new }
  | .address new => { w with address := new }
  | .control new => { w with control := new }

inductive Request
  | instruction (code : Int)
  | address (value : Int)
  | control (code : Int)
  deriving DecidableEq, Repr

/-- The change that is asked for. An instruction or a control must have the code; an address takes
any number, of which it keeps the low bits. -/
def Request.update : Request → Except FieldError Update
  | instruction code => (Instruction.ofInt code).map .instruction
  | address value => .ok (.address (.ofInt value))
  | control code => (Control.ofInt code).map .control

def serve (w : Word) (request : Request) : Except FieldError Word := request.update.map w.update

end Word

inductive Node
  | word (word : Word)
  /-- The text of a comment, without the semicolon before it. -/
  | comment (text : String)
  deriving DecidableEq, Repr

namespace Node

def word? : Node → Option Word
  | word w => some w
  | comment _ => none

def comment? : Node → Option String
  | word _ => none
  | comment text => some text

end Node

def wordsOf (nodes : List Node) : List Word := nodes.filterMap Node.word?

def commentsOf (nodes : List Node) : List String := nodes.filterMap Node.comment?

section

variable (nodes : List Node)

@[simp] theorem wordsOf_nil : wordsOf [] = [] := rfl

@[simp] theorem wordsOf_word_cons (w : Word) :
    wordsOf (.word w :: nodes) = w :: wordsOf nodes := rfl

@[simp] theorem wordsOf_comment_cons (text : String) :
    wordsOf (.comment text :: nodes) = wordsOf nodes := rfl

@[simp] theorem commentsOf_nil : commentsOf [] = [] := rfl

@[simp] theorem commentsOf_word_cons (w : Word) :
    commentsOf (.word w :: nodes) = commentsOf nodes := rfl

@[simp] theorem commentsOf_comment_cons (text : String) :
    commentsOf (.comment text :: nodes) = text :: commentsOf nodes := rfl

end

end OneBit
