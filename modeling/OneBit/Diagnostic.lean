import OneBit.Field
/-!
# Diagnostics

Warnings and errors about a program, each with the place it concerns. A value that does not fit
its field is cut and warned of, never cut silently.
-/

namespace OneBit

/-- The fields of a word that are given as numbers. -/
inductive Operand
  | address | control
  deriving DecidableEq, Repr

def Operand.name : Operand → String
  | address => "address"
  | control => "control"

def Operand.field : Operand → Field
  | address => .address
  | control => .control

structure Truncation where
  operand : Operand
  value : Int
  deriving DecidableEq, Repr

namespace Truncation

def kept (t : Truncation) : Nat := t.operand.field.keep t.value

def message (t : Truncation) : String :=
  let name := t.operand.name
  let value := t.value
  let kept := t.kept
  s!"{name} {value} does not fit its field, truncated to {kept}"

/-- A value above the limit of its field is cut with a warning. -/
def check (operand : Operand) (value : Int) : Option Truncation :=
  if operand.field.limit < value then some ⟨operand, value⟩ else none

end Truncation

inductive Place
  /-- A line of the source, counted from one. -/
  | line (number : Int)
  /-- An entry of a program that is given as a list, counted from zero. -/
  | entry (index : Nat)
  /-- The program as a whole. -/
  | program
  deriving DecidableEq, Repr

structure Diagnostic where
  place : Place
  text : String
  deriving DecidableEq, Repr

def Diagnostic.render (d : Diagnostic) : String :=
  match d.place with
  | .line number => s!"Line {number}: " ++ d.text
  | .entry index => s!"Entry {index}: " ++ d.text
  | .program => d.text

end OneBit
