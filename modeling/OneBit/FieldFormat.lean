import OneBit.Word
import OneBit.Text.Typeset
/-!
# Fields in a layout

The layouts `b` and `o` give a field its fixed binary or octal form. Any other layout sets the
mnemonic of an instruction, the value of an address or the name of a control.
-/

namespace OneBit

open Text

def Instruction.format (i : Instruction) (layout : String) : Except LayoutError String :=
  if layout = "b" then .ok i.binary
  else if layout = "o" then .ok i.octal
  else Layout.apply layout (.text i.mnemonic.toList)

def Address.format (a : Address) (layout : String) : Except LayoutError String :=
  if layout = "b" then .ok a.binary
  else if layout = "o" then .ok a.octal
  else Layout.apply layout (.number a.value)

def Control.format (c : Control) (layout : String) : Except LayoutError String :=
  if layout = "b" then .ok c.binary
  else if layout = "o" then .ok c.octal
  else Layout.apply layout (.text c.label.toList)

end OneBit
