/-!
Contract: the kinds of operand slot in an instruction word.

Owns:
- the width of a slot and whether a source operand fills it;
- the inclusive range of the numbers a numeric slot accepts;
- the letter that names a slot.
-/

namespace MiniatureMachine

/-- A part of an instruction word that is set aside for one operand. -/
inductive Slot where
  /-- A register number, four bits. -/
  | register
  /-- A signed number, eight bits. -/
  | signedByte
  /-- An unsigned number, eight bits. -/
  | unsignedByte
  /-- A whole word, signed or unsigned. -/
  | word
  /-- Four zero bits that no source operand fills. -/
  | filler
deriving DecidableEq, Repr

namespace Slot

def width : Slot → Nat
  | register | filler => 4
  | signedByte | unsignedByte => 8
  | word => 16

def takesOperand : Slot → Bool
  | filler => false
  | register | signedByte | unsignedByte | word => true

/-- The inclusive range of the numbers the slot accepts. A register slot and a
filler slot accept none. -/
def range? : Slot → Option (Int × Int)
  | signedByte => some (-128, 127)
  | unsignedByte => some (0, 255)
  | word => some (-32768, 65535)
  | register | filler => none

def letter : Slot → Char
  | register => 'r'
  | signedByte => 's'
  | unsignedByte => 'u'
  | word => 'n'
  | filler => 'z'

end Slot

end MiniatureMachine
