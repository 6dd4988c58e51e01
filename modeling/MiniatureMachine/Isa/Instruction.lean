import MiniatureMachine.Isa.OpcodeTable

/-!
Contract: decoded instructions and their assembly text.

Owns:
- typed operands and the instruction they belong to;
- decoding of a word, which every word has;
- the disassembly of a word.

An operand carries exactly the bits of its slot, so a register number is below
sixteen and a byte is a byte by type.
-/

namespace MiniatureMachine

/-- The operand of one slot. -/
inductive Operand where
  /-- The number of a register. -/
  | register (number : BitVec 4)
  /-- A byte that is read as a signed number. -/
  | signed (byte : BitVec 8)
  /-- A byte that is read as an unsigned number. -/
  | unsigned (byte : BitVec 8)
  /-- A whole word, read as an unsigned number. -/
  | whole (word : Word)
deriving DecidableEq, Repr

namespace Operand

def value : Operand → Int
  | register number => number.toNat
  | signed byte => byte.toInt
  | unsigned byte => byte.toNat
  | whole word => word.toNat

def text : Operand → String
  | register number => "r" ++ toString number.toNat
  | operand => toString operand.value

end Operand

/-- An operation with its operands in slot order. -/
structure Instruction where
  operation : Operation
  operands : List Operand
deriving DecidableEq, Repr

/-- The operand that a word holds in a slot whose lowest bit is at the offset. -/
def Slot.operand? (slot : Slot) (word : Word) (offset : Nat) : Option Operand :=
  match slot with
  | .register => some (.register (word.extractLsb' offset 4))
  | .signedByte => some (.signed (word.extractLsb' offset 8))
  | .unsignedByte => some (.unsigned (word.extractLsb' offset 8))
  | .word => some (.whole (word.extractLsb' offset 16))
  | .filler => none

/-- The operands of consecutive slots, the first of which ends below `top`. -/
def Word.operands (word : Word) : (top : Nat) → List Slot → List Operand
  | _, [] => []
  | top, slot :: slots =>
      let offset := top - slot.width
      (slot.operand? word offset).toList ++ word.operands offset slots

namespace Instruction

def decode (word : Word) : Instruction :=
  let operation := classify word
  ⟨operation, word.operands operation.origin operation.shape⟩

/-- The register number at a position, if the operand there is a register. -/
def register? (instruction : Instruction) (position : Nat) : Option Nat :=
  match instruction.operands[position]? with
  | some (.register number) => some number.toNat
  | _ => none

/-- The number at a position, if the operand there is not a register. -/
def number? (instruction : Instruction) (position : Nat) : Option Int :=
  match instruction.operands[position]? with
  | some (.register _) | none => none
  | some operand => some operand.value

/-- The assembly text: the name, then the operands with commas between them. -/
def text (instruction : Instruction) : String :=
  match instruction.operands with
  | [] => instruction.operation.name
  | operands =>
      instruction.operation.name ++ " " ++ ", ".intercalate (operands.map Operand.text)

end Instruction

def disassemble (word : Word) : String :=
  (Instruction.decode word).text

end MiniatureMachine
