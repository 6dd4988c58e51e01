import MiniatureMachine.Isa.Operation
import MiniatureMachine.Word

/-!
Contract: the bit patterns of the operations.

Owns:
- the ordered opcode table, where the first matching row decides;
- the operation of a word and the template line of an operation.

The special patterns stand before the general ones they overlap with: `nop` and
`mov` before `add`, `neg` before `sub`, `jump` before `call`. The last row
matches every word, so each word has an operation.
-/

namespace MiniatureMachine

structure OpcodeRow where
  /-- The bits a word has under the mask. -/
  pattern : Word
  /-- The bits that take part in the comparison. -/
  mask : Word
  /-- The operation that the row selects. -/
  operation : Operation
deriving DecidableEq, Repr

namespace OpcodeRow

/-- Whether a word has the row's pattern under its mask. -/
def selects (row : OpcodeRow) (word : Word) : Bool :=
  word &&& row.mask == row.pattern

end OpcodeRow

def catchAllRow : OpcodeRow := ⟨0x0000, 0x0000, .data⟩

/-- The rows in the order in which they are tried. -/
def opcodeTable : List OpcodeRow :=
  [⟨0x0000, 0xFFFF, .halt⟩,
    ⟨0x0001, 0xF0FF, .read⟩,
    ⟨0x0002, 0xF0FF, .write⟩,
    ⟨0x0003, 0xF0FF, .jumpi⟩,
    ⟨0x1000, 0xF000, .loadn⟩,
    ⟨0x2000, 0xF000, .load⟩,
    ⟨0x3000, 0xF000, .store⟩,
    ⟨0x4000, 0xF00F, .loadi⟩,
    ⟨0x4001, 0xF00F, .storei⟩,
    ⟨0x5000, 0xF000, .addn⟩,
    ⟨0x6000, 0xFFFF, .nop⟩,
    ⟨0x6000, 0xF00F, .mov⟩,
    ⟨0x6000, 0xF000, .add⟩,
    ⟨0x7000, 0xF0F0, .neg⟩,
    ⟨0x7000, 0xF000, .sub⟩,
    ⟨0x8000, 0xF000, .mul⟩,
    ⟨0x9000, 0xF000, .div⟩,
    ⟨0xA000, 0xF000, .mod⟩,
    ⟨0xB000, 0xFF00, .jump⟩,
    ⟨0xB000, 0xF000, .call⟩,
    ⟨0xC000, 0xF000, .jeqz⟩,
    ⟨0xD000, 0xF000, .jnez⟩,
    ⟨0xE000, 0xF000, .jgtz⟩,
    ⟨0xF000, 0xF000, .jltz⟩,
    catchAllRow]

/-- The operation of a word: that of the first row which selects it. -/
def classify (word : Word) : Operation :=
  ((opcodeTable.find? fun row => row.selects word).getD catchAllRow).operation

namespace Operation

def row (operation : Operation) : OpcodeRow :=
  (opcodeTable.find? fun row => row.operation == operation).getD catchAllRow

/-- The image line of an operation whose operand slots are all zero. -/
def template (operation : Operation) : String :=
  operation.row.pattern.layout

end Operation

end MiniatureMachine
